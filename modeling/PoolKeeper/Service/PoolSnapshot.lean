import PoolKeeper.Service.Basic

/-!
# `PoolKeeper/Service/PoolSnapshot.lean` — snapshots of the pool and their names

A snapshot of the pool is taken for a purpose, and its name says for which, so that the one that a
restore can be undone with is never mistaken for the passing one of a backup. The rest of the name is
the time. Several snapshots of one second are told apart by a number at the end, of which there are
ninety-nine.
-/

set_option autoImplicit false

namespace PoolKeeper

open Text

inductive Purpose where
  /-- The source of one upload, destroyed afterwards. -/
  | backup
  /-- What a restore can be undone with, never destroyed. -/
  | safety
deriving DecidableEq, Repr

structure PoolSnapshot where
  pool : String
  name : String
deriving DecidableEq, Repr

namespace PoolSnapshot

/-- What the names of snapshots for the purpose start with. -/
def lead : Purpose → String
  | .backup => "kopia-"
  | .safety => "before-restore-"

def fullName (s : PoolSnapshot) : String := s.pool ++ "@" ++ s.name

/-- The first name for a snapshot at the instant. -/
def baseName (purpose : Purpose) (t : Instant) : String := lead purpose ++ t.compactText

def maxSuffix : Nat := 99

/-- The names for a snapshot, in the order they are tried. -/
def candidates (base : String) : List String :=
  base :: (List.range maxSuffix).map fun k => base ++ "-" ++ String.ofList (decimal (k + 1))

variable {σ : Type}

open Operation

def firstFree? (pool : String) : List String → Operation σ (Option PoolSnapshot)
  | [] => return none
  | name :: names => do
    let s : PoolSnapshot := ⟨pool, name⟩
    if ← call (.datasetExists s.fullName) then firstFree? pool names else return some s

/-- Takes a snapshot under a name that is free. -/
def take (pool : String) (purpose : Purpose) (t : Instant) : Operation σ PoolSnapshot := do
  let base := baseName purpose t
  match ← firstFree? pool (candidates base) with
  | none => throw ⟨.snapshot, "no free snapshot name for " ++ pool ++ "@" ++ base⟩
  | some s =>
    ofReply (← call (.snapshot s.fullName))
    return s

/-- Where a pool that is mounted at the path has the read-only view of a snapshot. -/
def viewPath (mountpoint name : String) : String :=
  Path.join (Path.join (Path.join mountpoint ".zfs") "snapshot") name

/-- The path of the snapshot's read-only view, which has to be there. -/
def view (s : PoolSnapshot) : Operation σ String := do
  let path := viewPath (← ofReply (← call (.mountpoint s.pool))) s.name
  if ← onMachine (Files.isThere path) then return path
  else throw ⟨.viewMissing, path⟩

end PoolSnapshot

end PoolKeeper
