import PoolKeeper.Disk.Basic
import PoolKeeper.Text.Lossy

/-!
# `PoolKeeper/Disk/Machine.lean` — what a program can do to its machine

A machine is its disk, the processes that are alive on it, and its clock. Everything a program does
to it is a step that either succeeds or is refused with an `OsError`; a step that is refused changes
nothing, unless its comment says so.

Programs here run with every right, so permissions are kept but never stand in the way.
-/

set_option autoImplicit false

namespace PoolKeeper

/-- A machine, as one of its processes has it. -/
structure Machine where
  disk : Disk := {}
  /-- The directory that relative paths start from. -/
  cwd : Loc := []
  /-- The process that runs the program. -/
  pid : UInt32 := 2
  /-- All processes that are alive. -/
  alive : List UInt32 := [1, 2]
  /-- What the clock says next, in nanoseconds since 1970-01-01T00:00:00Z. -/
  clock : Nat := 1772330400000000000
  /-- How many names the process has given to files by the clock. -/
  named : Nat := 0
  /-- Whether the process was asked to end. -/
  signalled : Bool := false

/-- A step of a program on its machine. -/
abbrev Files := ExceptT OsError (StateM Machine)

namespace Files

/-- The place that a path leads to; a link at its end is followed or not. -/
def locate (follow : Bool) (path : String) : Files Loc := do
  let m ← get
  m.disk.resolve m.cwd follow path

/-- What is at the end of a path, links followed. -/
def found? (path : String) : Files (Option (Loc × Entry)) := do
  let loc ← locate true path
  return ((← get).disk.get? loc).map (loc, ·)

def change (f : Disk → Disk) : Files Unit := modify fun m => { m with disk := f m.disk }

/-- A step that cannot be refused, with what came of it. -/
def outcome {α : Type} (step : Files α) : Files (Except OsError α) :=
  ExceptT.mk do return .ok (← step.run)

/-- Whether a step would succeed with something that holds `p`. -/
def test {α : Type} (step : Files α) (p : α → Bool) : StateM Machine Bool := do
  match ← step.run with
  | .ok a => return p a
  | .error _ => return false

/-! ## Looking -/

def isThere (path : String) : StateM Machine Bool := test (found? path) (·.isSome)

def isDirectory (path : String) : StateM Machine Bool :=
  test (found? path) fun e => e.any (·.2.isDirectory)

/-- The bytes of a file. -/
def readBytes (path : String) : Files ByteArray := do
  match ← found? path with
  | none => throw .notFound
  | some (_, .file _ bytes) => return bytes
  | some _ => throw .isDirectory

/-- The text of a file. -/
def readText (path : String) : Files String := do
  match Text.decode? (← readBytes path) with
  | some text => return text
  | none => throw .notText

/-- The permissions of a file or a directory. -/
def mode (path : String) : Files Nat := do
  match ← found? path with
  | some (_, .file mode _) | some (_, .directory mode) => return mode
  | _ => throw .notFound

/-- The names in a directory, sorted. -/
def list (path : String) : Files (List String) := do
  match ← found? path with
  | none => throw .notFound
  | some (loc, .directory _) => return ((← get).disk.names loc).mergeSort
  | some _ => throw .notDirectory

/-! ## Changing -/

/-- Writes a file, over the one that may be there. -/
def write (path : String) (bytes : ByteArray) : Files Unit := do
  let loc ← locate true path
  match (← get).disk.get? loc with
  | some (.directory _) => throw .isDirectory
  | some (.file mode _) => change (·.put loc (.file mode bytes))
  | _ => change (·.put loc (.newFile bytes))

/-- Puts something where there is nothing, not even a link. A path with a slash at its end can only
name a directory. -/
def putNew (path : String) (e : Entry) : Files Unit := do
  let loc ← locate false (Path.dropSlashes path)
  if Path.dropSlashes path ≠ path && !e.isDirectory then throw .isDirectory
  match (← get).disk.get? loc with
  | some _ => throw .alreadyExists
  | none => change (·.put loc e)

/-- Puts a complete private file at the path in one step, over what may be there. -/
def replace (path : String) (bytes : ByteArray) : Files Unit := do
  let name := (Path.steps (Path.dropSlashes path)).getLast?
  let loc ← locate false (Path.dropSlashes path)
  -- What stands at the path is looked at last; these two come from its text alone.
  if name == some "." || name == some ".." then throw .busy
  if Path.dropSlashes path ≠ path then throw .notDirectory
  match (← get).disk.get? loc with
  | some (.directory _) => throw .isDirectory
  | _ => change (·.put loc (.privateFile bytes))

def makeDirectory (path : String) : Files Unit := putNew path .newDirectory

/-- Makes a directory and those that lead to it, as far as they are missing. What was made before a
step is refused stays. Each round is for one component less, so their number is fuel enough. -/
def makeDirectories (path : String) : Files Unit := go (Path.components path).length path
where
  go : Nat → String → Files Unit
    | 0, path => if path = "" then return else ensure path
    | fuel + 1, path => do
      if path = "" then return
      try ensure path
      catch
        | .notFound =>
          match Path.parent? path with
          | none => throw .notFound
          | some parent =>
            go fuel parent
            ensure path
        | e => throw e
  ensure (path : String) : Files Unit := do
    -- Whatever kept it from being made, a directory that is there will do.
    try makeDirectory path catch e => if !(← isDirectory path) then throw e

def setMode (path : String) (mode : Nat) : Files Unit := do
  match ← found? path with
  | some (loc, .file _ bytes) => change (·.put loc (.file mode bytes))
  | some (loc, .directory _) => change (·.put loc (.directory mode))
  | _ => throw .notFound

def removeFile (path : String) : Files Unit := do
  let loc ← locate false path
  match (← get).disk.get? loc with
  | none => throw .notFound
  | some (.directory _) => throw .isDirectory
  | some _ => change (·.clear loc)

/-- Removes a directory with everything in it, or a link. -/
def removeTree (path : String) : Files Unit := do
  let loc ← locate false path
  match (← get).disk.get? loc with
  | none => throw .notFound
  | some (.file ..) => throw .notDirectory
  | some _ => change (·.clearTree loc)

/-! ## Processes and the clock -/

def isAlive (pid : UInt32) : StateM Machine Bool := do return (← get).alive.contains pid

/-- What the clock says, in nanoseconds, together with how many times it was asked for a name. Each
reading is later than the one before. -/
def stamp : StateM Machine (Nat × Nat) := do
  let m ← get
  set { m with clock := m.clock + 1, named := m.named + 1 }
  return (m.clock, m.named)

end Files

end PoolKeeper
