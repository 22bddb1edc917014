import PoolKeeper.Disk.Machine
import PoolKeeper.Text.Blank
import PoolKeeper.Text.Decimal
import PoolKeeper.Word

/-!
# `PoolKeeper/Lock.lean` — one process at a time

The lock is a file with the number of the process that holds it. It is made where no file is; a file
with the number of a process that is not alive, or with no number at all, is left over from a crash
and is removed first. A process gives the lock back only while the file has its own number.
-/

set_option autoImplicit false

namespace PoolKeeper.Lock

open Text

/-- The lock that goes with a state file. -/
def path (statePath : String) : String := Path.withExtension statePath "pid"

def content (pid : UInt32) : String := String.ofList (decimal pid.toNat ++ ['\n'])

def holder? (text : String) : Option UInt32 :=
  let digits := match trimBlanks text.toList with
    | '+' :: rest => rest
    | cs => cs
  if digits.isEmpty || !digits.all isDigit then none
  else
    let n := decimalValue digits
    if Word.holds 32 n then some (UInt32.ofNat n) else none

/-- Takes the lock in at most so many rounds, each of which finds the file, or finds it left over and
removes it. Gives whether the lock was taken; if not, it belongs to a live process, or something
that is no file keeps coming in between. -/
def attempt (path : String) : (rounds : Nat) → Files Bool
  | 0 => return false
  | rounds + 1 => do
    match ← (Files.putNew path (.newFile (content (← get).pid).toUTF8)).outcome with
    | .ok _ => return true
    | .error .alreadyExists =>
      match ← (Files.readText path).outcome with
      | .error .notFound => attempt path rounds
      | .error e => throw e
      | .ok text =>
        -- Text that names no process, or one that is dead, was left over from a crash.
        let held ← match holder? text with
          | some pid => Files.isAlive pid
          | none => pure false
        if held then return false
        match ← (Files.removeFile path).outcome with
        | .ok _ | .error .notFound => attempt path rounds
        | .error e => throw e
    | .error e => throw e

def maxRounds : Nat := 3

/-- Takes the lock, unless a live process holds it. -/
def acquire (path : String) : Files Bool := do
  match Path.parent? path with
  | some parent => Files.makeDirectories parent
  | none => pure ()
  attempt path maxRounds

def release (path : String) : StateM Machine Unit := do
  match ← (Files.readText path).run with
  | .error _ => return
  | .ok text =>
    if trimBlanks text.toList = decimal (← get).pid.toNat then
      let _ ← (Files.removeFile path).run

end PoolKeeper.Lock
