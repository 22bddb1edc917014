import PoolKeeper.Disk.Machine
import PoolKeeper.Fault

/-!
# `PoolKeeper/Disk/Refusal.lean` — refusals as faults

What the operating system refuses becomes a fault that says what was to be done, with which path, and
why it was not.
-/

set_option autoImplicit false

namespace PoolKeeper

/-- A step on the machine that can fail with a fault. -/
abbrev FileStep := ExceptT Fault (StateM Machine)

namespace Files

def refusal (what path : String) (e : OsError) : String := what ++ " " ++ path ++ ": " ++ e.message

/-- A step whose refusal is a fault of the given kind. -/
def orFault {α : Type} (kind : Fault.Kind) (what path : String) (step : Files α) : FileStep α :=
  ExceptT.mk do
    match ← step.run with
    | .ok a => return .ok a
    | .error e => return .error ⟨kind, refusal what path e⟩

/-- Makes sure that there is a directory that is its owner's alone. -/
def makePrivate (path : String) : FileStep Unit := do
  (makeDirectories path).orFault .restoreStep "create" path
  let _ ← (mode path).orFault .restoreStep "stat" path
  (setMode path 0o700).orFault .restoreStep "chmod" path

end Files

end PoolKeeper
