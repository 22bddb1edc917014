import PoolKeeper.Disk.Path
import PoolKeeper.Fault
import PoolKeeper.Time.Span
import PoolKeeper.Window

/-!
# `PoolKeeper/Settings/Basic.lean` — what the operator decides about the host

The host file says which pool is looked after, where files are kept, when windows are open and which
units use the pool. Everything in it is a choice with a default (`HostChoices`); `Settings.ofChoices`
fills the defaults in and refuses what the rest of the program could not live with.
-/

set_option autoImplicit false

namespace PoolKeeper

open Text

/-- Whether the text can be a part of a name that is given to the pool's tools: letters, digits,
dots, dashes and underscores, and not the name of a directory itself. -/
def isSafeName (name : String) : Bool :=
  name ≠ "" && name ≠ "." && name ≠ ".." && name.toList.all fun c => c.isAlphanum || c == '-' ||
    c == '_' || c == '.'

structure HostChoices where
  statePath : Option String := none
  pool : Option String := none
  cacheDataset : Option String := none
  cacheDir : Option String := none
  spoolDir : Option String := none
  pollInterval : Option String := none
  engineBinary : Option String := none
  windows : List Window := []
  selfUnit : Option String := none
  services : List String := []
  applications : List String := []

structure Settings where
  statePath : String := "/var/lib/poolvault/state.yaml"
  pool : String := "local"
  cacheDataset : String := "kopia-cache"
  cacheDir : String := "/var/lib/poolvault/kopia"
  /-- Where requests wait for the running service. -/
  spoolDir : String := "/var/lib/poolvault/requests"
  pollInterval : Span := ⟨60 * nanosPerSecond⟩
  engineBinary : String := "kopia"
  windows : List Window := []
  /-- The unit that the program itself runs as. -/
  selfUnit : String := "poolvault"
  services : List String := []
  applications : List String := []
deriving DecidableEq

namespace Settings

inductive Defect where
  | poolUnsafe (name : String)
  | cacheDatasetUnsafe (name : String)
  | cacheDirRelative
  | spoolDirRelative
  | pollUnreadable (text : String) (defect : Span.Defect)
  | pollOutOfRange (text : String)
  | window (position : Nat) (defect : Window.Defect)
deriving DecidableEq, Repr

def Defect.message : Defect → String
  | poolUnsafe name => "pool " ++ name ++ " must use only letters, digits, '.', '-', '_'"
  | cacheDatasetUnsafe name =>
    "cacheDataset " ++ name ++ " must use only letters, digits, '.', '-', '_'"
  | cacheDirRelative => "cacheDir must be absolute"
  | spoolDirRelative => "spoolDir must be absolute"
  | pollUnreadable text defect => "pollInterval " ++ quoted text ++ ": " ++ defect.message
  | pollOutOfRange text => "pollInterval " ++ quoted text ++ " must be positive and at most 1m"
  | window position defect =>
    "maintenanceWindows[" ++ String.ofList (decimal position) ++ "]: " ++ defect.message

/-- The longest time between two looks at the schedule: a minute. -/
def maxPollInterval : Span := ⟨60 * nanosPerSecond⟩

def readPollInterval (text : String) : Except Defect Span :=
  match Span.ofText (trim text) with
  | .error defect => .error (.pollUnreadable text defect)
  | .ok span =>
    if span.nanos = 0 || span.nanos > maxPollInterval.nanos then .error (.pollOutOfRange text)
    else .ok span

def checkWindows : (i : Nat) → List Window → Except Defect Unit
  | _, [] => .ok ()
  | i, w :: ws =>
    match w.validate with
    | .error defect => .error (.window i defect)
    | .ok _ => checkWindows (i + 1) ws

def ofChoices (c : HostChoices) : Except Defect Settings := do
  let base : Settings := {}
  let pool := c.pool.getD base.pool
  if !isSafeName pool then throw (.poolUnsafe pool)
  let cacheDataset := c.cacheDataset.getD base.cacheDataset
  if !isSafeName cacheDataset then throw (.cacheDatasetUnsafe cacheDataset)
  let cacheDir := c.cacheDir.getD base.cacheDir
  if !Path.isAbsolute cacheDir then throw .cacheDirRelative
  let spoolDir := c.spoolDir.getD base.spoolDir
  if !Path.isAbsolute spoolDir then throw .spoolDirRelative
  let pollInterval ← readPollInterval (c.pollInterval.getD "1m")
  checkWindows 0 c.windows
  return {
    statePath := c.statePath.getD base.statePath
    pool, cacheDataset, cacheDir, spoolDir, pollInterval
    engineBinary := c.engineBinary.getD base.engineBinary
    windows := c.windows
    selfUnit := c.selfUnit.getD base.selfUnit
    services := c.services
    applications := c.applications }

end Settings

end PoolKeeper
