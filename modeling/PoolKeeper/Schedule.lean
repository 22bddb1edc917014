import PoolKeeper.Record.Basic
import PoolKeeper.Window

/-!
# `PoolKeeper/Schedule.lean` — whether a backup is due

`Schedule.decide` looks at a record, the windows and the time, and says whether a backup should
start or why not. A frequency that cannot be used is an error and never a reason to run.
-/

set_option autoImplicit false

namespace PoolKeeper

inductive SkipReason where
  | disabled
  | cycleRunning
  | notConnected
  | outsideWindow
  | alreadyRanInWindow
  | tooSoon
deriving DecidableEq, Repr

inductive Decision where
  /-- Start a backup for this window occurrence. -/
  | run (window : String)
  | skip (reason : SkipReason)
deriving DecidableEq, Repr

namespace Schedule

/-- The longest interval the scheduler can reckon with: `2^63 - 1` milliseconds. -/
def longestInterval : Span := ⟨9223372036854775807 * 1000000⟩

/-- Whether the interval has not passed since the last backup. -/
def isTooSoon (interval : Span) (lastBackup : Option Instant) (now : Instant) : Bool :=
  match lastBackup with
  | none => false
  | some last => now.since last < interval.nanos

def decide (r : Record) (windows : List Window) (now : Instant) : Except Config.Defect Decision :=
  if !r.config.enabled then .ok (.skip .disabled)
  else if r.status.inProgress then .ok (.skip .cycleRunning)
  else if !r.status.connected then .ok (.skip .notConnected)
  else
    match r.config.readFrequency, Window.active? windows now with
    -- A frequency that cannot be read is reported whether or not a window is open. One that is too
    -- long is only met where the interval would be used.
    | .error defect, _ => .error defect
    | .ok _, none => .ok (.skip .outsideWindow)
    | .ok .perWindow, some window =>
      if r.status.lastWindow = some window then .ok (.skip .alreadyRanInWindow)
      else .ok (.run window)
    | .ok (.every interval), some window =>
      if interval.nanos > longestInterval.nanos then .error .frequencyTooLong
      else if isTooSoon interval r.status.lastBackup now then .ok (.skip .tooSoon)
      else .ok (.run window)

end Schedule

end PoolKeeper
