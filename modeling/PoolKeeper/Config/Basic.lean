import PoolKeeper.Config.Backend
import PoolKeeper.Config.Retention
import PoolKeeper.Text.Quoted
import PoolKeeper.Time.Span

/-!
# `PoolKeeper/Config/Basic.lean` — the configuration of the service

What an operator decides: whether the service runs, where the repository is and how it is
encrypted, how long snapshots are kept, how often a backup may start, and, as a one-shot order, a
snapshot to restore. `Config.takeRestoreOrder` is the rule by which such an order is told from a value
that merely stayed where it was.
-/

set_option autoImplicit false

namespace PoolKeeper

open Text

structure Config where
  enabled : Bool := false
  password : String := ""
  backend : Backend := {}
  retention : Retention := {}
  /-- How often a backup may start: blank, or a length of time. -/
  frequency : String := ""
  /-- The one-shot order for a restore; blank when there is none. -/
  restoreTrigger : String := ""
deriving DecidableEq, Repr

/-- How often the scheduler may start a backup. -/
inductive Frequency where
  /-- At most once per occurrence of a maintenance window. -/
  | perWindow
  /-- At most once per length of time. -/
  | every (interval : Span)
deriving DecidableEq, Repr

namespace Config

inductive Defect where
  | backend (defect : Backend.Defect)
  | passwordMissing
  | frequencyUnreadable (value : String) (defect : Span.Defect)
  | frequencyZero (value : String)
  /-- The frequency is longer than the scheduler can reckon with. -/
  | frequencyTooLong
deriving DecidableEq, Repr

def Defect.message : Defect → String
  | backend defect => defect.message
  | passwordMissing => "repository_password is required"
  | frequencyUnreadable value defect =>
    "backup_frequency " ++ quoted value ++ " is invalid: " ++ defect.message
  | frequencyZero value => "backup_frequency " ++ quoted value ++ " must be positive"
  | frequencyTooLong =>
    "backup_frequency: Source duration value is out of range for the target type"

def Defect.fault (d : Defect) : Fault := Fault.badConfig d.message

def readFrequency (c : Config) : Except Defect Frequency :=
  let value := trim c.frequency
  if value = "" then .ok .perWindow
  else
    match Span.ofText value with
    | .error defect => .error (.frequencyUnreadable value defect)
    | .ok span => if span.nanos = 0 then .error (.frequencyZero value) else .ok (.every span)

/-- The store of a configuration that the service can run on. -/
def validate (c : Config) : Except Defect Store :=
  match c.backend.resolve with
  | .error defect => .error (.backend defect)
  -- The password only matters to a service that would open a session with it.
  | .ok store => if c.enabled && c.password = "" then .error .passwordMissing else .ok store

/-- Whether a session opened for `previous` is of no use for `c`. -/
def repositoryChanged (c previous : Config) : Bool :=
  c.backend ≠ previous.backend || c.password ≠ previous.password

/-- The configuration with its restore order consumed. -/
def clearTrigger (c : Config) : Config := { c with restoreTrigger := "" }

/-- The restore order in `requested`, and what is left of `requested`. Only a value that is not
blank and differs from the one in `previous` is an order, and an order is consumed. -/
def takeRestoreOrder (previous requested : Config) : Option String × Config :=
  let id := trim requested.restoreTrigger
  if id = "" || id = trim previous.restoreTrigger then (none, requested)
  else (some id, requested.clearTrigger)

end Config

end PoolKeeper
