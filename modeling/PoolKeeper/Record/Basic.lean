import PoolKeeper.Config.Basic
import PoolKeeper.Time.Instant

/-!
# `PoolKeeper/Record/Basic.lean` — what the service remembers

One record holds the configuration and the status of the service. It is the only thing that is kept
between runs, and every change of it is written to the state file before anything else happens.

The status belongs to one cycle at a time: `inProgress` is the slot that a backup or a restore
claims, `progress` and `lastStatus` say how far it has come.
-/

set_option autoImplicit false

namespace PoolKeeper

structure Snapshot where
  id : String
  time : Instant
  size : Int64
  source : String
  description : String := ""
deriving DecidableEq

structure Status where
  /-- Whether a session with the repository is open. -/
  connected : Bool := false
  lastBackup : Option Instant := none
  /-- The window occurrence that the last scheduled backup counted for. -/
  lastWindow : Option String := none
  lastStatus : String := ""
  /-- Whether a cycle holds the slot. -/
  inProgress : Bool := false
  /-- How far the cycle has come, in hundredths. -/
  progress : UInt8 := 0
  snapshots : List Snapshot := []
deriving DecidableEq

structure Record where
  config : Config := {}
  status : Status := {}
deriving DecidableEq

namespace Record

def say (r : Record) (status : String) : Record :=
  { r with status := { r.status with lastStatus := status } }

def setConnected (r : Record) (connected : Bool) : Record :=
  { r with status := { r.status with connected } }

def claim (r : Record) (status : String) : Record :=
  { r with status := { r.status with inProgress := true, progress := 0, lastStatus := status } }

/-- The record after the running cycle came to `progress`; progress never goes back, and never
passes 100. -/
def advance (r : Record) (progress : UInt8) (status : String) : Record :=
  { r with status := { r.status with
      progress := max r.status.progress (min progress 100), lastStatus := status } }

/-- The record after the running cycle gave the slot back without a word. -/
def release (r : Record) : Record :=
  { r with status := { r.status with inProgress := false, progress := 0 } }

def fail (r : Record) (status : String) : Record := r.release.say status

def complete (r : Record) (status : String) : Record :=
  { r with status := { r.status with
      inProgress := false, progress := 100, lastStatus := status } }

/-- The record as a new process finds it: a cycle that was running when the last one died is marked
as interrupted, and its slot is free. -/
def recovered (r : Record) : Record :=
  if r.status.inProgress then r.fail ("Interrupted: " ++ r.status.lastStatus) else r

end Record

end PoolKeeper
