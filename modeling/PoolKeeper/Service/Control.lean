import PoolKeeper.Service.Backup
import PoolKeeper.Service.Connection
import PoolKeeper.Service.Restore
import PoolKeeper.Request.Spool
import PoolKeeper.Schedule

/-!
# `PoolKeeper/Service/Control.lean` — what can be asked of the service

The record can be read, the configuration replaced, the service started and stopped, and requests
can be applied. `tick` is what the running service does by itself, again and again: it opens a session
if there is none, and makes a backup if one is due.

A configuration that carries an order for a restore is taken over only after the restore succeeded,
and the order never becomes part of the record.
-/

set_option autoImplicit false

namespace PoolKeeper.Service

open Operation

variable {σ : Type}

def openRecord (path : String) : FileStep Record := do
  return (← Record.load path).setConnected false

/-- The record, with the list of snapshots as the repository has it, if it can be asked. -/
def get : Operation σ Record := do
  let r ← record
  if !(r.config.enabled && r.status.connected) then return r
  match ← call .listSnapshots with
  | .error _ => return r
  | .ok snapshots =>
    update fun r => { r with status := { r.status with snapshots } }
    record

/-- Ends the session. A cycle that is running goes on. -/
def stop : Operation σ Unit :=
  update fun r =>
    if !r.config.enabled then r
    else
      let r := r.setConnected false
      if r.status.inProgress then r else { r with status := { r.status with progress := 0 } }

def shouldStart : Operation σ Bool := do return (← record).config.enabled

def start : Operation σ Unit := do
  if ← shouldStart then ensureConnected

def supported : Operation σ Bool := call .engineAvailable

/-- The record with another configuration. A session for another repository is of no use any more. -/
def configured (requested previous : Config) (r : Record) : Record :=
  let r := { r with config := requested }
  if requested.repositoryChanged previous then r.setConnected false else r

def update (requested : Config) : Operation σ Unit := do
  let previous := (← record).config
  if previous.enabled && !requested.enabled then stop
  let (order, requested) := Config.takeRestoreOrder previous requested
  -- Before anything of the configuration is taken over: a restore that fails leaves it as it was.
  match order with
  | some id => restore id
  | none => pure ()
  Operation.update (configured requested previous)
  if requested.enabled then ensureConnected

/-! ## Requests -/

def apply : Request → Operation σ Unit
  | .update config => update config
  | .restore id => do
    -- An order in the configuration that there is, so whatever an order has to pass is passed.
    let config := (← record).config
    update { config with restoreTrigger := id }
  | .backup => do
    start
    backup

def applyAll : List Request → Operation σ (List (Except Fault Unit))
  | [] => return []
  | r :: rs => do
    -- What one request comes to does not keep the next from being applied.
    let first ← outcome (apply r)
    return first :: (← applyAll rs)

def applyPending (spool : String) : Operation σ (List (Except Fault Unit)) := do
  applyAll (← onFiles (Spool.take spool))

/-! ## The schedule -/

def tick : Operation σ Decision := do
  let now ← call .now
  let r ← record
  if r.config.enabled && !r.status.connected && !r.status.inProgress then
    -- That it failed is seen below: there is still no session.
    let _ ← outcome ensureConnected
  let r ← record
  match Schedule.decide r (← settings).windows now with
  | .error defect =>
    let status := "Scheduling disabled: " ++ defect.fault.message
    -- Said once and not at every look.
    if r.status.lastStatus ≠ status then say status
    throw defect.fault
  | .ok decision =>
    match decision with
    | .run _ => backup
    | .skip _ => pure ()
    return decision

/-- Looks at the schedule until the service is asked to end, at most `rounds` times. What a look
comes to never ends the loop. -/
def poll (asked : Operation σ Bool) : (rounds : Nat) → Operation σ Unit
  | 0 => return
  | rounds + 1 => do
    if ← asked then return
    let _ ← outcome tick
    poll asked rounds

/-- Applies the requests in a spool until the service is asked to end, at most `rounds` times. -/
def serve (asked : Operation σ Bool) (spool : String) : (rounds : Nat) → Operation σ Unit
  | 0 => return
  | rounds + 1 => do
    if ← asked then return
    let _ ← outcome (applyPending spool)
    serve asked spool rounds

end PoolKeeper.Service
