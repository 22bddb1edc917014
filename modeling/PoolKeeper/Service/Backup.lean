import PoolKeeper.Service.PoolSnapshot

/-!
# `PoolKeeper/Service/Backup.lean` — one backup

A backup takes a snapshot of the pool, uploads its read-only view, lets the engine forget what the
retention policy does not keep, and destroys the snapshot. The snapshot is destroyed whatever became
of the upload. A failure of the engine ends the session, so that the next attempt opens a new one;
failures after the upload do not make the backup fail.

Whether a backup may run is decided here and by the clock of this call, not by the caller.
-/

set_option autoImplicit false

namespace PoolKeeper.Service

open Operation

variable {σ : Type}

/-- How the repository describes an upload. -/
def backupDescription (pool : String) (t : Instant) : String :=
  "Backup of " ++ pool ++ " pool at " ++ t.secondText

def refuseBackup {α : Type} (status detail : String) : Operation σ α := do
  say status
  throw ⟨.backupRefused, detail⟩

/-- The window that a backup may run in, if the record and the pool allow one. -/
def admitBackup (r : Record) (now : Instant) : Operation σ String := do
  let s ← settings
  if !r.config.enabled then refuseBackup "Backup skipped: service disabled" "service disabled"
  if !r.status.connected then
    refuseBackup "Backup skipped: repository not connected" "repository not connected"
  match Window.active? s.windows now with
  | none => refuseBackup "Outside maintenance window" "outside maintenance window"
  | some window =>
    if ← call (.poolExists s.pool) then return window
    refuseBackup ("Failed to find pool: " ++ s.pool ++ " not found")
      ("pool " ++ s.pool ++ " not found")

/-- Uploads the view of a snapshot. A failure comes with what is to be said about it. -/
def upload (s : PoolSnapshot) (now : Instant) : Operation σ (Except (String × Fault) Unit) := do
  match ← outcome s.view with
  | .error f => return .error ("Failed to get snapshot path: " ++ f.message, f)
  | .ok path =>
    advance 25 "Creating Kopia snapshot"
    let reply ← call (.upload path (backupDescription s.pool now))
    return reply.mapError fun f => ("Failed to create Kopia snapshot: " ++ f.message, f)

def applyRetention (policy : Retention) : Operation σ Bool := do
  if policy.isEmpty then return false
  ofReply (← call (.expire policy))
  return true

/-- The record with a backup that finished at the instant; it counts for the window, if one is
given. -/
def backedUp (finished : Instant) (window : Option String) (r : Record) : Record :=
  { r with status := { r.status with
      lastBackup := some finished, lastWindow := window.or r.status.lastWindow } }

/-- The steps of a backup that holds the slot. -/
def backupCycle (retention : Retention) (window : Option String) (now : Instant) :
    Operation σ Unit := do
  match ← outcome (PoolSnapshot.take (← settings).pool .backup now) with
  | .error f =>
    failCycle ("Failed to create snapshot: " ++ f.message)
    throw f
  | .ok snapshot =>
    match ← upload snapshot now with
    | .error (status, f) =>
      let _ ← call (.destroy snapshot.fullName)
      failCycle status
      -- Only the engine knows the session. A view that is missing says nothing about it.
      if f.kind = .engine then update (·.setConnected false)
      throw f
    | .ok () =>
      advance 75 "Applying retention policies"
      -- The upload is what counts. Neither retention nor the snapshot that goes makes the backup fail.
      let _ ← outcome (applyRetention retention)
      advance 90 "Cleaning up ZFS snapshot"
      let _ ← call (.destroy snapshot.fullName)
      let finished ← call .now
      completeCycle "Backup completed successfully" (backedUp finished window)

def backup : Operation σ Unit := do
  let now ← call .now
  let r ← record
  let window ← admitBackup r now
  if !(← claim "Creating ZFS snapshot") then
    throw ⟨.backupRefused, "a backup or restore is already in progress"⟩
  -- A window is remembered only where the frequency is once per window.
  let counted := if r.config.readFrequency matches .ok .perWindow then some window else none
  backupCycle r.config.retention counted now

end PoolKeeper.Service
