import PoolKeeper.Disk.Refusal
import PoolKeeper.Service.PoolSnapshot

/-!
# `PoolKeeper/Service/Restore.lean` — one restore

A restore replaces what is on the pool by a snapshot of the repository. Before anything is written the
units that use the pool are stopped and a snapshot of the pool is taken; it is never destroyed, so from
then on there is always something to go back to. The data is fetched into a staging directory on the
pool first, and the pool is made equal to that.

The order for the restore is cleared from the configuration whatever became of it.
-/

set_option autoImplicit false

namespace PoolKeeper.Service

open Operation

def stagingName : String := ".kopia-restore-temp"

/-- What mirroring leaves alone on the pool. -/
def keptNames : List String := [stagingName, ".zfs"]

/-- Makes an empty private directory; what was there is removed. -/
def makeStaging (path : String) : FileStep Unit := do
  match ← (Files.removeTree path).run with
  | .ok () | .error .notFound => pure ()
  | .error e => throw ⟨.restoreStep, Files.refusal "clear" path e⟩
  Files.makePrivate path

def dropStaging (path : String) : StateM Machine Unit := do
  let _ ← (Files.removeTree path).run

variable {σ : Type}

/-- Whether a service is stopped and started around a restore: not the program itself, about which
nobody is asked, and none that would not start again. -/
def isManaged (service : Dependent) : Operation σ Bool := do
  if service.name = (← settings).selfUnit then return false
  call (.shouldStart service)

def stopUnit (d : Dependent) : Operation σ Unit := do
  let _ ← call (.stop d)

def startUnit (d : Dependent) : Operation σ Unit := do
  let _ ← call (.start d)

def ifManaged (act : Dependent → Operation σ Unit) (service : Dependent) : Operation σ Unit := do
  if ← isManaged service then act service

/-- Stops what uses the pool: applications, then services, each in the reverse of the order they start
in. -/
def stopDependents : Operation σ Unit := do
  (← call .applications).reverse.forM stopUnit
  (← call .services).reverse.forM (ifManaged stopUnit)

def startDependents : Operation σ Unit := do
  -- Which services are managed is asked once more.
  (← call .services).forM (ifManaged startUnit)
  (← call .applications).forM startUnit

/-- The fault of a restore that would disturb a running cycle. -/
def restoreBusy : Fault :=
  Fault.badConfig "cannot restore: a backup or restore cycle is already in progress"

def refuseRestore {α : Type} (detail : String) : Operation σ α := do
  say ("Restore failed: " ++ detail)
  throw ⟨.restoreRefused, detail⟩

/-- Whether the record and the pool allow a restore. -/
def admitRestore (id : String) : Operation σ Unit := do
  let r ← record
  let pool := (← settings).pool
  -- Without a word in the status, which belongs to the cycle that is running.
  if r.status.inProgress then throw restoreBusy
  if id = "" then throw (Fault.badConfig "restore snapshot id is empty")
  if !r.status.connected then refuseRestore "repository not connected"
  if !(← call (.poolExists pool)) then refuseRestore ("pool " ++ pool ++ " not found")

def stepFault (what : String) (f : Fault) : Fault := ⟨.restoreStep, what ++ ": " ++ f.message⟩

/-- The running restore failed after the safety snapshot was taken. -/
def failKeeping {α : Type} (safety : PoolSnapshot) (what : String) (f : Fault) (result : Fault) :
    Operation σ α := do
  failCycle (what ++ ": " ++ f.message ++ " (safety snapshot " ++ safety.fullName ++ " kept)")
  throw result

/-- Fetches the snapshot into a staging directory and makes the pool equal to it. -/
def fetchAndApply (id : String) (safety : PoolSnapshot) (mountpoint : String) : Operation σ Unit := do
  advance 40 "Creating staging directory"
  let staging := Path.join mountpoint stagingName
  match ← outcome (onFiles (makeStaging staging)) with
  | .error f => failKeeping safety "Failed to create temp restore path" f f
  | .ok () =>
    advance 50 "Restoring snapshot"
    match ← call (.fetch id staging) with
    | .error f =>
      failCycle ("Failed to restore snapshot: " ++ f.message ++ " (safety snapshot "
        ++ safety.fullName ++ " kept)")
      onMachine (dropStaging staging)
      throw (stepFault ("failed to restore snapshot " ++ id) f)
    | .ok () =>
      advance 70 "Applying restored data"
      let applied ← call (.mirror staging mountpoint keptNames)
      -- Before the outcome is looked at, so that the directory goes either way.
      onMachine (dropStaging staging)
      match applied with
      | .error f =>
        failCycle ("Failed to apply restored data: " ++ f.message
          ++ " (roll back with safety snapshot " ++ safety.fullName ++ ")")
        throw f
      | .ok () =>
        advance 80 "Starting services"
        startDependents
        completeCycle "Restore completed successfully" fun r => r

/-- The steps of a restore that holds the slot. -/
def restoreCycle (id : String) : Operation σ Unit := do
  let pool := (← settings).pool
  stopDependents
  advance 20 "Creating safety snapshot"
  let now ← call .now
  match ← outcome (PoolSnapshot.take pool .safety now) with
  | .error f =>
    failCycle ("Failed to create safety snapshot: " ++ f.message)
    throw (stepFault "failed to create safety snapshot" f)
  | .ok safety =>
    advance 30 "Preparing restore location"
    match ← call (.mountpoint pool) with
    | .error f =>
      failKeeping safety "Failed to get pool mountpoint" f
        (stepFault "failed to get pool mountpoint" f)
    | .ok mountpoint => fetchAndApply id safety mountpoint

def tryRestore (id : String) : Operation σ Unit := do
  admitRestore id
  if !(← claim "Stopping services") then throw restoreBusy
  restoreCycle id

def restore (id : String) : Operation σ Unit := do
  let result ← outcome (tryRestore (Text.trim id))
  update fun r => { r with config := r.config.clearTrigger }
  ofReply result

end PoolKeeper.Service
