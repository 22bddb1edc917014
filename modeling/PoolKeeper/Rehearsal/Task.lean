import PoolKeeper.Service.Control

/-!
# `PoolKeeper/Rehearsal/Task.lean` — what a rehearsal asks of a service

A `Task` is one thing that can be asked of a service or of the parts it is made of, and an `Answer` is
what came of it. A task never fails: a fault is one of its answers.
-/

set_option autoImplicit false

namespace PoolKeeper.Rehearsal

open Service

inductive Task where
  | update (config : Config)
  | backup
  | restore (snapshot : String)
  | start
  | stop
  | ensureConnected
  | request (r : Request)
  /-- A request goes into the spool. -/
  | submit (r : Request)
  | applyPending
  | tick
  | get
  | shouldStart
  | supported
  | retention (policy : Retention)
  /-- The record as a new process would find it. -/
  | load
  | takeSnapshot (pool : String) (purpose : Purpose) (now : Instant)
  | viewSnapshot (s : PoolSnapshot)
  | destroySnapshot (s : PoolSnapshot)
  /-- Whether there are a pool and a dataset of that name. -/
  | look (name : String)

inductive Listing where
  | nothing
  | file
  | names (names : List String)

/-- What came of a task or of another step of a rehearsal. -/
inductive Answer where
  | done
  | flag (value : Bool)
  | outcome (result : Except Fault Unit)
  | flagOutcome (result : Except Fault Bool)
  | textOutcome (result : Except Fault String)
  | decision (result : Except Fault Decision)
  | outcomes (result : Except Fault (List (Except Fault Unit)))
  | record (r : Record)
  | loaded (result : Except Fault Record)
  | seen (pool dataset : Bool)
  | names (names : List String)
  | listing (l : Listing)
  /-- A staging directory: its path, what was in it, and what was left of it. -/
  | staged (result : Except Fault (String × List String × Listing))
  /-- Whether the slot was claimed. -/
  | claimed (value : Bool)
  /-- What became of an operation of another service, and how that service was left. -/
  | elsewhere (result : Except Fault Unit) (status : Status)

def listing (path : String) : StateM Machine Listing := do
  match ← (Files.found? path).run with
  | .ok (some (_, .directory _)) =>
    match ← (Files.list path).run with
    | .ok names => return .names names
    | .error _ => return .nothing
  | .ok (some _) => return .file
  | _ => return .nothing

/-- The names in the directory at the path; none, if it is no directory. -/
def namesIn (path : String) : StateM Machine (List String) := do
  match ← (Files.list path).run with
  | .ok names => return names
  | .error _ => return []

variable {σ : Type}

def Task.run (t : Task) : Operation σ Answer := do
  let s ← Operation.settings
  match t with
  | .update config => return .outcome (← Operation.outcome (Service.update config))
  | .backup => return .outcome (← Operation.outcome Service.backup)
  | .restore snapshot => return .outcome (← Operation.outcome (Service.restore snapshot))
  | .start => return .outcome (← Operation.outcome Service.start)
  | .stop => return .outcome (← Operation.outcome Service.stop)
  | .ensureConnected => return .outcome (← Operation.outcome Service.ensureConnected)
  | .request r => return .outcome (← Operation.outcome (apply r))
  | .submit r =>
    let result ← Operation.outcome (Operation.onFiles (Spool.submit s.spoolDir r))
    return .outcome (result.map fun _ => ())
  | .applyPending => return .outcomes (← Operation.outcome (Service.applyPending s.spoolDir))
  | .tick => return .decision (← Operation.outcome Service.tick)
  | .get => return .record (← Service.get)
  | .shouldStart => return .flag (← Service.shouldStart)
  | .supported => return .flag (← Service.supported)
  | .retention policy => return .flagOutcome (← Operation.outcome (applyRetention policy))
  | .load => return .loaded (← Operation.outcome (Operation.onFiles (Record.load s.statePath)))
  | .takeSnapshot pool purpose now =>
    let result ← Operation.outcome (PoolSnapshot.take pool purpose now)
    return .textOutcome (result.map PoolSnapshot.fullName)
  | .viewSnapshot snapshot => return .textOutcome (← Operation.outcome snapshot.view)
  | .destroySnapshot snapshot => return .outcome (← Operation.call (.destroy snapshot.fullName))
  | .look name =>
    let pool ← Operation.call (.poolExists name)
    return .seen pool (← Operation.call (.datasetExists name))

end PoolKeeper.Rehearsal
