import PoolKeeper.Config.Backend
import PoolKeeper.Config.Retention
import PoolKeeper.Fault
import PoolKeeper.Record.Basic

/-!
# `PoolKeeper/Service/Call.lean` — what the service asks of the world

The service touches nothing outside its record and its files by itself. It asks: the clock, the pool,
the backup engine, the tool that mirrors directories, and the registry of units. A `Call` is one such
question as data, and `Call.Reply` is the type of its answer; an `Event` is a call together with the
answer it got, or a change of the record. What a run of the service did is a list of events.
-/

set_option autoImplicit false

namespace PoolKeeper

inductive UnitKind where
  | service
  | application
deriving DecidableEq, Repr

/-- A unit that uses the pool and is stopped while the pool is rewritten. -/
structure Dependent where
  kind : UnitKind
  name : String
deriving DecidableEq, Repr

namespace Dependent

def kindText : UnitKind → String
  | .service => "service"
  | .application => "application"

def text (d : Dependent) : String := kindText d.kind ++ " " ++ d.name

end Dependent

inductive Call where
  /-- What time is it? -/
  | now
  | poolExists (pool : String)
  /-- Is there a dataset or a snapshot with the full name? -/
  | datasetExists (name : String)
  | createDataset (pool name : String) (properties : List (String × String))
  /-- Where is the pool mounted? -/
  | mountpoint (pool : String)
  | snapshot (fullName : String)
  | destroy (fullName : String)
  /-- Can the engine be started at all? -/
  | engineAvailable
  | connect (store : Store) (password : String)
  /-- Make a new repository. -/
  | create (store : Store) (password : String)
  | upload (path description : String)
  | listSnapshots
  | expire (policy : Retention)
  /-- Fetch a snapshot of the repository into a directory. -/
  | fetch (snapshot target : String)
  /-- Make a directory equal to another one, up to the excluded names. -/
  | mirror (source target : String) (excluded : List String)
  /-- The services, in the order they start in. -/
  | services
  /-- The applications, in the order they start in. -/
  | applications
  | shouldStart (d : Dependent)
  | start (d : Dependent)
  | stop (d : Dependent)
deriving DecidableEq

abbrev Call.Reply : Call → Type
  | now => Instant
  | poolExists _ | datasetExists _ | shouldStart _ | engineAvailable => Bool
  | mountpoint _ => Except Fault String
  | listSnapshots => Except Fault (List Snapshot)
  | services | applications => List Dependent
  | createDataset .. | snapshot _ | destroy _ | connect .. | create .. | upload .. | expire _
  | fetch .. | mirror .. | start _ | stop _ => Except Fault Unit

/-- Something that happened in a run of the service. -/
inductive Event where
  | called (c : Call) (reply : c.Reply)
  /-- The record changed to `r`, and was saved or could not be. -/
  | updated (r : Record) (saved : Bool)

end PoolKeeper
