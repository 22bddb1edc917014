import PoolKeeper.Service.Basic
import PoolKeeper.Tools.Engine
import PoolKeeper.Tools.Pool

/-!
# `PoolKeeper/Tools/Host.lean` — calls answered by programs

On a real host each call of the service is a command line, or a look at the settings or the clock.
Nothing is tried twice, and what a program wrote matters only where the call asks for something.
-/

set_option autoImplicit false

namespace PoolKeeper.Tools

/-- Whoever runs programs: a program ends in some way, or cannot be started, for which the cause is
given. -/
abbrev Runner (σ : Type) : Type := Invocation → World σ → Except String Finish × World σ

variable {σ : Type}

def capture (run : Runner σ) (i : Invocation) (w : World σ) : Except CommandFailure String × World σ :=
  let (started, w) := run i w
  (i.judge started, w)

/-- Runs a program for whether it succeeds. -/
def quiet (run : Runner σ) (i : Invocation) (w : World σ) : Bool × World σ :=
  let (result, w) := capture run i w
  (result matches .ok _, w)

/-- Runs a program for what it writes, and says by `fault` why it failed. -/
def faulting (run : Runner σ) (i : Invocation) (fault : String → Fault) (w : World σ) :
    Except Fault String × World σ :=
  let (result, w) := capture run i w
  (result.mapError fun f => fault f.message, w)

/-- Runs a program for its effect, and says by `fault` why it failed. -/
def effect (run : Runner σ) (i : Invocation) (fault : String → Fault) (w : World σ) :
    Except Fault Unit × World σ :=
  let (result, w) := faulting run i fault w
  (result.map fun _ => (), w)

/-- Makes a repository, or connects to one; neither goes without a password. -/
def repository (run : Runner σ) (engine : List String → Invocation) (verb : String) (store : Store)
    (password : String) (w : World σ) : Except Fault Unit × World σ :=
  if password = "" then
    (.error (Fault.badConfig ("repository_password is required for repository " ++ verb)), w)
  else
    match store with
    | .s3 s =>
      effect run (engine (Engine.repositoryArguments verb s password))
        (Engine.fault (verb ++ " repository")) w

def unit (run : Runner σ) (verb : String) (d : Dependent) (w : World σ) :
    Except Fault Unit × World σ :=
  effect run ⟨"systemctl", [verb, d.name], none⟩
    (fun cause => ⟨.restoreStep, verb ++ " " ++ d.text ++ ": " ++ cause⟩) w

/-- Answers calls by running programs. -/
def host (settings : Settings) (clock : World σ → Instant × World σ) (run : Runner σ) : Host σ :=
  let engine (arguments : List String) : Invocation :=
    ⟨settings.engineBinary, arguments, some settings.cacheDir⟩
  let zfs (arguments : List String) : Invocation := ⟨"zfs", arguments, none⟩
  fun c w => match c with
  | .now => clock w
  | .poolExists pool => quiet run ⟨"zpool", PoolTool.poolArguments pool, none⟩ w
  | .datasetExists name => quiet run (zfs (PoolTool.datasetArguments name)) w
  | .createDataset pool name properties =>
    let dataset := pool ++ "/" ++ name
    effect run (zfs (PoolTool.createArguments dataset properties))
      (PoolTool.fault ("create dataset " ++ dataset)) w
  | .mountpoint pool =>
    let (result, w) := faulting run (zfs (PoolTool.mountpointArguments pool))
      (PoolTool.fault ("get mountpoint of " ++ pool)) w
    (result.map (PoolTool.effectiveMountpoint pool), w)
  | .snapshot name => effect run (zfs ["snapshot", name]) (PoolTool.fault ("create " ++ name)) w
  | .destroy name =>
    -- A name without the mark is a dataset, with everything that is in it.
    if !name.toList.contains '@' then
      (.error ⟨.snapshot, "refusing to destroy " ++ name ++ ": not a snapshot"⟩, w)
    else effect run (zfs ["destroy", name]) (PoolTool.fault ("destroy " ++ name)) w
  | .engineAvailable => quiet run ⟨settings.engineBinary, ["--version"], none⟩ w
  | .connect store password => repository run engine "connect" store password w
  | .create store password => repository run engine "create" store password w
  | .upload path description =>
    effect run (engine (Engine.uploadArguments path description)) (Engine.fault "create snapshot") w
  | .listSnapshots =>
    let (result, w) := faulting run (engine Engine.listArguments) (Engine.fault "list snapshots") w
    (result.bind Engine.readList, w)
  | .expire policy =>
    effect run (engine (Engine.expireArguments policy)) (Engine.fault "apply retention policy") w
  | .fetch snapshot target =>
    effect run (engine (Engine.fetchArguments snapshot target)) (Engine.fault "restore snapshot") w
  | .mirror source target excluded =>
    effect run ⟨"rsync", MirrorTool.arguments source target excluded, none⟩
      (fun cause => ⟨.restoreStep, "failed to apply restored data: " ++ cause⟩) w
  | .services => (settings.services.map (Dependent.mk .service), w)
  | .applications => (settings.applications.map (Dependent.mk .application), w)
  | .shouldStart d => quiet run ⟨"systemctl", ["is-enabled", "--quiet", d.name], none⟩ w
  | .start d => unit run "start" d w
  | .stop d => unit run "stop" d w

def machineClock (w : World σ) : Instant × World σ :=
  let nanos := w.machine.clock
  (⟨nanos / nanosPerSecond, nanos % nanosPerSecond⟩,
    -- Each reading is later than the one before.
    { w with machine := { w.machine with clock := nanos + 1 } })

end PoolKeeper.Tools
