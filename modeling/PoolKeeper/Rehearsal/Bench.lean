import PoolKeeper.Rehearsal.Scene

/-!
# `PoolKeeper/Rehearsal/Bench.lean` — a service on a test bench

A bench is a plainer set of stand-ins than a stage: it keeps a journal with a short line for each call,
fails whole sorts of calls once it is told to, and can have a second service beside the first one. It
lives in one directory, which holds the pool, the state file and the spool.
-/

set_option autoImplicit false

namespace PoolKeeper.Rehearsal

inductive BenchStep where
  | ask (t : Task)
  /-- The record as a new process would find it. -/
  | reload
  /-- A second service takes the record over. -/
  | reopen
  /-- An order for a restore gets into the record. -/
  | seed (snapshot : String)
  /-- The slot is claimed, and kept until `release`. -/
  | claim (status : String)
  | advance (progress : UInt8) (status : String)
  | release
  | failEngine (call : String)
  | failConnects (count : Nat)
  | list (snapshot : String)
  | descriptions
  | engineCalls
  | calls
  | failPool (call : String)
  | failSnapshots (opening : String)
  | setPool (present : Bool)
  | setViews (made : Bool)
  | snapshots
  | failMirror
  | addService (name : String)
  | addApplication (name : String)
  | disable (name : String)
  | failUnit (name : String)
  | wait (minutes : Int)
  | makeDirectory (path : String)
  | isThere (path : String)
  /-- A file is put where the spool belongs. -/
  | blockSpool
  /-- The schedule is looked at by a process that was asked to end. -/
  | pollStopped
  /-- The requests are looked at once. -/
  | serveOnce
  /-- A further service is asked for a restore or a backup, and somebody else claims its slot while it
  looks for the pool. -/
  | race (restored : Option String)

/-- The stand-ins on a bench. -/
structure Bench where
  /-- The directory that it lives in. -/
  directory : String
  now : Instant := ⟨1772330400, 0⟩
  engineFailing : List String := []
  /-- How many connects will fail. -/
  failingConnects : Nat := 0
  listed : List Snapshot := []
  descriptions : List String := []
  poolPresent : Bool := true
  makesViews : Bool := true
  snapshots : List String := []
  datasets : List String := []
  poolFailing : List String := []
  failingOpenings : List String := []
  mirrorFailing : Bool := false
  services : List String := []
  applications : List String := []
  disabled : List String := []
  failingUnits : List String := []
  /-- The service that holds its slot. -/
  holder : Option Nat := none
  /-- The second service. -/
  second : Option Nat := none
  /-- The calls, the latest first. -/
  journal : List String := []

namespace Bench

/-- A configuration that a session can be opened with. -/
def connectedConfig : Config :=
  { enabled := true
    password := "correct horse"
    backend := { kind := "s3", s3 := some {
      endpoint := "s3.example.net", bucket := "vault", accessKey := "AKIA", secretKey := "shh" } }
    retention := { keepDaily := some 7 } }

def mount (b : Bench) : String := Path.join b.directory "local"

/-- The settings of a service on the bench. -/
def settings (directory : String) (windows : List Window) : Settings :=
  { statePath := Path.join directory "state.yaml"
    cacheDir := Path.join directory "cache"
    spoolDir := Path.join directory "requests"
    windows }

def viewOf? (b : Bench) (fullName : String) : Option String :=
  match fullName.toList.dropWhile (· != '@') with
  | _ :: name => some (PoolSnapshot.viewPath b.mount (String.ofList name))
  | [] => none

def note (w : Play Bench) (line : String) : Play Bench :=
  w.setProps fun b => { b with journal := line :: b.journal }

def engine (w : Play Bench) (name line : String) : Except Fault Unit × Play Bench :=
  let w := note w line
  (if w.props.engineFailing.contains name then .error ⟨.engine, "injected " ++ name ++ " failure"⟩
    else .ok (), w)

/-- A call of the engine, and what it does if it does not fail. -/
def engineThen {α : Type} (w : Play Bench) (name line : String)
    (act : Play Bench → Except Fault α × Play Bench) : Except Fault α × Play Bench :=
  match engine w name line with
  | (.error f, w) => (.error f, w)
  | (.ok (), w) => act w

def unit (w : Play Bench) (verb : String) (d : Dependent) : Except Fault Unit × Play Bench :=
  let w := note w (verb ++ " " ++ d.text)
  (if w.props.failingUnits.contains d.name then
      .error ⟨.restoreStep, "injected " ++ verb ++ " failure"⟩
    else .ok (), w)

def asFault (result : Except OsError Unit) : Except Fault Unit :=
  result.mapError fun e => ⟨.system, e.message⟩

def takeSnapshot (w : Play Bench) (name : String) : Except Fault Unit × Play Bench :=
  if w.props.failingOpenings.any fun o => name.startsWith o then
    (.error ⟨.snapshot, "injected snapshot failure for " ++ name⟩, w)
  else
    let w := note w ("zfs snapshot " ++ name)
    let made : Files Unit := match w.props.viewOf? name with
      | some path => if w.props.makesViews then Files.makeDirectories path else pure ()
      | none => pure ()
    match w.onMachine made.run with
    | (.ok (), w) => (.ok (), w.setProps fun b => { b with snapshots := b.snapshots ++ [name] })
    | (.error e, w) => (asFault (.error e), w)

def destroySnapshot (w : Play Bench) (name : String) : Except Fault Unit × Play Bench :=
  let w := note w ("zfs destroy " ++ name)
  if w.props.poolFailing.contains "destroy" then
    (.error ⟨.snapshot, "injected destroy failure for " ++ name⟩, w)
  else
    let w := w.setProps fun b => { b with snapshots := b.snapshots.filter (· ≠ name) }
    match w.props.viewOf? name with
    | some path => (.ok (), (w.onMachine (Files.removeTree path).run).2)
    | none => (.ok (), w)

def host : Host (Scene Bench) := fun c w =>
  let fine (w : Play Bench) : Except Fault Unit × Play Bench := (.ok (), w)
  match c with
  | .now => (w.props.now, w)
  | .poolExists _ => (w.props.poolPresent, w)
  | .datasetExists name => ((w.props.datasets ++ w.props.snapshots).contains name, w)
  | .createDataset pool name _ =>
    let full := pool ++ "/" ++ name
    let w := note w ("zfs create " ++ full)
    if w.props.poolFailing.contains "create" then
      (.error ⟨.snapshot, "injected create failure for " ++ full⟩, w)
    else fine (w.setProps fun b => { b with datasets := full :: b.datasets })
  | .mountpoint _ => (.ok w.props.mount, w)
  | .snapshot name => takeSnapshot w name
  | .destroy name => destroySnapshot w name
  | .engineAvailable => (true, w)
  | .connect _ _ =>
    engineThen w "connect" "kopia connect" fun w =>
      if w.props.failingConnects = 0 then fine w
      else (.error ⟨.engine, "injected connect failure"⟩,
        w.setProps fun b => { b with failingConnects := b.failingConnects - 1 })
  | .create _ _ => engine w "create-repo" "kopia create-repo"
  | .upload _ description =>
    engineThen w "snapshot create" "kopia snapshot create" fun w =>
      fine (w.setProps fun b => { b with descriptions := b.descriptions ++ [description] })
  | .listSnapshots => engineThen w "list" "kopia list" fun w => (.ok w.props.listed, w)
  | .expire policy =>
    engine w "expire" ("kopia expire " ++ String.intercalate " " policy.arguments)
  | .fetch snapshot target =>
    engineThen w "restore" ("kopia restore " ++ snapshot) fun w =>
      let (result, w) :=
        w.onMachine (Files.write (Path.join target "restored.txt") snapshot.toUTF8).run
      (asFault result, w)
  | .mirror source _ _ =>
    let w := note w ("mirror " ++ (Path.fileName? source).getD "")
    (if w.props.mirrorFailing then .error ⟨.restoreStep, "injected mirror failure"⟩ else .ok (), w)
  | .services => (w.props.services.map (Dependent.mk .service), w)
  | .applications => (w.props.applications.map (Dependent.mk .application), w)
  | .shouldStart d => (!w.props.disabled.contains d.name, w)
  | .start d => unit w "start" d
  | .stop d => unit w "stop" d

/-- The status of a slot that somebody else claimed. -/
def otherTrigger : String := "Claimed by another trigger"

/-- The host of a service whose slot somebody else claims while it looks for the pool. -/
def racingHost (settings : Settings) : Host (Scene Bench)
  | .poolExists pool, w =>
    -- By then the service has seen that nobody has the slot.
    let (_, w) := (Operation.claim otherTrigger).runIn ⟨settings, host⟩ w
    host (.poolExists pool) w
  | c, w => host c w

/-- A further service with the record is asked, and loses its slot. -/
def race (settings : Settings) (restored : Option String) (w : Play Bench) : Answer × Play Bench :=
  let settings := { settings with statePath := settings.statePath ++ ".raced" }
  let ctx : Context (Scene Bench) := ⟨settings, racingHost settings⟩
  let act : Operation (Scene Bench) Unit := match restored with
    | some snapshot => Service.restore snapshot
    | none => Service.backup
  let before := w.host.acting
  let w := w.enter (w.host.waiting.length + 1) w.record
  let (result, w) := act.runIn ctx w
  (.elsewhere result w.record.status, w.switch before)

/-- A snapshot as a bench's engine lists it. -/
def listedSnapshot (id : String) : Snapshot :=
  { id, time := ⟨1772244000, 0⟩, size := 4096
    source := "/local/.zfs/snapshot/kopia-20260228-020000" }

/-- A step, while the service that it is for acts. -/
def perform (ctx : Context (Scene Bench)) (step : BenchStep) (w : Play Bench) :
    Answer × Play Bench :=
  let asked (op : Operation (Scene Bench) Unit) (w : Play Bench) : Play Bench := (op.runIn ctx w).2
  let change (f : Bench → Bench) : Answer × Play Bench := (.done, w.setProps f)
  let files (step : Files Unit) : Answer × Play Bench :=
    let (result, w) := w.onMachine step.run
    (.flag (result matches .ok _), w)
  match step with
  | .ask t => w.ask ctx t
  | .reload =>
    match w.onMachine (Record.load ctx.settings.statePath).run with
    | (.ok r, w) => (.record r, w)
    | (.error f, w) => (.outcome (.error f), w)
  | .reopen =>
    match w.onMachine (Service.openRecord ctx.settings.statePath).run with
    | (.error f, w) => (.outcome (.error f), w)
    | (.ok r, w) =>
      let number := w.host.waiting.length + 1
      let first := w.props.second.isNone
      let before := w.host.acting
      (.flag first, ((w.enter number r).switch before).setProps fun b =>
        { b with second := some number })
  | .seed snapshot =>
    (.done, asked (Operation.update fun r =>
      { r with config := { r.config with restoreTrigger := snapshot } }) w)
  | .claim status =>
    match (Operation.claim status).runIn ctx w with
    | (.ok true, w) => (.claimed true, w.setProps fun b => { b with holder := some w.host.acting })
    | (_, w) => (.claimed false, w)
  | .advance progress status =>
    match w.props.holder with
    | some service => w.as service fun w => (.flag true, asked (Operation.advance progress status) w)
    | none => (.flag false, w)
  | .release =>
    match w.props.holder with
    | some service =>
      (w.setProps fun b => { b with holder := none }).as service fun w =>
        (.flag true, asked (Operation.update Record.release) w)
    | none => (.flag false, w)
  | .failEngine call => change fun b => { b with engineFailing := call :: b.engineFailing }
  | .failConnects count => change fun b => { b with failingConnects := count }
  | .list snapshot => change fun b => { b with listed := b.listed ++ [listedSnapshot snapshot] }
  | .descriptions => (.names w.props.descriptions, w)
  | .engineCalls => (.names (w.props.journal.reverse.filter (·.startsWith "kopia")), w)
  | .calls => (.names w.props.journal.reverse, w)
  | .failPool call => change fun b => { b with poolFailing := call :: b.poolFailing }
  | .failSnapshots opening => change fun b => { b with failingOpenings := opening :: b.failingOpenings }
  | .setPool present => (.flag present, w.setProps fun b => { b with poolPresent := present })
  | .setViews made => change fun b => { b with makesViews := made }
  | .snapshots => (.names w.props.snapshots, w)
  | .failMirror => change fun b => { b with mirrorFailing := true }
  | .addService name => change fun b => { b with services := b.services ++ [name] }
  | .addApplication name => change fun b => { b with applications := b.applications ++ [name] }
  | .disable name => change fun b => { b with disabled := name :: b.disabled }
  | .failUnit name => change fun b => { b with failingUnits := name :: b.failingUnits }
  | .wait minutes => change fun b => { b with now := b.now.plusSeconds (60 * minutes) }
  | .makeDirectory path => files (Files.makeDirectories (Path.join w.props.mount path))
  | .isThere path =>
    let (found, w) := w.onMachine (Files.isThere (Path.join w.props.mount path))
    (.flag found, w)
  | .blockSpool => files (Files.write ctx.settings.spoolDir ByteArray.empty)
  | .pollStopped => (.done, asked (Service.poll (pure true) 1) w)
  | .serveOnce => (.flag true, asked (Service.serve (pure false) ctx.settings.spoolDir 1) w)
  | .race restored => race ctx.settings restored w

/-- A step for the first service, or for the second one, if there is one. -/
def takeStep (ctx : Context (Scene Bench)) (forSecond : Bool) (step : BenchStep) (w : Play Bench) :
    Answer × Play Bench :=
  let service := if forSecond then w.props.second.getD 0 else 0
  w.as service (perform ctx step)

def context (settings : Settings) : Context (Scene Bench) := ⟨settings, host⟩

/-- Snapshots of the pool are taken one after the other. For each there is its full name, and where on
the pool its view is, if it has one. -/
def takeSnapshots (ctx : Context (Scene Bench)) (pool : String) : List (Purpose × Instant) →
    Play Bench → List (Except Fault String × Option String) × Play Bench
  | [], w => ([], w)
  | (purpose, t) :: rest, w =>
    let (taken, w) := (PoolSnapshot.take pool purpose t).runIn ctx w
    let view := match taken with
      | .error _ => none
      | .ok s =>
        let (there, _) :=
          w.onMachine (Files.isThere (PoolSnapshot.viewPath w.props.mount s.name))
        if there then some (PoolSnapshot.viewPath "" s.name) else none
    let (others, w) := takeSnapshots ctx pool rest w
    ((taken.map PoolSnapshot.fullName, view) :: others, w)

/-- A bench with a new service on a machine; `connected` opens a session. -/
def opening (settings : Settings) (directory : String) (connected : Bool) (machine : Machine) :
    Play Bench :=
  let bench : Bench := { directory }
  let (_, machine) := (Files.makeDirectories bench.mount).run.run machine
  let w : Play Bench := { record := {}, machine, host := { props := bench } }
  if connected then ((Service.update connectedConfig).runIn (context settings) w).2 else w

end Bench

end PoolKeeper.Rehearsal
