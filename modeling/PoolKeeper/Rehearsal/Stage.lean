import PoolKeeper.Rehearsal.Scene
import PoolKeeper.Rehearsal.Workshop
import PoolKeeper.Text.Quoted
import PoolKeeper.Tools.Host

/-!
# `PoolKeeper/Rehearsal/Stage.lean` — a stage for one service

On a stage every call of a service is answered by a stand-in that keeps what it is told: a pool with
datasets and snapshots, an engine with a list, units, and a clock that is set by hand. Calls that
change something are noted, together with the state file as it is at that moment. A script can make
the next calls of a sort fail, and can have further steps done in the middle of a call, whose own calls
may be interrupted in turn; `maxDepth` bounds that.

A stage can also be set for the tools themselves: then a workshop answers command lines, and those are
what is noted.
-/

set_option autoImplicit false

namespace PoolKeeper.Rehearsal

open Text

/-- Calls of a sort fail, so many times if that is given. -/
structure Mishap where
  /-- How the calls that fail start. -/
  opening : String
  fault : Fault
  times : Option Nat := none

/-- A change of the stand-ins; what is missing stays as it is. -/
structure Change where
  now : Option Instant := none
  clockStep : Option Int := none
  poolMissing : Option Bool := none
  noViews : Option Bool := none
  mount : Option String := none
  snapshots : Option (List String) := none
  datasets : Option (List String) := none
  listed : Option (List Snapshot) := none
  services : Option (List String) := none
  applications : Option (List String) := none
  disabled : Option (List String) := none
  restoredFiles : Option (List String) := none
  mishaps : Option (List Mishap) := none

/-- In the middle of the calls of a sort, so many times if that is given, steps are done. -/
structure Interruption (β : Type) where
  /-- How the calls that are interrupted start. -/
  opening : String
  steps : List β
  times : Option Nat := none

inductive Step where
  | ask (t : Task)
  /-- A new process takes over; what the old one is doing goes on. -/
  | reopen
  /-- The schedule is looked at until the clock was read so many times. -/
  | poll (readings : Nat)
  /-- The requests are looked at by a process that was asked to end. -/
  | serveStopped
  | snapshots
  | stage (path : String)
  | write (path : String) (bytes : ByteArray)
  | makeDirectory (path : String)
  | remove (path : String)
  | list (path : String)
  | wait (seconds : Int)
  | mishap (m : Mishap)
  | heal
  | interrupt (i : Interruption Step)
  /-- A change of the stand-ins, and of the interruptions if they are given. -/
  | change (c : Change) (interruptions : Option (List (Interruption Step)))

inductive Note where
  /-- A call, with the status in the state file at that moment. -/
  | call (text : String) (status : Option Status)
  /-- What came of a step in the middle of a call. -/
  | nested (a : Answer)
  | ran (i : Invocation)

/-- The stand-ins on a stage. -/
structure Stage where
  now : Instant := ⟨1772330400, 0⟩
  /-- How far the clock goes on after each reading, in seconds. -/
  clockStep : Int := 0
  /-- How many times the clock was read. -/
  readings : Nat := 0
  poolMissing : Bool := false
  /-- Whether snapshots have no view. -/
  noViews : Bool := false
  mount : String := "local"
  snapshots : List String := []
  datasets : List String := []
  /-- What the engine lists. -/
  listed : List Snapshot := []
  services : List String := []
  applications : List String := []
  /-- The units that would not start. -/
  disabled : List String := []
  /-- The files that a restore brings. -/
  restoredFiles : List String := ["restored.txt"]
  mishaps : List Mishap := []
  interruptions : List (Interruption Step) := []
  /-- The service that steps are for. -/
  current : Nat := 0
  workshop : Workshop := {}
  /-- What happened, the latest first. -/
  notes : List Note := []

namespace Stage

def bracketed (items : List String) : String :=
  "[" ++ String.intercalate ", " (items.map quoted) ++ "]"

/-- What a call of the engine says about a store. -/
def storeText : Store → String
  | .s3 s => s.endpoint ++ "/" ++ s.bucket

/-- The stand-ins after a change, and perhaps with other interruptions. -/
def apply (s : Stage) (c : Change) (interruptions : Option (List (Interruption Step))) : Stage :=
  { s with
    interruptions := interruptions.getD s.interruptions
    now := c.now.getD s.now
    clockStep := c.clockStep.getD s.clockStep
    poolMissing := c.poolMissing.getD s.poolMissing
    noViews := c.noViews.getD s.noViews
    mount := c.mount.getD s.mount
    snapshots := c.snapshots.getD s.snapshots
    datasets := c.datasets.getD s.datasets
    listed := c.listed.getD s.listed
    services := c.services.getD s.services
    applications := c.applications.getD s.applications
    disabled := c.disabled.getD s.disabled
    restoredFiles := c.restoredFiles.getD s.restoredFiles
    mishaps := c.mishaps.getD s.mishaps }

def isLeft (times : Option Nat) : Bool := times.all (0 < ·)

/-- The first of several things that is for the call and can be used once more, and all of them after
it was used. -/
def useFirst {β : Type} (opening : β → String) (times : β → Option Nat) (used : β → β)
    (text : String) : List β → Option (β × List β)
  | [] => none
  | b :: bs =>
    if isLeft (times b) && text.startsWith (opening b) then some (b, used b :: bs)
    else (useFirst opening times used text bs).map fun (found, bs) => (found, b :: bs)

def nextInterruption? (s : Stage) (text : String) : Option (List Step × Stage) :=
  (useFirst Interruption.opening Interruption.times (fun i => { i with times := i.times.map (· - 1) })
    text s.interruptions).map fun (i, is) => (i.steps, { s with interruptions := is })

def nextMishap? (s : Stage) (text : String) : Option (Fault × Stage) :=
  (useFirst Mishap.opening Mishap.times (fun m => { m with times := m.times.map (· - 1) })
    text s.mishaps).map fun (m, ms) => (m.fault, { s with mishaps := ms })

variable {α : Type}

def note (w : Play Stage) (n : Note) : Play Stage :=
  w.setProps fun s => { s with notes := n :: s.notes }

/-- A call that is noted. Its interruption comes first, then it may fail; else it is answered. -/
def noted (settings : Settings) (interrupt : List Step → Play Stage → Play Stage) (text : String)
    (answer : Play Stage → Except Fault α × Play Stage) (w : Play Stage) :
    Except Fault α × Play Stage :=
  -- The file as it is when the call begins, before anybody interrupts it.
  let saved := (Record.saved? settings.statePath w.machine).map Record.status
  let w := note w (.call text saved)
  let w := match w.props.nextInterruption? text with
    | none => w
    | some (steps, s) => interrupt steps (w.setProps fun _ => s)
  match w.props.nextMishap? text with
  | some (f, s) => (.error f, w.setProps fun _ => s)
  | none => answer w

def viewOf? (s : Stage) (fullName : String) : Option String :=
  match fullName.toList.dropWhile (· != '@') with
  | _ :: name => some (PoolSnapshot.viewPath s.mount (String.ofList name))
  | [] => none

def makeView (s : Stage) (fullName : String) : Files Unit :=
  match s.viewOf? fullName with
  | some path => if s.noViews then pure () else Files.makeDirectories path
  | none => pure ()

def bringFiles (target : String) : List String → Files Unit
  | [] => pure ()
  | name :: names => do
    Files.write (Path.join target name) name.toUTF8
    bringFiles target names

def asFault (result : Except OsError Unit) : Except Fault Unit :=
  result.mapError fun e => ⟨.system, e.message⟩

def readClock (w : Play Stage) : Instant × Play Stage :=
  (w.props.now, w.setProps fun s =>
    { s with now := s.now.plusSeconds s.clockStep, readings := s.readings + 1 })

def standIns (settings : Settings) (interrupt : List Step → Play Stage → Play Stage) :
    Host (Scene Stage) := fun c w =>
  let fine (w : Play Stage) : Except Fault Unit × Play Stage := (.ok (), w)
  let act (text : String) : (Play Stage → Except Fault Unit × Play Stage) →
      Except Fault Unit × Play Stage := fun answer => noted settings interrupt text answer w
  match c with
  | .now => readClock w
  | .poolExists _ => (!w.props.poolMissing, w)
  | .datasetExists name => ((w.props.datasets ++ w.props.snapshots).contains name, w)
  | .createDataset pool name properties =>
    let full := pool ++ "/" ++ name
    act (String.intercalate " " ("pool create" :: full :: properties.map fun (k, v) => k ++ "=" ++ v))
      fun w => fine (w.setProps fun s => { s with datasets := full :: s.datasets })
  | .mountpoint pool =>
    noted settings interrupt ("pool mountpoint " ++ pool) (fun w => (.ok w.props.mount, w)) w
  | .snapshot name =>
    act ("pool snapshot " ++ name) fun w =>
      match w.onMachine (makeView w.props name).run with
      | (.ok (), w) => fine (w.setProps fun s => { s with snapshots := s.snapshots ++ [name] })
      | (.error e, w) => (asFault (.error e), w)
  | .destroy name =>
    act ("pool destroy " ++ name) fun w =>
      let w := match w.props.viewOf? name with
        | some path => (w.onMachine (Files.removeTree path).run).2
        | none => w
      fine (w.setProps fun s => { s with snapshots := s.snapshots.filter (· ≠ name) })
  | .engineAvailable => (true, w)
  | .connect store password => act ("engine connect " ++ storeText store ++ " " ++ password) fine
  | .create store password => act ("engine create " ++ storeText store ++ " " ++ password) fine
  | .upload path description => act ("engine snapshot " ++ path ++ " " ++ description) fine
  | .listSnapshots => noted settings interrupt "engine list" (fun w => (.ok w.props.listed, w)) w
  | .expire policy => act (String.intercalate " " ("engine expire" :: policy.arguments)) fine
  | .fetch snapshot target =>
    let (names, _) := w.onMachine (namesIn target)
    act ("engine restore " ++ snapshot ++ " " ++ target ++ " " ++ bracketed names) fun w =>
      let (result, w) := w.onMachine (bringFiles target w.props.restoredFiles).run
      (asFault result, w)
  | .mirror source target excluded =>
    let (names, _) := w.onMachine (namesIn source)
    act ("mirror " ++ source ++ " " ++ target ++ " " ++ bracketed excluded ++ " "
      ++ bracketed names) fine
  | .services => (w.props.services.map (Dependent.mk .service), w)
  | .applications => (w.props.applications.map (Dependent.mk .application), w)
  | .shouldStart d => (!w.props.disabled.contains d.name, w)
  | .start d => act ("start " ++ d.text) fine
  | .stop d => act ("stop " ++ d.text) fine

def runTool (i : Invocation) (w : Play Stage) : Except String Finish × Play Stage :=
  let before := w.props.workshop.ran.length
  let (started, workshop, machine) := w.props.workshop.run i w.machine
  let w := { w.setProps fun s => { s with workshop } with machine }
  -- A program that could not be started is no command line that ran.
  (started, if workshop.ran.length = before then w else note w (.ran i))

/-- The service takes the record over anew. -/
def reopen (settings : Settings) (w : Play Stage) : Answer × Play Stage :=
  match w.onMachine (Service.openRecord settings.statePath).run with
  | (.error f, w) => (.outcome (.error f), w)
  | (.ok r, w) =>
    let number := w.host.waiting.length + 1
    (.outcome (.ok ()), (w.enter number r).setProps fun s => { s with current := number })

def tryStaging (path : String) : StateM Machine Answer := do
  match ← (Service.makeStaging path).run with
  | .error f => return .staged (.error f)
  | .ok () =>
    let names ← namesIn path
    Service.dropStaging path
    return .staged (.ok (path, names, ← listing path))

/-- Writes a file with the directories that lead to it. -/
def plant (path : String) (bytes : ByteArray) : Files Unit := do
  match Path.parent? path with
  | some parent => Files.makeDirectories parent
  | none => pure ()
  Files.write path bytes

def uproot (path : String) : Files Unit := do
  match ← (Files.removeFile path).outcome with
  | .ok _ => pure ()
  | .error _ => Files.removeTree path

/-- A step, while the service that it is for acts. -/
def perform (ctx : Context (Scene Stage)) (step : Step) (w : Play Stage) : Answer × Play Stage :=
  let asked (op : Operation (Scene Stage) Unit) : Answer × Play Stage := (.done, (op.runIn ctx w).2)
  let files (step : Files Unit) : Answer × Play Stage := (.done, (w.onMachine step.run).2)
  let change (f : Stage → Stage) : Answer × Play Stage := (.done, w.setProps f)
  match step with
  | .ask t => w.ask ctx t
  | .reopen => reopen ctx.settings w
  | .poll readings =>
    let last := w.props.readings + readings
    asked (Service.poll (do return last ≤ (← get).props.readings) (readings + 1))
  | .serveStopped => asked (Service.serve (pure true) ctx.settings.spoolDir 1)
  | .snapshots => (.names w.props.snapshots, w)
  | .stage path => w.onMachine (tryStaging path)
  | .write path bytes => files (plant path bytes)
  | .makeDirectory path => files (Files.makeDirectories path)
  | .remove path => files (uproot path)
  | .list path =>
    let (l, w) := w.onMachine (listing path)
    (.listing l, w)
  | .wait seconds => change fun s => { s with now := s.now.plusSeconds seconds }
  | .mishap m => change fun s => { s with mishaps := s.mishaps ++ [m] }
  | .heal => change fun s => { s with mishaps := [] }
  | .interrupt i => change fun s => { s with interruptions := s.interruptions ++ [i] }
  | .change c interruptions => change (·.apply c interruptions)

/-- A step for the current service. -/
def takeStep (ctx : Context (Scene Stage)) (step : Step) (w : Play Stage) : Answer × Play Stage :=
  w.as w.props.current (perform ctx step)

/-- Steps in the middle of a call. -/
def interrupt (ctx : Context (Scene Stage)) : List Step → Play Stage → Play Stage
  | [], w => w
  | step :: steps, w =>
    let (a, w) := takeStep ctx step w
    interrupt ctx steps (note w (.nested a))

def maxDepth : Nat := 100

/-- The host on a stage, with interruptions of interruptions up to the depth. -/
def host (settings : Settings) : (depth : Nat) → Host (Scene Stage)
  | 0 => standIns settings fun _ w => w
  | depth + 1 => standIns settings (interrupt ⟨settings, host settings depth⟩)

/-- What services on the stage are given; `tools` sets it for the tools. -/
def context (settings : Settings) (tools : Bool) : Context (Scene Stage) :=
  ⟨settings, if tools then Tools.host settings readClock runTool else host settings maxDepth⟩

/-- The stage at the start of a script: the service has the record, or takes it over. -/
def opening (settings : Settings) (s : Stage) (machine : Machine) (r : Option Record) : Play Stage :=
  let (found, machine) := (Service.openRecord settings.statePath).run machine
  let record := r.getD (match found with | .ok r => r | .error _ => {})
  { record, machine, host := { props := s } }

end Stage

end PoolKeeper.Rehearsal
