import PoolKeeper.CommandLine.Arguments
import PoolKeeper.Lock
import PoolKeeper.Record.Report
import PoolKeeper.Service.Control
import PoolKeeper.Settings.File

/-!
# `PoolKeeper/CommandLine/Run.lean` — what each command does

A command ends with a text and a status. Commands that change anything need the lock, so that there is
one owner of the record at a time: whoever finds the lock held by a live process hands a request to
that process instead, and touches neither the record nor any tool. The lock is given back however the
command ends.
-/

set_option autoImplicit false

namespace PoolKeeper.CommandLine

structure Ending where
  output : String
  code : Nat := 0
deriving DecidableEq, Repr

/-- A command ends with a fault that it met on the way to something. -/
def Ending.ofFault (contexts : List String) (f : Fault) : Ending :=
  ⟨f.inContext contexts ++ "\n", f.exitCode⟩

def Ending.line (text : String) : Ending := ⟨text ++ "\n", 0⟩

/-- A part of a command. It goes on with a value, or the command ends. -/
abbrev Program (σ : Type) : Type → Type :=
  ReaderT (Context σ) (ExceptT Ending (StateM (World σ)))

variable {σ : Type} {α : Type}

def operate (contexts : List String) (op : Operation σ α) : Program σ α := fun ctx =>
  ExceptT.mk do return (← op.runIn ctx).mapError (Ending.ofFault contexts)

def onMachine (step : StateM Machine α) : Program σ α := operate [] (Operation.onMachine step)

def onFiles (contexts : List String) (step : FileStep α) : Program σ α :=
  operate contexts (Operation.onFiles step)

def settings : Program σ Settings := do return (← read).settings

def lockPath : Program σ String := do return Lock.path (← settings).statePath

def takeLock : Program σ Bool := do
  let path ← lockPath
  match ← onMachine (Lock.acquire path).run with
  | .ok taken => return taken
  | .error e => throw ⟨Files.refusal "failed to take instance lock" path e ++ "\n", 1⟩

/-- Does one thing with the lock, or another one if a live process holds it. -/
def locked (held busy : Program σ Ending) : Program σ Ending := do
  if ← takeLock then
    -- An ending that was thrown is an ending all the same: the lock is given back first.
    let ending ← tryCatch held pure
    onMachine (Lock.release (← lockPath))
    return ending
  else busy

def openService : Program σ Unit := do
  let r ← onFiles [] (Service.openRecord (← settings).statePath)
  modify fun w => { w with record := r }

/-- Hands a request to the process that holds the lock. -/
def queue (r : Request) : Program σ Ending := do
  let path ← onFiles ["failed to queue " ++ r.kind ++ " request"]
    (Spool.submit (← settings).spoolDir r)
  return ⟨"daemon is running; queued " ++ r.kind ++ " request " ++ path
    ++ "\nrun `poolvault status` to follow it\n", 0⟩

/-- Ends with what the service says it did last. -/
def showLastStatus : Program σ Ending := do
  return .line (← operate [] Service.get).status.lastStatus

/-! ## The commands -/

/-- Shows the record. Only with the lock is the repository asked. -/
def status (refresh : Bool) : Program σ Ending := do
  let fromFile : Program σ Ending := do
    return ⟨(← onFiles [] (Record.load (← settings).statePath)).report, 0⟩
  if !refresh then fromFile
  else locked (do openService; return ⟨(← operate [] Service.get).report, 0⟩) fromFile

def update (file : String) : Program σ Ending := do
  let requested ← onFiles ["cannot use " ++ file] (Config.load file)
  locked (do
      openService
      operate [] (Service.update requested)
      showLastStatus)
    (queue (.update requested))

def backup : Program σ Ending :=
  locked (do
      openService
      operate ["repository connection failed"] Service.start
      operate ["backup failed"] Service.backup
      showLastStatus)
    (queue .backup)

def restore (snapshot : String) : Program σ Ending :=
  locked (do
      openService
      operate ["restore of " ++ snapshot ++ " failed"] (Service.apply (.restore snapshot))
      showLastStatus)
    (queue (.restore snapshot))

def isSignalled : Operation σ Bool := do return (← get).machine.signalled

/-- Looks at the requests and at the schedule until the process is asked to end, at most `rounds`
times. -/
def attend (spool : String) : (rounds : Nat) → Operation σ Unit
  | 0 => return
  | rounds + 1 => do
    Service.serve isSignalled spool 1
    Service.poll isSignalled 1
    if ← isSignalled then return
    attend spool rounds

/-- Runs the service; that its session cannot be opened yet is no reason to end. -/
def daemon (rounds : Nat) : Program σ Ending := do
  locked (do
      openService
      let _ ← operate [] Service.supported
      -- A session that cannot be opened now is tried for at every look.
      let _ ← operate [] (Operation.outcome Service.start)
      operate [] (attend (← settings).spoolDir rounds)
      operate [] Service.stop
      return ⟨"", 0⟩)
    (do return ⟨"another poolvault instance holds " ++ (← lockPath) ++ "\n", 3⟩)

/-- What a command does; a daemon makes at most `rounds` rounds. -/
def Command.run (rounds : Nat) : Command → Program σ Ending
  | .daemon => CommandLine.daemon rounds
  | .status refresh => CommandLine.status refresh
  | .update file => CommandLine.update file
  | .backup => CommandLine.backup
  | .restore snapshot => CommandLine.restore snapshot

/-- The host file that counts when none is named. -/
def hostFile : String := "/etc/poolvault.yaml"

/-- Runs the program on a machine with the host that its settings make. -/
def Arguments.run (host : Settings → Host σ) (rounds : Nat) (a : Arguments) (w : World σ) :
    Ending × World σ :=
  let (loaded, machine) := (Settings.load (a.config.getD hostFile)).run w.machine
  let w := { w with machine }
  match loaded with
  | .error f => (.ofFault [] f, w)
  | .ok settings =>
    let (ending, w) := ((a.command.run rounds) ⟨settings, host settings⟩).run w
    (match ending with | .ok e | .error e => e, w)

end PoolKeeper.CommandLine
