import PoolKeeper.Record.File
import PoolKeeper.Service.Call
import PoolKeeper.Settings.Basic

/-!
# `PoolKeeper/Service/Basic.lean` — the steps that every operation is made of

A `World` is what an operation of the service works on: the record it holds in memory, its machine,
the state of whoever answers its calls, and what has happened so far. A `Host` answers calls. It may
do to the world what it likes, which includes running further operations of the service before it
answers.

An operation has four kinds of steps: it makes a call, it reads the record, it updates the record, and
it works on files. An update is saved at once; a save that fails is no fault of the operation, the
record in memory counts.

The record's slot belongs to one cycle at a time. `claim` takes it, and `advance`, `failCycle` and
`completeCycle` are the words of the cycle that holds it.
-/

set_option autoImplicit false

namespace PoolKeeper

/-- What an operation works on. -/
structure World (σ : Type) where
  /-- The record in memory. -/
  record : Record
  machine : Machine
  /-- The state of the host. -/
  host : σ
  /-- What has happened, the latest first. -/
  events : List Event := []

/-- Whoever answers the calls. -/
abbrev Host (σ : Type) : Type := (c : Call) → World σ → c.Reply × World σ

structure Context (σ : Type) where
  settings : Settings
  host : Host σ

abbrev Operation (σ : Type) : Type → Type :=
  ReaderT (Context σ) (ExceptT Fault (StateM (World σ)))

namespace World

variable {σ : Type}

def note (w : World σ) (e : Event) : World σ := { w with events := e :: w.events }

/-- The world after the record changed to `r`, and was saved at the path if that was possible. -/
def setRecord (w : World σ) (path : String) (r : Record) : World σ :=
  let (outcome, machine) := (r.save path).run w.machine
  { w with record := r, machine }.note (.updated r (outcome matches .ok _))

end World

namespace Operation

variable {σ : Type} {α : Type}

def runIn (ctx : Context σ) (op : Operation σ α) (w : World σ) : Except Fault α × World σ :=
  (op ctx).run w

def settings : Operation σ Settings := do return (← read).settings

def call (c : Call) : Operation σ c.Reply := fun ctx => ExceptT.mk fun w =>
  let (reply, w) := ctx.host c w
  -- Whatever the host did before it answered comes before the call in the list of events.
  (.ok reply, w.note (.called c reply))

def record : Operation σ Record := do return (← get).record

def update (f : Record → Record) : Operation σ Unit := do
  let path := (← settings).statePath
  modify fun w => w.setRecord path (f w.record)

def say (status : String) : Operation σ Unit := update (·.say status)

def onMachine (step : StateM Machine α) : Operation σ α := modifyGet fun w =>
  let (a, machine) := step.run w.machine
  (a, { w with machine })

def onFiles (step : FileStep α) : Operation σ α := do
  match ← onMachine step.run with
  | .ok a => return a
  | .error f => throw f

def ofReply (reply : Except Fault α) : Operation σ α :=
  match reply with
  | .ok a => return a
  | .error f => throw f

/-- An operation that cannot fail, with what came of it. -/
def outcome (op : Operation σ α) : Operation σ (Except Fault α) := fun ctx =>
  ExceptT.mk fun w =>
    let (result, w) := runIn ctx op w
    (.ok result, w)

/-! ## The slot of the running cycle -/

/-- Claims the slot, unless a cycle holds it. -/
def claim (status : String) : Operation σ Bool := do
  let busy := (← record).status.inProgress
  update fun r => if r.status.inProgress then r else r.claim status
  return !busy

def advance (progress : UInt8) (status : String) : Operation σ Unit :=
  update (·.advance progress status)

def failCycle (status : String) : Operation σ Unit := update (·.fail status)

/-- The running cycle completed, and the slot is free; `result` goes into the same update. -/
def completeCycle (status : String) (result : Record → Record) : Operation σ Unit :=
  update fun r => result (r.complete status)

end Operation

end PoolKeeper
