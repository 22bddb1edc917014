import PoolKeeper.Rehearsal.Task

/-!
# `PoolKeeper/Rehearsal/Scene.lean` — several services over one state file

A process that starts anew takes the record over from the state file and keeps its own copy from then
on, while an operation of the old one may still be running. So a scene knows the records of several
services by number, one of which acts: its record is the one in the world.
-/

set_option autoImplicit false

namespace PoolKeeper

namespace Rehearsal

/-- The services of a rehearsal, and what stands in for the rest of the world. -/
structure Scene (τ : Type) where
  /-- The service whose record is in the world. -/
  acting : Nat := 0
  /-- The records of the others. -/
  waiting : List (Nat × Record) := []
  props : τ

abbrev Play (τ : Type) : Type := World (Scene τ)

end Rehearsal

namespace World

open Rehearsal

variable {τ α : Type}

def props (w : Play τ) : τ := w.host.props

/-- The rehearsal with its stand-ins changed. -/
def setProps (w : Play τ) (f : τ → τ) : Play τ :=
  { w with host := { w.host with props := f w.host.props } }

def onMachine (w : Play τ) (step : StateM Machine α) : α × Play τ :=
  let (a, machine) := step.run w.machine
  (a, { w with machine })

/-- Lets a service act that has the record, under a number of its own; the one that acted waits. -/
def enter (w : Play τ) (service : Nat) (r : Record) : Play τ :=
  { w with
    record := r
    host := { w.host with
      acting := service
      waiting := (w.host.acting, w.record) :: w.host.waiting.filter fun x => x.1 ≠ service } }

def switch (w : Play τ) (service : Nat) : Play τ :=
  if w.host.acting = service then w
  else w.enter service ((w.host.waiting.lookup service).getD {})

/-- Does something while a service acts, and goes back to the one that acted before. -/
def as (w : Play τ) (service : Nat) (act : Play τ → α × Play τ) : α × Play τ :=
  let before := w.host.acting
  let (a, w) := act (w.switch service)
  (a, w.switch before)

def recordOf (w : Play τ) (service : Nat) : Record := (w.switch service).record

/-- A task for the service that acts. -/
def ask (w : Play τ) (ctx : Context (Scene τ)) (t : Task) : Answer × Play τ :=
  match t.run.runIn ctx w with
  | (.ok a, w) => (a, w)
  | (.error f, w) => (.outcome (.error f), w)

end World

end PoolKeeper
