import PoolKeeper.Rehearsal.Task

/-!
# `PoolKeeper/Rehearsal/Slot.lean` — the slot of a record, step by step

The words of a cycle one at a time: the slot is claimed, the cycle comes further, and the slot is given
back in one of three ways. Between these anybody may replace the last status, and may even die after
the change and before it is saved; the record in memory has the change then, and the file gets it with
the next save.

Only whoever claimed the slot can advance the cycle or end it. Without such a one these steps do
nothing, not even save.
-/

set_option autoImplicit false

namespace PoolKeeper.Rehearsal

inductive SlotStep where
  | claim (status : String)
  | advance (progress : UInt8) (status : String)
  | fail (status : String)
  /-- The cycle completes, and the record gets the window that it counts for. -/
  | complete (status : String) (window : Option String)
  /-- The slot is given back without a word. -/
  | release
  | say (status : String)
  /-- Somebody changes the last status, and dies before it is saved. -/
  | lose (status : String)
  /-- The record as a new process would find it. -/
  | load

variable {σ : Type}

/-- A step; `held` tells whether somebody holds the slot, and comes back with the answer. -/
def SlotStep.run (ctx : Context σ) (step : SlotStep) (held : Bool) (w : World σ) :
    Answer × Bool × World σ :=
  let asked (op : Operation σ Unit) : World σ := (op.runIn ctx w).2
  let byHolder (goesOn : Bool) (op : Operation σ Unit) : Answer × Bool × World σ :=
    if held then (.flag true, goesOn, asked op) else (.flag false, false, w)
  match step with
  | .claim status =>
    match (Operation.claim status).runIn ctx w with
    | (.ok true, w) => (.claimed true, true, w)
    | (_, w) => (.claimed false, held, w)
  | .advance progress status => byHolder true (Operation.advance progress status)
  | .fail status => byHolder false (Operation.failCycle status)
  | .complete status window =>
    byHolder false (Operation.completeCycle status fun r =>
      { r with status := { r.status with lastWindow := window } })
  | .release => byHolder false (Operation.update Record.release)
  | .say status => (.done, held, asked (Operation.say status))
  | .lose status => (.done, held, { w with record := w.record.say status })
  | .load =>
    let (loaded, machine) := (Record.load ctx.settings.statePath).run w.machine
    (.loaded loaded, held, { w with machine })

end PoolKeeper.Rehearsal
