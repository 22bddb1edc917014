import PoolKeeper.Service.Basic

/-!
# `PoolKeeper/Proofs/Ensures.lean` — what an operation ensures

`Ensures ctx op w Q R` says of one run of an operation, from the world `w`: if it succeeds, `Q` holds of
what it gives and of the world it leaves; if it fails, `R` holds of the fault and of that world. There is
one rule for each kind of step. Everything that is proved about the service goes through these rules, so
no other proof looks into the monad.

A host may do anything to the world. Whoever answers from outside can do less: `Answers` are given
neither the record nor the journal, so they can change neither. The rules for such hosts
(`Ensures.call`, `Ensures.update`, `Ensures.onMachine`) leave open what is answered and what becomes of
the machine, and keep only what the record and the journal are afterwards. Where the machine matters
there are rules that give the whole world (`Ensures.call_exact` and so on).
-/

set_option autoImplicit false

namespace PoolKeeper

open Operation

variable {σ : Type} {α β : Type} {ctx : Context σ} {w : World σ}

/-! ## Hosts that answer from outside -/

/-- Answers that are given the call, a state of their own and the machine, and nothing else. -/
abbrev Answers (σ : Type) : Type := (c : Call) → σ → Machine → c.Reply × σ × Machine

/-- The host that gives the answers. -/
def Answers.host (a : Answers σ) : Host σ := fun c w =>
  let (reply, host, machine) := a c w.host w.machine
  (reply, { w with host, machine })

/-- The host leaves the record and the journal alone. -/
def Host.Outside (h : Host σ) : Prop :=
  ∀ c w, (h c w).2.record = w.record ∧ (h c w).2.events = w.events

theorem Answers.outside (a : Answers σ) : a.host.Outside := fun _ _ => ⟨rfl, rfl⟩

/-! ## Worlds -/

namespace World

@[simp] theorem note_record (w : World σ) (e : Event) : (w.note e).record = w.record := rfl
@[simp] theorem note_machine (w : World σ) (e : Event) : (w.note e).machine = w.machine := rfl
@[simp] theorem note_host (w : World σ) (e : Event) : (w.note e).host = w.host := rfl
@[simp] theorem note_events (w : World σ) (e : Event) : (w.note e).events = e :: w.events := rfl

/-- Whether a record can be saved. -/
def saves (w : World σ) (path : String) (r : Record) : Bool :=
  ((r.save path).run w.machine).1 matches .ok _

theorem saves_iff {path : String} {r : Record} : w.saves path r = true ↔
    ∃ m, (r.save path).run w.machine = (.ok (), m) := by
  unfold saves
  rcases (r.save path).run w.machine with ⟨e | ⟨⟩, m⟩
  · exact ⟨fun h => (Bool.false_ne_true h).elim, fun ⟨_, h⟩ => nomatch h⟩
  · exact ⟨fun _ => ⟨m, rfl⟩, fun _ => rfl⟩

theorem setRecord_eq (w : World σ) (path : String) (r : Record) :
    w.setRecord path r = World.note { w with record := r, machine := ((r.save path).run w.machine).2 }
      (.updated r (w.saves path r)) := by
  unfold setRecord saves
  generalize (Record.save path r).run w.machine = saved
  rfl

@[simp] theorem setRecord_record (w : World σ) (path : String) (r : Record) :
    (w.setRecord path r).record = r := by rw [setRecord_eq, note_record]

@[simp] theorem setRecord_host (w : World σ) (path : String) (r : Record) :
    (w.setRecord path r).host = w.host := by rw [setRecord_eq, note_host]

@[simp] theorem setRecord_machine (w : World σ) (path : String) (r : Record) :
    (w.setRecord path r).machine = ((r.save path).run w.machine).2 := by
  rw [setRecord_eq, note_machine]

@[simp] theorem setRecord_events (w : World σ) (path : String) (r : Record) :
    (w.setRecord path r).events = .updated r (w.saves path r) :: w.events := by
  rw [setRecord_eq, note_events]

end World

/-! ## Single runs -/

namespace Operation

@[simp] theorem runIn_pure (a : α) : runIn ctx (pure a) w = (.ok a, w) := rfl

@[simp] theorem runIn_throw (f : Fault) : runIn ctx (throw f : Operation σ α) w = (.error f, w) := rfl

theorem runIn_bind (op : Operation σ α) (next : α → Operation σ β) :
    runIn ctx (op >>= next) w = match runIn ctx op w with
      | (.ok a, w') => runIn ctx (next a) w'
      | (.error f, w') => (.error f, w') := by
  change (do let x ← op ctx |>.run; ExceptT.bindCont (fun a => next a ctx) x : StateM _ _) w = _
  simp only [runIn, ExceptT.run]
  rcases hop : (op ctx : StateM _ _) w with ⟨a | f, w'⟩ <;> simp [bind, StateT.bind, hop] <;> rfl

@[simp] theorem runIn_settings : runIn ctx settings w = (.ok ctx.settings, w) := rfl

@[simp] theorem runIn_record : runIn ctx record w = (.ok w.record, w) := rfl

-- The type of a reply depends on the call, so `simp` must not look for it.
@[simp] theorem runIn_call (c : Call) : @runIn σ (no_index c.Reply) ctx (call c) w =
    (.ok (ctx.host c w).1, (ctx.host c w).2.note (.called c (ctx.host c w).1)) := rfl

@[simp] theorem runIn_update (f : Record → Record) : runIn ctx (update f) w =
    (.ok (), w.setRecord ctx.settings.statePath (f w.record)) := rfl

@[simp] theorem runIn_onMachine (step : StateM Machine α) : runIn ctx (onMachine step) w =
    (.ok (step.run w.machine).1, { w with machine := (step.run w.machine).2 }) := rfl

@[simp] theorem runIn_outcome (op : Operation σ α) : runIn ctx (outcome op) w =
    (.ok (runIn ctx op w).1, (runIn ctx op w).2) := rfl

@[simp] theorem runIn_ofReply (reply : Except Fault α) : runIn ctx (ofReply reply) w = (reply, w) := by
  cases reply <;> rfl

end Operation

/-! ## What a run ensures -/

/-- A run of the operation from `w` ends as `Q` says if it succeeds, and as `R` says if it fails. -/
def Ensures (ctx : Context σ) (op : Operation σ α) (w : World σ) (Q : α → World σ → Prop)
    (R : Fault → World σ → Prop) : Prop :=
  match runIn ctx op w with
  | (.ok a, w') => Q a w'
  | (.error f, w') => R f w'

namespace Ensures

variable {op : Operation σ α} {next : α → Operation σ β} {Q Q' : α → World σ → Prop}
  {R R' : Fault → World σ → Prop}

/-- What holds however the run ends. -/
theorem of_runIn {P : World σ → Prop} (h : Ensures ctx op w (fun _ => P) (fun _ => P)) :
    P (runIn ctx op w).2 := by
  unfold Ensures at h
  rcases hrun : runIn ctx op w with ⟨_ | _, w'⟩ <;> rw [hrun] at h <;> exact h

/-- What holds of the outcome and the world together. -/
theorem of_result {P : Except Fault α → World σ → Prop}
    (h : Ensures ctx op w (fun a => P (.ok a)) (fun f => P (.error f))) :
    P (runIn ctx op w).1 (runIn ctx op w).2 := by
  unfold Ensures at h
  rcases hrun : runIn ctx op w with ⟨_ | _, w'⟩ <;> rw [hrun] at h <;> exact h

/-- What holds of a run that succeeded. -/
theorem of_ok {a : α} {w' : World σ} (h : Ensures ctx op w Q R)
    (hrun : runIn ctx op w = (.ok a, w')) : Q a w' := by
  unfold Ensures at h
  rwa [hrun] at h

/-- What holds of a run that failed. -/
theorem of_error {f : Fault} {w' : World σ} (h : Ensures ctx op w Q R)
    (hrun : runIn ctx op w = (.error f, w')) : R f w' := by
  unfold Ensures at h
  rwa [hrun] at h

/-- What a run comes to that is known to succeed. -/
theorem of_run {a : α} {w' : World σ} (hrun : runIn ctx op w = (.ok a, w')) (h : Q a w') :
    Ensures ctx op w Q R := by
  unfold Ensures
  rwa [hrun]

theorem mono (h : Ensures ctx op w Q R) (hQ : ∀ a w', Q a w' → Q' a w')
    (hR : ∀ f w', R f w' → R' f w') : Ensures ctx op w Q' R' := by
  unfold Ensures at h ⊢
  rcases hrun : runIn ctx op w with ⟨f | a, w'⟩ <;> rw [hrun] at h
  · exact hR f w' h
  · exact hQ a w' h

theorem and (h : Ensures ctx op w Q R) (h' : Ensures ctx op w Q' R') :
    Ensures ctx op w (fun a w' => Q a w' ∧ Q' a w') (fun f w' => R f w' ∧ R' f w') := by
  unfold Ensures at h h' ⊢
  rcases hrun : runIn ctx op w with ⟨f | a, w'⟩ <;> rw [hrun] at h h' <;> exact ⟨h, h'⟩

/-! ### One rule for each kind of step -/

theorem pure {a : α} (h : Q a w) : Ensures ctx (pure a) w Q R := h

theorem throw {f : Fault} (h : R f w) : Ensures ctx (throw f) w Q R := h

theorem bind {Q : β → World σ → Prop}
    (h : Ensures ctx op w (fun a w' => Ensures ctx (next a) w' Q R) R) :
    Ensures ctx (op >>= next) w Q R := by
  unfold Ensures at h ⊢
  rw [runIn_bind]
  rcases hrun : runIn ctx op w with ⟨f | a, w'⟩ <;> rw [hrun] at h <;> exact h

theorem ite {c : Prop} [Decidable c] {other : Operation σ α} (hthen : c → Ensures ctx op w Q R)
    (helse : ¬ c → Ensures ctx other w Q R) : Ensures ctx (if c then op else other) w Q R := by
  split
  next h => exact hthen h
  next h => exact helse h

/-- Something is done under a condition, and then the rest, for which `P` is enough. -/
theorem guard {c : Prop} [Decidable c] {op : Operation σ Unit} {rest : Unit → Operation σ β}
    {Q : β → World σ → Prop} (P : World σ → Prop) (hthen : c → Ensures ctx op w (fun _ => P) R)
    (helse : ¬ c → P w) (hrest : ∀ u w', P w' → Ensures ctx (rest u) w' Q R) :
    Ensures ctx (if c then op >>= rest else rest ()) w Q R :=
  ite (fun h => bind ((hthen h).mono (fun u w' => hrest u w') fun _ _ h => h))
    fun h => hrest () w (helse h)

theorem settings {Q : Settings → World σ → Prop} (h : Q ctx.settings w) :
    Ensures ctx Operation.settings w Q R := h

theorem record {Q : Record → World σ → Prop} (h : Q w.record w) :
    Ensures ctx Operation.record w Q R := h

theorem outcome {Q : Except Fault α → World σ → Prop}
    (h : Ensures ctx op w (fun a => Q (.ok a)) (fun f => Q (.error f))) :
    Ensures ctx (Operation.outcome op) w Q R := by
  unfold Ensures at h ⊢
  rw [runIn_outcome]
  rcases hrun : runIn ctx op w with ⟨f | a, w'⟩ <;> rw [hrun] at h <;> exact h

theorem ofReply {reply : Except Fault α} (hok : ∀ a, reply = .ok a → Q a w)
    (herror : ∀ f, reply = .error f → R f w) : Ensures ctx (Operation.ofReply reply) w Q R := by
  unfold Ensures
  rw [runIn_ofReply]
  cases reply with
  | ok a => exact hok a rfl
  | error f => exact herror f rfl

/-- A call, when it matters what the host does. -/
theorem call_exact {c : Call} {Q : c.Reply → World σ → Prop}
    (h : Q (ctx.host c w).1 ((ctx.host c w).2.note (.called c (ctx.host c w).1))) :
    Ensures ctx (Operation.call c) w Q R := h

/-- A call of a host that answers from outside, when it matters what the host answers. -/
theorem call_eq {c : Call} {Q : c.Reply → World σ → Prop} (hout : ctx.host.Outside)
    (h : ∀ reply w', reply = (ctx.host c w).1 → w'.record = w.record →
      w'.events = .called c reply :: w.events → Q reply w') :
    Ensures ctx (Operation.call c) w Q R := by
  obtain ⟨hrecord, hevents⟩ := hout c w
  exact call_exact (h _ _ rfl hrecord (congrArg (Event.called c _ :: ·) hevents))

/-- A call of a host that answers from outside. -/
theorem call {c : Call} {Q : c.Reply → World σ → Prop} (hout : ctx.host.Outside)
    (h : ∀ reply w', w'.record = w.record → w'.events = .called c reply :: w.events → Q reply w') :
    Ensures ctx (Operation.call c) w Q R :=
  call_eq hout fun reply w' _ => h reply w'

/-- An update, when it matters what becomes of the machine. -/
theorem update_exact {f : Record → Record} {Q : Unit → World σ → Prop}
    (h : Q () (w.setRecord ctx.settings.statePath (f w.record))) :
    Ensures ctx (Operation.update f) w Q R := h

theorem update {f : Record → Record} {Q : Unit → World σ → Prop}
    (h : ∀ saved w', w'.record = f w.record → w'.events = .updated (f w.record) saved :: w.events →
      Q () w') : Ensures ctx (Operation.update f) w Q R :=
  update_exact (h _ _ (World.setRecord_record ..) (World.setRecord_events ..))

/-- Work on the machine, when it matters what becomes of the machine. -/
theorem onMachine_exact {step : StateM Machine α}
    (h : Q (step.run w.machine).1 { w with machine := (step.run w.machine).2 }) :
    Ensures ctx (Operation.onMachine step) w Q R := h

theorem onMachine {step : StateM Machine α}
    (h : ∀ a w', w'.record = w.record → w'.events = w.events → Q a w') :
    Ensures ctx (Operation.onMachine step) w Q R := onMachine_exact (h _ _ rfl rfl)

theorem onFiles {step : FileStep α}
    (hok : ∀ a w', w'.record = w.record → w'.events = w.events → Q a w')
    (herror : ∀ f w', w'.record = w.record → w'.events = w.events → R f w') :
    Ensures ctx (Operation.onFiles step) w Q R := by
  refine bind (onMachine fun outcome w' hr he => ?_)
  cases outcome with
  | ok a => exact hok a w' hr he
  | error f => exact herror f w' hr he

end Ensures

-- What a run ensures is said by the rules; the run itself is not for the unifier to carry out.
attribute [irreducible] Ensures

end PoolKeeper
