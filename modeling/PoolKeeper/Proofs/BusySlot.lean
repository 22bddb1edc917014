import PoolKeeper.Proofs.OrderFirst
import PoolKeeper.Proofs.StepByStep

/-!
# `PoolKeeper/Proofs/BusySlot.lean` — triggers while a cycle is running

Four things can start a cycle: a backup, a restore, a look at the schedule, and a configuration that
carries an order. While another cycle holds the slot none of them does, and all that is left to ask is
what becomes of the running cycle's status. There are two ways to meet a slot that is taken.

The slot is taken when the trigger begins (`perform_bounces`). A restore and a look at the schedule see that
first and leave the status alone. A backup looks at everything else first, and what it finds replaces the
last status of the cycle (`refusal?`); and a configuration that disables the service ends the session
before its order is refused. `statusLeft` says exactly what is left.

Or the slot is taken while the trigger waits for an answer (`perform_yields`). Whatever else the other one
did, the status is then left as it was when the trigger came to claim the slot (`Approaches`).
-/

set_option autoImplicit false

namespace PoolKeeper

/-- The host may interfere with the record while it answers, but leaves the journal alone. -/
def Host.Discreet {σ : Type} (h : Host σ) : Prop := ∀ c w, (h c w).2.events = w.events

namespace Service

open Operation

variable {σ : Type} {ctx : Context σ} {w w' v : World σ}

/-! ## Calls -/

/-- All calls in the journal since `old` are in `C`. -/
def CallsOnly (C : Call → Prop) (old es : List Event) : Prop :=
  ∃ new, calls es = new ++ calls old ∧ ∀ c ∈ new, C c

section CallsOnly

variable {C : Call → Prop} {old es : List Event}

theorem CallsOnly.refl (es : List Event) : CallsOnly C es es := ⟨[], rfl, by simp⟩

theorem CallsOnly.called {c : Call} (h : CallsOnly C old es) (hc : C c) (reply : c.Reply) :
    CallsOnly C old (.called c reply :: es) := by
  obtain ⟨new, hnew, hcalls⟩ := h
  exact ⟨c :: new, congrArg (c :: ·) hnew, List.forall_mem_cons.mpr ⟨hc, hcalls⟩⟩

theorem CallsOnly.updated (h : CallsOnly C old es) (r : Record) (saved : Bool) :
    CallsOnly C old (.updated r saved :: es) := h

theorem CallsOnly.setRecord (h : CallsOnly C old w.events) (path : String) (r : Record) :
    CallsOnly C old (w.setRecord path r).events := by
  rw [World.setRecord_events]
  exact h.updated r _

theorem CallsOnly.steps {U : Record → Record → Prop} (h : CallsOnly C old w.events)
    (hsteps : Steps C U w w') : CallsOnly C old w'.events :=
  hsteps.keeps (P := fun _ es => CallsOnly C old es) (fun _ reply _ _ hc h => h.called hc reply)
    (fun _ r saved _ _ h => h.updated r saved) h

end CallsOnly

/-! ## What can start a cycle -/

/-- The action can start a cycle. A configuration can if it carries an order. -/
def Triggers (r : Record) : Action → Prop
  | .backup | .restore _ | .tick => True
  | .update requested => r.config.Orders requested
  | _ => False

def cleared (r : Record) : Record := { r with config := r.config.clearTrigger }

/-- The record after the service was stopped that was running a cycle. -/
def cutOff (r : Record) : Record := r.setConnected false

/-- What is said instead of making a backup, before the slot is looked at. -/
def refusal? (s : Settings) (r : Record) (now : Instant) (there : Bool) : Option String :=
  if !r.config.enabled then some "Backup skipped: service disabled"
  else if !r.status.connected then some "Backup skipped: repository not connected"
  else
    match Window.active? s.windows now with
    | none => some "Outside maintenance window"
    | some _ => if there then none else some ("Failed to find pool: " ++ s.pool ++ " not found")

/-- What the clock says, and then whether the pool is there. -/
def lookedAt (ctx : Context σ) (w : World σ) : Instant × Bool :=
  ((ctx.host .now w).1,
    (ctx.host (.poolExists ctx.settings.pool) (runIn ctx (call .now) w).2).1)

/-- What a trigger leaves of the status of a cycle that holds the slot when the trigger begins. -/
def statusLeft (ctx : Context σ) (w : World σ) : Action → Status
  | .backup =>
    match refusal? ctx.settings w.record (lookedAt ctx w).1 (lookedAt ctx w).2 with
    | some text => { w.record.status with lastStatus := text }
    | none => w.record.status
  | .update requested =>
    if w.record.config.Disables requested then { w.record.status with connected := false }
    else w.record.status
  | _ => w.record.status

/-! ## The slot is taken when the trigger begins -/

section Begin

theorem restore_busy (id : String) (hbusy : w.record.status.inProgress = true) :
    runIn ctx (restore id) w =
      (.error restoreBusy, w.setRecord ctx.settings.statePath (cleared w.record)) := by
  have htry : runIn ctx (tryRestore (Text.trim id)) w = (.error restoreBusy, w) := by
    rw [tryRestore, admitRestore]
    simp only [runIn_bind, runIn_record, runIn_settings, hbusy, if_true, runIn_throw]
  rw [restore]
  simp only [runIn_bind, runIn_outcome, htry, runIn_update, runIn_ofReply]
  rfl

theorem runIn_stop_busy (hbusy : w.record.status.inProgress = true)
    (henabled : w.record.config.enabled = true) :
    runIn ctx stop w = (.ok (), w.setRecord ctx.settings.statePath (cutOff w.record)) := by
  simp only [stop, runIn_update, cutOff, henabled, Bool.not_true, Bool.false_eq_true, if_false,
    Record.setConnected, hbusy, if_true]

/-- An update that carries an order is stopped by it. -/
theorem update_busy {requested : Config} (hbusy : w.record.status.inProgress = true)
    (horder : w.record.config.Orders requested) (hkept : ¬ w.record.config.Disables requested) :
    runIn ctx (update requested) w =
      (.error restoreBusy, w.setRecord ctx.settings.statePath (cleared w.record)) := by
  rw [update_of_orders horder hkept, runIn_bind, restore_busy _ hbusy]

/-- One that disables the service has ended the session by then. -/
theorem update_busy_of_disabling {requested : Config} (hbusy : w.record.status.inProgress = true)
    (horder : w.record.config.Orders requested) (hdisables : w.record.config.Disables requested) :
    runIn ctx (update requested) w = (.error restoreBusy,
      (w.setRecord ctx.settings.statePath (cutOff w.record)).setRecord ctx.settings.statePath
        (cleared (cutOff w.record))) := by
  have hoff : (w.record.config.enabled && !requested.enabled) = true :=
    Config.disables_iff.mpr hdisables
  rw [update, runIn_bind, runIn_record]
  simp only [hoff, if_true, runIn_bind, runIn_stop_busy hbusy hdisables.1,
    Config.takeRestoreOrder_of_orders horder, restore_trim]
  -- There is no session any more, but the slot is what a restore looks at first.
  rw [restore_busy _ (by rw [World.setRecord_record]; exact hbusy), World.setRecord_record]

theorem tick_busy (hout : ctx.host.Outside) (hbusy : w.record.status.inProgress = true) :
    Ensures ctx tick w
      (fun _ w' => w'.record = w.record ∧ CallsOnly IsQuestion w.events w'.events)
      (fun _ _ => False) := by
  rw [tick_eq_look, look]
  refine .bind (.bind (.call hout fun now w₁ hr he => .bind (.record ?_)))
  have hskip : ∃ reason, Schedule.decide w₁.record ctx.settings.windows now = .ok (.skip reason) := by
    unfold Schedule.decide
    rw [hr, hbusy]
    split
    · exact ⟨_, rfl⟩
    · exact ⟨_, rfl⟩
  obtain ⟨reason, hskip⟩ := hskip
  have hasked : CallsOnly IsQuestion w.events w₁.events := by
    rw [he]
    exact (CallsOnly.refl _).called (by trivial) now
  -- No session is opened either while a cycle is running.
  have hheld : (w₁.record.config.enabled && !w₁.record.status.connected &&
      !w₁.record.status.inProgress) = false := by
    rw [hr, hbusy, Bool.not_true, Bool.and_false]
  simp only [hheld]
  refine .bind (.record (.bind (.settings ?_)))
  rw [hskip]
  exact .pure (.bind (.pure (.pure ⟨hr, hasked⟩)))

/-- A backup is admitted exactly if there is nothing to say against it; otherwise that is what it says. -/
theorem admitBackup_speaks (hout : ctx.host.Outside) (r : Record) (now : Instant) (w : World σ) :
    Ensures ctx (admitBackup r now) w
      (fun _ w' => refusal? ctx.settings r now (ctx.host (.poolExists ctx.settings.pool) w).1 = none ∧
        w'.record = w.record)
      (fun _ w' => ∃ text,
        refusal? ctx.settings r now (ctx.host (.poolExists ctx.settings.pool) w).1 = some text ∧
          w'.record = w.record.say text) := by
  have hrefuse {α : Type} {status detail : String} {w₁ : World σ} {Q : α → World σ → Prop}
      {there : Bool} (hr : w₁.record = w.record)
      (hstatus : refusal? ctx.settings r now there = some status) :
      Ensures ctx (refuseBackup status detail) w₁ Q (fun _ w' => ∃ text,
        refusal? ctx.settings r now there = some text ∧ w'.record = w.record.say text) :=
    .bind (.update fun _ _ hr' _ => .throw ⟨status, hstatus, by rw [hr', hr]⟩)
  refine .bind (.settings (.ite (fun hoff => .bind (hrefuse rfl ?_)) fun hon =>
    .ite (fun hgone => .bind (hrefuse rfl ?_)) fun hconnected => ?_))
  · simp only [refusal?, hoff, if_true]
  · simp only [refusal?, hon, hgone, if_true, Bool.false_eq_true, if_false]
  cases hactive : Window.active? ctx.settings.windows now with
  | none =>
    refine hrefuse rfl ?_
    simp only [refusal?, hon, hconnected, hactive, Bool.false_eq_true, if_false]
  | some window =>
    refine .bind (.call_eq hout fun there w₁ hthere hr he => ?_)
    rw [← hthere]
    cases there with
    | true =>
      refine .pure ⟨?_, hr⟩
      simp only [refusal?, hon, hconnected, hactive, Bool.false_eq_true, if_false, if_true]
    | false =>
      refine hrefuse hr ?_
      simp only [refusal?, hon, hconnected, hactive, Bool.false_eq_true, if_false]

/-- Until then only the clock and the pool were asked. -/
theorem admitBackup_answers (hout : ctx.host.Outside) (w : World σ) :
    Ensures ctx (admitBackup w.record (lookedAt ctx w).1) (runIn ctx (call .now) w).2
      (fun _ w' => refusal? ctx.settings w.record (lookedAt ctx w).1 (lookedAt ctx w).2 = none ∧
        w'.record = w.record ∧ CallsOnly IsQuestion w.events w'.events)
      (fun _ w' => ∃ text,
        refusal? ctx.settings w.record (lookedAt ctx w).1 (lookedAt ctx w).2 = some text ∧
          w'.record = w.record.say text ∧ CallsOnly IsQuestion w.events w'.events) := by
  obtain ⟨hr₁, he₁⟩ := hout .now w
  have hasked : CallsOnly IsQuestion w.events (runIn ctx (call .now) w).2.events := by
    rw [runIn_call, World.note_events, he₁]
    exact (CallsOnly.refl _).called (by trivial) _
  have hquestions : Footprint ctx IsQuestion Progresses (admitBackup w.record (lookedAt ctx w).1) :=
    (admitBackup_footprint hout _ _).mono (by rintro _ ⟨pool, rfl⟩; trivial) fun _ _ h => h
  -- One lemma says what the refusal is and the other what it calls, so both are needed of the same run.
  refine ((admitBackup_speaks hout w.record (lookedAt ctx w).1 _).and (hquestions _)).mono ?_ ?_
  · rintro window w' ⟨⟨hnothing, hr⟩, hsteps⟩
    exact ⟨hnothing, hr.trans hr₁, hasked.steps hsteps⟩
  · rintro f w' ⟨⟨text, htext, hr⟩, hsteps⟩
    exact ⟨text, htext, hr.trans (congrArg (Record.say · text) hr₁), hasked.steps hsteps⟩

/-- A claim is of no use while the slot is taken, and changes nothing. -/
theorem claim_busy (status : String) (hbusy : w.record.status.inProgress = true) :
    runIn ctx (claim status) w = (.ok false, w.setRecord ctx.settings.statePath w.record) := by
  simp only [claim, runIn_bind, runIn_record, runIn_update, runIn_pure, hbusy, if_true, Bool.not_true]

/-- The fault of a backup that would disturb a running cycle. -/
def backupBusy : Fault := ⟨.backupRefused, "a backup or restore is already in progress"⟩

theorem backup_busy (hout : ctx.host.Outside) (hbusy : w.record.status.inProgress = true) :
    Ensures ctx backup w (fun _ _ => False)
      (fun _ w' => w'.record.status = statusLeft ctx w .backup ∧
        CallsOnly IsQuestion w.events w'.events) := by
  refine .bind (.call_exact (.bind (.record ?_)))
  rw [World.note_record, (hout .now w).1]
  refine .bind ((admitBackup_answers hout w).mono ?_ ?_)
  -- There was nothing to say against it, and only the claim finds the slot taken.
  · rintro window w₂ ⟨hnothing, hr, hasked⟩
    refine .bind (.of_run (claim_busy _ (by rw [hr]; exact hbusy)) (.throw ⟨?_, hasked.setRecord _ _⟩))
    rw [World.setRecord_record, hr, statusLeft, hnothing]
  · rintro f w₂ ⟨text, hsaid, hr, hasked⟩
    refine ⟨?_, hasked⟩
    rw [hr, statusLeft, hsaid]
    rfl

/-- What comes of a trigger that begins in `w` while the slot is taken. -/
structure Bounces (ctx : Context σ) (a : Action) (w : World σ) (result : Except Fault Unit)
    (w' : World σ) : Prop where
  asks : CallsOnly IsQuestion w.events w'.events
  leaves : w'.record.status = statusLeft ctx w a
  fails : result = .ok () ↔ a = .tick

theorem Bounces.of_run {a : Action} {result : Except Fault Unit}
    (hrun : runIn ctx (perform a) w = (result, w')) (h : Bounces ctx a w result w') :
    Bounces ctx a w (runIn ctx (perform a) w).1 (runIn ctx (perform a) w).2 := by
  rw [hrun]
  exact h

theorem perform_bounces (hout : ctx.host.Outside) {a : Action} (htriggers : Triggers w.record a)
    (hbusy : w.record.status.inProgress = true) :
    Bounces ctx a w (runIn ctx (perform a) w).1 (runIn ctx (perform a) w).2 := by
  cases a with
  | backup =>
    refine Ensures.of_result ((backup_busy hout hbusy).mono (fun _ _ => False.elim) ?_)
    rintro f w' ⟨hleft, hasked⟩
    exact ⟨hasked, hleft, by simp⟩
  | restore id =>
    refine .of_run (restore_busy id hbusy) ⟨(CallsOnly.refl w.events).setRecord _ _, ?_, by simp⟩
    rw [World.setRecord_record]
    rfl
  | tick =>
    refine Ensures.of_result (.bind ((tick_busy hout hbusy).mono ?_ fun _ _ => False.elim))
    rintro decision w' ⟨hr, hasked⟩
    exact .pure ⟨hasked, congrArg Record.status hr, by simp⟩
  | update requested =>
    by_cases hdisables : w.record.config.Disables requested
    · refine .of_run (update_busy_of_disabling hbusy htriggers hdisables)
        ⟨((CallsOnly.refl w.events).setRecord _ _).setRecord _ _, ?_, by simp⟩
      rw [World.setRecord_record, statusLeft, if_pos hdisables]
      rfl
    · refine .of_run (update_busy hbusy htriggers hdisables)
        ⟨(CallsOnly.refl w.events).setRecord _ _, ?_, by simp⟩
      rw [World.setRecord_record, statusLeft, if_neg hdisables]
      rfl
  | start | stop | get | apply => exact htriggers.elim

end Begin

/-! ## The slot is taken when the trigger claims it -/

section Claim

/-- From the world `w` on the action comes to claim the slot, and the world is `v` then. A configuration
that disables the service never comes so far, because its order is refused for want of a session. -/
inductive Approaches (ctx : Context σ) : Action → World σ → World σ → Prop
  | backup {w v : World σ} {window : String}
    (hgranted : runIn ctx (admitBackup (runIn ctx (call .now) w).2.record (ctx.host .now w).1)
      (runIn ctx (call .now) w).2 = (.ok window, v)) : Approaches ctx .backup w v
  | restore {w v : World σ} {id : String}
    (hgranted : runIn ctx (admitRestore (Text.trim id)) w = (.ok (), v)) :
    Approaches ctx (.restore id) w v
  | tick {w w₁ v : World σ} {window : String} (hlook : runIn ctx look w = (.ok (.run window), w₁))
    (h : Approaches ctx .backup w₁ v) : Approaches ctx .tick w v
  | update {w v : World σ} {requested : Config} (horder : w.record.config.Orders requested)
    (hkept : ¬ w.record.config.Disables requested)
    (h : Approaches ctx (.restore requested.restoreTrigger) w v) :
    Approaches ctx (.update requested) w v

/-- What a trigger leaves that lost the slot to another one: the record as it was, which is saved, and at
most the order is cleared. -/
def Yields (v w' : World σ) : Prop :=
  w'.record.status = v.record.status ∧ calls w'.events = calls v.events

theorem backup_yields {w v : World σ} (h : Approaches ctx .backup w v)
    (hbusy : v.record.status.inProgress = true) :
    ∃ w', runIn ctx backup w = (.error backupBusy, w') ∧ Yields v w' := by
  cases h with
  | backup hgranted =>
    refine ⟨v.setRecord ctx.settings.statePath v.record, ?_, ?_, calls_setRecord ..⟩
    · rw [backup, runIn_bind, runIn_call]
      change runIn ctx (record >>= _) (runIn ctx (call .now) w).2 = _
      rw [runIn_bind, runIn_record]
      simp only []
      rw [runIn_bind, hgranted]
      simp only [runIn_bind, claim_busy _ hbusy, Bool.not_false, if_true, runIn_throw]
      rfl
    · rw [World.setRecord_record]

theorem restore_yields {id : String} {w v : World σ} (h : Approaches ctx (.restore id) w v)
    (hbusy : v.record.status.inProgress = true) :
    ∃ w', runIn ctx (restore id) w = (.error restoreBusy, w') ∧ Yields v w' := by
  cases h with
  | restore hgranted =>
    have htry : runIn ctx (tryRestore (Text.trim id)) w =
        (.error restoreBusy, v.setRecord ctx.settings.statePath v.record) := by
      simp only [tryRestore, runIn_bind, hgranted, claim_busy _ hbusy, Bool.not_false, if_true,
        runIn_throw]
    refine ⟨(v.setRecord ctx.settings.statePath v.record).setRecord ctx.settings.statePath
      (cleared v.record), ?_, ?_, ?_⟩
    · rw [restore]
      simp only [runIn_bind, runIn_outcome, htry, runIn_update, runIn_ofReply,
        World.setRecord_record]
      rfl
    · rw [World.setRecord_record]
      rfl
    · rw [calls_setRecord, calls_setRecord]

theorem perform_yields {a : Action} {w v : World σ} (h : Approaches ctx a w v)
    (hbusy : v.record.status.inProgress = true) :
    ∃ f w', runIn ctx (perform a) w = (.error f, w') ∧ Yields v w' := by
  cases h with
  | backup hgranted =>
    obtain ⟨w', hrun, hyields⟩ := backup_yields (.backup hgranted) hbusy
    exact ⟨_, w', hrun, hyields⟩
  | restore hgranted =>
    obtain ⟨w', hrun, hyields⟩ := restore_yields (.restore hgranted) hbusy
    exact ⟨_, w', hrun, hyields⟩
  | tick hlook h =>
    obtain ⟨w', hrun, hyields⟩ := backup_yields h hbusy
    refine ⟨backupBusy, w', ?_, hyields⟩
    simp only [perform, tick_eq_look, runIn_bind, hlook, follow, hrun]
  | update horder hkept h =>
    obtain ⟨w', hrun, hyields⟩ := restore_yields h hbusy
    refine ⟨restoreBusy, w', ?_, hyields⟩
    rw [perform, update_of_orders horder hkept, runIn_bind, hrun]

/-- Questions and what opens a session. -/
def AsksOrConnects (c : Call) : Prop := IsQuestion c ∨ IsConnecting c

theorem callsOnly_steps (hdiscreet : ctx.host.Discreet) (old : List Event) :
    StepsPreserve ctx AsksOrConnects (fun w => CallsOnly AsksOrConnects old w.events) where
  call hc w hw := .call_exact (by
    rw [World.note_events, hdiscreet]
    exact CallsOnly.called hw hc _)
  update f w hw := .update_exact (hw.setRecord _ _)
  isThere := isThere_preserves _

/-- On its way to the slot a trigger asks questions, and opens a session at most. -/
theorem approaches_asks (hdiscreet : ctx.host.Discreet) {a : Action} {w v : World σ}
    {old : List Event} (h : Approaches ctx a w v) (hw : CallsOnly AsksOrConnects old w.events) :
    CallsOnly AsksOrConnects old v.events := by
  have hsteps := callsOnly_steps hdiscreet old
  induction h with
  | @backup w v _ hgranted =>
    have hnow := (hsteps.call (.inl trivial : AsksOrConnects .now) w hw).of_runIn
    exact (hsteps.silently.admitBackup (fun _ => .inl) _ _ _ hnow).of_ok hgranted
  | restore hgranted => exact (hsteps.silently.admitRestore (fun _ => .inl) _ _ hw).of_ok hgranted
  | tick hlook _ ih => exact ih ((hsteps.silently.look (.inl trivial) (fun _ => .inr) _ hw).of_ok hlook)
  | update _ _ _ ih => exact ih hw

end Claim

/-! ## Both ways -/

/-- No trigger starts a second cycle. If the slot is taken when the trigger begins, all that is called
are questions, and of the running cycle's status there is left what `statusLeft` says; only a look at the
schedule is no failure. If the slot is taken when the trigger claims it, the trigger fails, and leaves the
status as it was then; however the host interfered, it did not get further than to open a session. -/
theorem busy_slot_respected (a : Action) (w : World σ) :
    (ctx.host.Outside → Triggers w.record a → w.record.status.inProgress = true →
      Bounces ctx a w (runIn ctx (perform a) w).1 (runIn ctx (perform a) w).2) ∧
    ∀ v, Approaches ctx a w v → v.record.status.inProgress = true →
      ∃ f w', runIn ctx (perform a) w = (.error f, w') ∧ Yields v w' ∧
        (ctx.host.Discreet → CallsOnly AsksOrConnects w.events w'.events) := by
  refine ⟨fun hout htriggers hbusy => perform_bounces hout htriggers hbusy,
    fun v happroaches hbusy => ?_⟩
  obtain ⟨f, w', hrun, hstatus, hcalls⟩ := perform_yields happroaches hbusy
  refine ⟨f, w', hrun, ⟨hstatus, hcalls⟩, fun hdiscreet => ?_⟩
  have hasked := approaches_asks hdiscreet happroaches (.refl w.events)
  rwa [CallsOnly, ← hcalls] at hasked

/-- A service that has just begun a restore. -/
def restoring : World Unit := { ready with record := ready.record.claim "Stopping services" }

/-- A host on which a restore takes the slot while somebody asks for the pool. -/
def contended : Host Unit
  | .poolExists _, w => (true, { w with record := w.record.claim "Stopping services" })
  | c, w => agreeable.host c w

theorem busy_slot_respected_restoring :
    Bounces agreeableContext (.restore "k123") restoring
        (runIn agreeableContext (perform (.restore "k123")) restoring).1
        (runIn agreeableContext (perform (.restore "k123")) restoring).2 ∧
      ∃ v, Approaches ⟨{}, contended⟩ .backup ready v ∧ v.record.status.inProgress = true ∧
        ∃ f w', runIn ⟨{}, contended⟩ backup ready = (.error f, w') ∧ Yields v w' := by
  refine ⟨(busy_slot_respected (.restore "k123") restoring).1 agreeable.outside trivial
    (by decide +kernel), ?_⟩
  have hadmitted : (runIn ⟨{}, contended⟩ (admitBackup
      (runIn ⟨{}, contended⟩ (call .now) ready).2.record (contended .now ready).1)
      (runIn ⟨{}, contended⟩ (call .now) ready).2).1 = .ok "always@1970-01-01" := by decide +kernel
  have htaken : (runIn ⟨{}, contended⟩ (admitBackup
      (runIn ⟨{}, contended⟩ (call .now) ready).2.record (contended .now ready).1)
      (runIn ⟨{}, contended⟩ (call .now) ready).2).2.record.status.inProgress = true := by
    decide +kernel
  rcases hrun : runIn ⟨{}, contended⟩ (admitBackup
      (runIn ⟨{}, contended⟩ (call .now) ready).2.record (contended .now ready).1)
      (runIn ⟨{}, contended⟩ (call .now) ready).2 with ⟨result, v⟩
  rw [hrun] at hadmitted htaken
  cases hadmitted
  have happroaches : Approaches ⟨{}, contended⟩ .backup ready v := .backup hrun
  obtain ⟨f, w', hbackup, hyields, -⟩ := (busy_slot_respected .backup ready).2 v happroaches htaken
  exact ⟨v, happroaches, htaken, f, w', hbackup, hyields⟩

/-- Windows that are closed at midnight. -/
def noon : Settings := { windows := [{ startHour := 12, endHour := 13 }] }

/-- A backup outside of its window speaks over the restore that is running, and a configuration that
disables the service takes the session from it, although its own order is refused. -/
theorem restoring_disturbed : restoring.record.status.inProgress = true ∧
    restoring.record.status.lastStatus = "Stopping services" ∧
    restoring.record.status.connected = true ∧
    (runIn ⟨noon, agreeable.host⟩ backup restoring).2.record.status.lastStatus =
      "Outside maintenance window" ∧
    restoring.record.config.Orders { ordering with enabled := false } ∧
    (runIn agreeableContext (update { ordering with enabled := false }) restoring).1 =
      .error restoreBusy ∧
    (runIn agreeableContext (update { ordering with enabled := false })
      restoring).2.record.status.connected = false := by
  unfold Config.Orders
  decide +kernel

end Service

end PoolKeeper
