import PoolKeeper.Proofs.InStep
import PoolKeeper.Proofs.Lifetime
import PoolKeeper.Proofs.Renamed
import PoolKeeper.Proofs.SameShape

/-!
# `PoolKeeper/Proofs/SecretsUnseen.lean` — secrets do not reach the status

Two services that differ in their secrets alone, and whose tools answer alike, cannot be told apart by what
they show. Their worlds stay `Twins`: the record and the journal of the one are those of the other with
other secrets in them, and the disks differ in what is in the files at most. Every operation keeps that
and comes to the same (`perform_unseen`).

The secrets do matter on the way: a configuration is looked at before a session is opened, a session is
given up when they change, and the engine is told them. There the two runs stay together because a
`Renaming` changes neither the defects of a configuration nor whether it is another repository. Everywhere
else the two runs are one and the same text, and nothing in it looks at a secret.
-/

set_option autoImplicit false

namespace PoolKeeper

open Operation

variable {σ τ : Type} {α β : Type} {ρ : Renaming} {H : σ → τ → Prop} {c₁ : Context σ} {c₂ : Context τ}

/-- The worlds are the same up to the secrets in them. -/
structure Twins (ρ : Renaming) (H : σ → τ → Prop) (w₁ : World σ) (w₂ : World τ) : Prop where
  record : w₂.record = ρ.record w₁.record
  machine : w₁.machine.Alike w₂.machine
  host : H w₁.host w₂.host
  events : w₂.events = w₁.events.map ρ.event

/-- The services have the same settings, and their hosts give the same answers to calls that are the same
up to the secrets in them. -/
structure AnswerAlike (ρ : Renaming) (H : σ → τ → Prop) (c₁ : Context σ) (c₂ : Context τ) : Prop where
  settings : c₂.settings = c₁.settings
  answers : ∀ c w₁ w₂, Twins ρ H w₁ w₂ → HEq (c₁.host c w₁).1 (c₂.host (ρ.call c) w₂).1 ∧
    Twins ρ H (c₁.host c w₁).2 (c₂.host (ρ.call c) w₂).2

/-- Both operations come to the same, and leave twins. -/
abbrev Unseen (ρ : Renaming) (H : σ → τ → Prop) (c₁ : Context σ) (c₂ : Context τ)
    (op₁ : Operation σ α) (op₂ : Operation τ α) : Prop :=
  InStep c₁ c₂ (Twins ρ H) Eq op₁ op₂

/-! ## Single steps -/

namespace InStep

/-- Both records are read, and what follows goes on with them. -/
theorem record {next₁ : Record → Operation σ α} {next₂ : Record → Operation τ α}
    (h : ∀ r, Unseen ρ H c₁ c₂ (next₁ r) (next₂ (ρ.record r))) :
    Unseen ρ H c₁ c₂ (Operation.record >>= next₁) (Operation.record >>= next₂) := by
  refine .bind (R := fun r r' => r' = ρ.record r) (fun w₁ w₂ hw => ⟨.ok hw.record, hw⟩) ?_
  rintro r _ rfl
  exact h r

/-- A call and its counterpart are answered alike. -/
theorem counterpart (h : AnswerAlike ρ H c₁ c₂) (c : Call) : InStep c₁ c₂ (Twins ρ H)
    (fun (a : c.Reply) (b : (ρ.call c).Reply) => HEq a b) (Operation.call c)
    (Operation.call (ρ.call c)) := by
  intro w₁ w₂ hw
  obtain ⟨hreply, hworld⟩ := h.answers c w₁ w₂ hw
  refine ⟨.ok hreply, hworld.record, hworld.machine, hworld.host, ?_⟩
  rw [runIn_call, runIn_call, World.note_events, World.note_events, List.map_cons, hworld.events,
    Renaming.event_called hreply]

/-- A call that hands no secret over is its own counterpart. -/
theorem call (h : AnswerAlike ρ H c₁ c₂) {c : Call} (hc : Renaming.Keeps c) :
    @InStep σ τ (no_index c.Reply) (no_index c.Reply) c₁ c₂ (Twins ρ H) Eq (Operation.call c)
      (Operation.call c) := by
  have hcounterpart := counterpart h c
  rw [Renaming.call_of_keeps hc] at hcounterpart
  exact hcounterpart.mono fun _ _ => eq_of_heq

theorem update {f₁ f₂ : Record → Record} (h : AnswerAlike ρ H c₁ c₂)
    (hf : ∀ r, f₂ (ρ.record r) = ρ.record (f₁ r)) :
    Unseen ρ H c₁ c₂ (Operation.update f₁) (Operation.update f₂) := by
  intro w₁ w₂ hw
  rw [runIn_update, runIn_update, h.settings, hw.record, hf]
  generalize f₁ w₁.record = r
  obtain ⟨hresult, hmachine⟩ :
      ((r.save c₁.settings.statePath).run w₁.machine).1 =
        (((ρ.record r).save c₁.settings.statePath).run w₂.machine).1 ∧
      ((r.save c₁.settings.statePath).run w₁.machine).2.Alike
        (((ρ.record r).save c₁.settings.statePath).run w₂.machine).2 :=
    Form.same_save r.form (ρ.record r).form c₁.settings.statePath w₁.machine w₂.machine hw.machine
  have hsaves : w₂.saves c₁.settings.statePath (ρ.record r) = w₁.saves c₁.settings.statePath r := by
    rw [World.saves, World.saves, hresult]
  refine ⟨.ok rfl, ?_, ?_, ?_, ?_⟩
  · rw [World.setRecord_record, World.setRecord_record]
  · rw [World.setRecord_machine, World.setRecord_machine]
    exact hmachine
  · rw [World.setRecord_host, World.setRecord_host]
    exact hw.host
  · rw [World.setRecord_events, World.setRecord_events, List.map_cons, hsaves, hw.events]
    rfl

theorem onMachine {step : StateM Machine α} (h : Files.SameSteps step step) :
    Unseen ρ H c₁ c₂ (Operation.onMachine step) (Operation.onMachine step) := by
  intro w₁ w₂ hw
  obtain ⟨hresult, hmachine⟩ := h w₁.machine w₂.machine hw.machine
  rw [runIn_onMachine, runIn_onMachine, hresult]
  exact ⟨.ok rfl, hw.record, hmachine, hw.host, hw.events⟩

theorem onFiles {step : FileStep α} (h : Files.SameSteps step.run step.run) :
    Unseen ρ H c₁ c₂ (Operation.onFiles step) (Operation.onFiles step) := by
  refine .seq (onMachine h) fun result => ?_
  cases result with
  | ok a => exact .same a
  | error f => exact .throw f

end InStep

namespace Service

/-! ## The session -/

section Session

variable (h : AnswerAlike ρ H c₁ c₂)

include h

theorem disconnected_unseen (what : String) (f : Fault) :
    Unseen ρ H c₁ c₂ (disconnected what f : Operation σ α) (disconnected what f) :=
  .seq (.update h fun _ => rfl) fun _ => .throw f

theorem prepareCache_unseen : Unseen ρ H c₁ c₂ prepareCache prepareCache :=
  .seq (.settings h.settings) fun s => .seq (.call h (by trivial)) fun _ =>
    .ite .rfl (.same _) (.call (c := .createDataset s.pool s.cacheDataset _) h (by trivial))

/-- The engine is told the secrets, and answers alike. -/
theorem connect_unseen (store : Store) (password : String) : Unseen ρ H c₁ c₂
    (call (.connect store password)) (call (.connect (ρ.store store) (ρ.password.mask password))) :=
  (InStep.counterpart h (.connect store password)).mono fun _ _ => eq_of_heq

@[inherit_doc connect_unseen]
theorem create_unseen (store : Store) (password : String) : Unseen ρ H c₁ c₂
    (call (.create store password)) (call (.create (ρ.store store) (ρ.password.mask password))) :=
  (InStep.counterpart h (.create store password)).mono fun _ _ => eq_of_heq

theorem connectOrCreate_unseen (store : Store) (password : String) : Unseen ρ H c₁ c₂
    (connectOrCreate store password) (connectOrCreate (ρ.store store) (ρ.password.mask password)) := by
  refine .seq (connect_unseen h store password) fun first => ?_
  cases first with
  | ok _ => exact .same _
  | error f =>
    refine .seq (create_unseen h store password) fun created => ?_
    cases created with
    | ok _ => exact .seq (connect_unseen h store password) fun _ => .same _
    | error f => exact .same _

theorem ensureConnected_unseen : Unseen ρ H c₁ c₂ ensureConnected ensureConnected := by
  refine .record fun r => ?_
  rw [show (ρ.record r).config.validate = r.config.validate.map ρ.store from ρ.validate_config r.config]
  cases r.config.validate with
  | error defect => exact disconnected_unseen h _ _
  | ok store =>
    refine .ite .rfl (.same ()) (.seq (prepareCache_unseen h) fun made => ?_)
    cases made with
    | error f => exact disconnected_unseen h _ _
    | ok _ =>
      refine .seq (connectOrCreate_unseen h store r.config.password) fun opened => ?_
      cases opened with
      | error f => exact disconnected_unseen h _ _
      | ok _ => exact .update h fun _ => rfl

theorem start_unseen : Unseen ρ H c₁ c₂ start start :=
  .seq (.record fun _ => .same _) fun _ => .ite .rfl (ensureConnected_unseen h) (.same ())

theorem stop_unseen : Unseen ρ H c₁ c₂ stop stop := by
  refine .update h fun r => ?_
  dsimp only
  rw [apply_ite ρ.record, apply_ite ρ.record]
  rfl

/-- The records that come back are twins as well. -/
theorem get_unseen : InStep c₁ c₂ (Twins ρ H) (fun r r' => r' = ρ.record r) get get := by
  refine .bind (R := fun r r' => r' = ρ.record r) (fun w₁ w₂ hw => ⟨.ok hw.record, hw⟩) ?_
  rintro r _ rfl
  refine .ite .rfl (.pure rfl) (.seq (InStep.call h (by trivial)) fun listed => ?_)
  cases listed with
  | error f => exact .pure rfl
  | ok snapshots =>
    exact .seq (InStep.update h fun _ => rfl) fun _ => fun w₁ w₂ hw => ⟨.ok hw.record, hw⟩

end Session

/-! ## A backup -/

section Backup

variable (h : AnswerAlike ρ H c₁ c₂)

include h

theorem firstFree?_unseen (pool : String) : ∀ names, Unseen ρ H c₁ c₂
    (PoolSnapshot.firstFree? pool names) (PoolSnapshot.firstFree? pool names)
  | [] => .same none
  | _ :: names => .seq (.call h (by trivial)) fun _ =>
      .ite .rfl (firstFree?_unseen pool names) (.same _)

theorem take_unseen (pool : String) (purpose : Purpose) (t : Instant) : Unseen ρ H c₁ c₂
    (PoolSnapshot.take pool purpose t) (PoolSnapshot.take pool purpose t) := by
  refine .seq (firstFree?_unseen h pool _) fun found => ?_
  cases found with
  | none => exact .throw _
  | some s => exact .seq (.call h (by trivial)) fun reply => .seq (.ofReply reply) fun _ => .same s

theorem view_unseen (s : PoolSnapshot) : Unseen ρ H c₁ c₂ s.view s.view :=
  .seq (.call h (by trivial)) fun reply => .seq (.ofReply reply) fun _ =>
    .seq (InStep.onMachine (Files.same_isThere _)) fun _ => .ite .rfl (.same _) (.throw _)

theorem refuseBackup_unseen (status detail : String) :
    Unseen ρ H c₁ c₂ (refuseBackup status detail : Operation σ α) (refuseBackup status detail) :=
  .seq (.update h fun _ => rfl) fun _ => .throw _

theorem admitBackup_unseen (r : Record) (now : Instant) :
    Unseen ρ H c₁ c₂ (admitBackup r now) (admitBackup (ρ.record r) now) := by
  refine .seq (.settings h.settings) fun s => .guard .rfl (refuseBackup_unseen h _ _) fun _ =>
    .guard .rfl (refuseBackup_unseen h _ _) fun _ => ?_
  cases Window.active? s.windows now with
  | none => exact refuseBackup_unseen h _ _
  | some window =>
    exact .seq (.call h (by trivial)) fun _ => .ite .rfl (.same window) (refuseBackup_unseen h _ _)

theorem claim_unseen (status : String) : Unseen ρ H c₁ c₂ (claim status) (claim status) := by
  refine .record fun r => .seq (.update h fun r => ?_) fun _ => .same _
  rw [apply_ite ρ.record]
  rfl

theorem upload_unseen (s : PoolSnapshot) (now : Instant) :
    Unseen ρ H c₁ c₂ (upload s now) (upload s now) := by
  refine .seq (view_unseen h s).outcome_eq fun path => ?_
  cases path with
  | error f => exact .same _
  | ok path =>
    exact .seq (.update h fun _ => rfl) fun _ => .seq (.call h (by trivial)) fun _ => .same _

theorem applyRetention_unseen (policy : Retention) :
    Unseen ρ H c₁ c₂ (applyRetention policy) (applyRetention policy) :=
  .ite .rfl (.same false) (.seq (.call h (by trivial)) fun reply => .seq (.ofReply reply) fun _ => .same true)

theorem backupCycle_unseen (retention : Retention) (window : Option String) (now : Instant) :
    Unseen ρ H c₁ c₂ (backupCycle retention window now) (backupCycle retention window now) := by
  refine .seq (.settings h.settings) fun s => .seq (take_unseen h _ _ now).outcome_eq fun taken => ?_
  cases taken with
  | error f => exact .seq (.update h fun _ => rfl) fun _ => .throw f
  | ok snapshot =>
    refine .seq (upload_unseen h snapshot now) fun uploaded => ?_
    rcases uploaded with ⟨status, f⟩ | ⟨⟩
    · exact .seq (.call h (by trivial)) fun _ => .seq (.update h fun _ => rfl) fun _ =>
        .guard .rfl (.update h fun _ => rfl) fun _ => .throw f
    · exact .seq (.update h fun _ => rfl) fun _ =>
        .seq (applyRetention_unseen h retention).outcome_eq fun _ =>
          .seq (.update h fun _ => rfl) fun _ => .seq (.call h (by trivial)) fun _ =>
            .seq (.call h (by trivial)) fun _ => .update h fun _ => rfl

theorem backup_unseen : Unseen ρ H c₁ c₂ backup backup := by
  refine .seq (.call h (by trivial)) fun now => .record fun r => .seq (admitBackup_unseen h r now)
    fun window => .seq (claim_unseen h _) fun _ => .guard .rfl (.throw _) fun _ => ?_
  rw [show (ρ.record r).config.readFrequency = r.config.readFrequency from ρ.readFrequency_config _]
  exact backupCycle_unseen h r.config.retention _ now

end Backup

/-! ## A restore -/

section Restore

variable (h : AnswerAlike ρ H c₁ c₂)

include h

theorem isManaged_unseen (d : Dependent) : Unseen ρ H c₁ c₂ (isManaged d) (isManaged d) :=
  .seq (.settings h.settings) fun _ =>
    .ite .rfl (.same false) (.call (c := .shouldStart d) h (by trivial))

theorem ifManaged_unseen {act₁ : Dependent → Operation σ Unit} {act₂ : Dependent → Operation τ Unit}
    (hact : ∀ d, Unseen ρ H c₁ c₂ (act₁ d) (act₂ d)) (d : Dependent) :
    Unseen ρ H c₁ c₂ (ifManaged act₁ d) (ifManaged act₂ d) :=
  .seq (isManaged_unseen h d) fun _ => .ite .rfl (hact d) (.same ())

theorem stopUnit_unseen (d : Dependent) : Unseen ρ H c₁ c₂ (stopUnit d) (stopUnit d) :=
  .seq (.call h (by trivial)) fun _ => .same ()

theorem startUnit_unseen (d : Dependent) : Unseen ρ H c₁ c₂ (startUnit d) (startUnit d) :=
  .seq (.call h (by trivial)) fun _ => .same ()

theorem stopDependents_unseen : Unseen ρ H c₁ c₂ stopDependents stopDependents :=
  .seq (.call h (by trivial)) fun _ => .seq (.forM (stopUnit_unseen h) _) fun _ =>
    .seq (.call h (by trivial)) fun _ => .forM (ifManaged_unseen h (stopUnit_unseen h)) _

theorem startDependents_unseen : Unseen ρ H c₁ c₂ startDependents startDependents :=
  .seq (.call h (by trivial)) fun _ => .seq (.forM (ifManaged_unseen h (startUnit_unseen h)) _) fun _ =>
    .seq (.call h (by trivial)) fun _ => .forM (startUnit_unseen h) _

theorem failKeeping_unseen (safety : PoolSnapshot) (what : String) (f result : Fault) :
    Unseen ρ H c₁ c₂ (failKeeping safety what f result : Operation σ α)
      (failKeeping safety what f result) :=
  .seq (.update h fun _ => rfl) fun _ => .throw result

theorem fetchAndApply_unseen (id : String) (safety : PoolSnapshot) (mountpoint : String) :
    Unseen ρ H c₁ c₂ (fetchAndApply id safety mountpoint) (fetchAndApply id safety mountpoint) := by
  have hdrop (path : String) : Unseen ρ H c₁ c₂ (Operation.onMachine (dropStaging path))
      (Operation.onMachine (dropStaging path)) := InStep.onMachine (same_dropStaging path)
  refine .seq (.update h fun _ => rfl) fun _ =>
    .seq (InStep.onFiles (same_makeStaging _)).outcome_eq fun made => ?_
  cases made with
  | error f => exact failKeeping_unseen h _ _ _ _
  | ok _ =>
    refine .seq (.update h fun _ => rfl) fun _ => .seq (.call h (by trivial)) fun fetched => ?_
    cases fetched with
    | error f =>
      exact .seq (.update h fun _ => rfl) fun _ => .seq (hdrop _) fun _ => .throw _
    | ok _ =>
      refine .seq (.update h fun _ => rfl) fun _ => .seq (.call h (by trivial)) fun applied =>
        .seq (hdrop _) fun _ => ?_
      cases applied with
      | error f => exact .seq (.update h fun _ => rfl) fun _ => .throw f
      | ok _ =>
        exact .seq (.update h fun _ => rfl) fun _ => .seq (startDependents_unseen h) fun _ =>
          .update h fun _ => rfl

theorem restoreCycle_unseen (id : String) :
    Unseen ρ H c₁ c₂ (restoreCycle id) (restoreCycle id) := by
  refine .seq (.settings h.settings) fun s => .seq (stopDependents_unseen h) fun _ =>
    .seq (.update h fun _ => rfl) fun _ => .seq (.call h (by trivial)) fun now =>
      .seq (take_unseen h s.pool .safety now).outcome_eq fun taken => ?_
  cases taken with
  | error f => exact .seq (.update h fun _ => rfl) fun _ => .throw _
  | ok safety =>
    refine .seq (.update h fun _ => rfl) fun _ => .seq (.call h (by trivial)) fun mounted => ?_
    cases mounted with
    | error f => exact failKeeping_unseen h _ _ _ _
    | ok mountpoint => exact fetchAndApply_unseen h id safety mountpoint

theorem refuseRestore_unseen (detail : String) :
    Unseen ρ H c₁ c₂ (refuseRestore detail : Operation σ α) (refuseRestore detail) :=
  .seq (.update h fun _ => rfl) fun _ => .throw _

theorem admitRestore_unseen (id : String) :
    Unseen ρ H c₁ c₂ (admitRestore id) (admitRestore id) := by
  refine .record fun r => .seq (.settings h.settings) fun s => ?_
  have hpool (there : Bool) : Unseen ρ H c₁ c₂
      (if !there then refuseRestore ("pool " ++ s.pool ++ " not found") else pure ())
      (if !there then refuseRestore ("pool " ++ s.pool ++ " not found") else pure ()) :=
    .ite .rfl (refuseRestore_unseen h _) (.same ())
  exact .guard .rfl (.throw _) fun _ => .guard .rfl (.throw _) fun _ =>
    .guard .rfl (refuseRestore_unseen h _) fun _ => .seq (.call h (by trivial)) hpool

theorem restore_unseen (id : String) : Unseen ρ H c₁ c₂ (restore id) (restore id) := by
  have htry : Unseen ρ H c₁ c₂ (tryRestore (Text.trim id)) (tryRestore (Text.trim id)) :=
    .seq (admitRestore_unseen h _) fun _ => .seq (claim_unseen h _) fun _ =>
      .guard .rfl (.throw _) fun _ => restoreCycle_unseen h _
  exact .seq htry.outcome_eq fun result => .seq (.update h fun _ => rfl) fun _ => .ofReply result

end Restore

/-! ## Everything that can be asked -/

section Actions

variable (h : AnswerAlike ρ H c₁ c₂)

include h

theorem update_unseen (requested : Config) :
    Unseen ρ H c₁ c₂ (update requested) (update (ρ.config requested)) := by
  refine .record fun r => ?_
  rw [show (ρ.record r).config = ρ.config r.config from rfl]
  dsimp only
  rw [Renaming.takeRestoreOrder_config]
  refine .guard .rfl (stop_unseen h) fun _ => ?_
  rcases Config.takeRestoreOrder r.config requested with ⟨order, requested⟩
  have hend : Unseen ρ H c₁ c₂
      (do Operation.update (configured requested r.config)
          if requested.enabled then ensureConnected)
      (do Operation.update (configured (ρ.config requested) (ρ.config r.config))
          if (ρ.config requested).enabled then ensureConnected) :=
    .seq (.update h fun r' => Renaming.configured_record ρ requested r.config r') fun _ =>
      .ite .rfl (ensureConnected_unseen h) (.same ())
  cases order with
  | none => exact hend
  | some id => exact .seq (restore_unseen h id) fun _ => hend

theorem attend_unseen (now : Instant) : Unseen ρ H c₁ c₂ (attend now) (attend now) := by
  refine .record fun r => .seq (.settings h.settings) fun s => ?_
  rw [Renaming.decide_record]
  cases Schedule.decide r s.windows now with
  | error defect => exact .guard .rfl (.update h fun _ => rfl) fun _ => .throw _
  | ok decision =>
    cases decision with
    | run reason => exact .seq (backup_unseen h) fun _ => .same _
    | skip reason => exact .same _

theorem tick_unseen : Unseen ρ H c₁ c₂ tick tick := by
  rw [tick_eq, tick_eq]
  exact .seq (.call h (by trivial)) fun now => .record fun r =>
    .ite .rfl (.seq (ensureConnected_unseen h).outcome_eq fun _ => attend_unseen h now)
      (attend_unseen h now)

/-- Whatever is asked of both services, up to the secrets in it, comes to the same. -/
theorem perform_unseen (a : Action) : Unseen ρ H c₁ c₂ (perform a) (perform (ρ.action a)) := by
  cases a with
  | update requested => exact update_unseen h requested
  | start => exact start_unseen h
  | stop => exact stop_unseen h
  | get => exact .bind (get_unseen h) fun _ _ _ => .same ()
  | tick => exact .seq (tick_unseen h) fun _ => .same ()
  | backup => exact backup_unseen h
  | restore id => exact restore_unseen h id
  | apply r =>
    cases r with
    | update requested => exact update_unseen h requested
    | restore id => exact .record fun r => update_unseen h { r.config with restoreTrigger := id }
    | backup => exact .seq (start_unseen h) fun _ => backup_unseen h

end Actions

/-! ## Whole runs -/

/-- What a record shows: its status, and the report on it. -/
def shown (r : Record) : Status × String := (r.status, r.report)

theorem shown_record (r : Record) : shown (ρ.record r) = shown r := by
  rw [shown, Renaming.report_record, shown]
  rfl

/-- Twins show the same, now and in all that was put in place so far. -/
theorem twins_show {w₁ : World σ} {w₂ : World τ} (hw : Twins ρ H w₁ w₂) :
    shown w₂.record = shown w₁.record ∧
      w₂.updates.map shown = w₁.updates.map shown := by
  have hevents (es : List Event) : ((es.map ρ.event).filterMap Event.record?).map shown =
      (es.filterMap Event.record?).map shown := by
    induction es with
    | nil => rfl
    | cons e es ih =>
      cases e with
      | called c reply => cases c <;> exact ih
      | updated r saved => exact congrArg₂ List.cons (shown_record r) ih
  refine ⟨?_, ?_⟩
  · rw [hw.record, shown_record]
  · rw [World.updates, hw.events, hevents, World.updates]

theorem after_twins (h : AnswerAlike ρ H c₁ c₂) : ∀ (actions : List Action) {w₁ : World σ} {w₂ : World τ},
    Twins ρ H w₁ w₂ → outcomes c₂ w₂ (actions.map ρ.action) = outcomes c₁ w₁ actions ∧
      Twins ρ H (after c₁ w₁ actions) (after c₂ w₂ (actions.map ρ.action))
  | [], _, _, hw => ⟨rfl, hw⟩
  | a :: actions, w₁, w₂, hw => by
    obtain ⟨hend, hw'⟩ := perform_unseen h a w₁ w₂ hw
    obtain ⟨houtcomes, hworlds⟩ := after_twins h actions hw'
    exact ⟨congrArg₂ List.cons hend.eq.symm houtcomes, hworlds⟩

/-- Two services that differ in the values of their secrets alone, asked for the same and answered alike,
come to the same outcomes and faults. After every number of actions, and after each update in the middle
of one, they have the same status and are reported in the same words. -/
theorem secrets_unseen (h : AnswerAlike ρ H c₁ c₂) {w₁ : World σ} {w₂ : World τ}
    (hw : Twins ρ H w₁ w₂) (actions : List Action) :
    outcomes c₂ w₂ (actions.map ρ.action) = outcomes c₁ w₁ actions ∧
      (after c₂ w₂ (actions.map ρ.action)).record.status = (after c₁ w₁ actions).record.status ∧
      (after c₂ w₂ (actions.map ρ.action)).record.report = (after c₁ w₁ actions).record.report ∧
      (after c₂ w₂ (actions.map ρ.action)).updates.map shown = (after c₁ w₁ actions).updates.map shown := by
  obtain ⟨houtcomes, hworlds⟩ := after_twins h actions hw
  obtain ⟨hrecord, hupdates⟩ := twins_show hworlds
  simp only [shown, Prod.mk.injEq] at hrecord
  exact ⟨houtcomes, hrecord.1, hrecord.2, hupdates⟩

/-- Other secrets than those of the sample configuration. -/
def otherSecrets : Renaming where
  password := .exchange "secret" "correct horse" (by decide) (by decide)
  accessKey := .exchange "key" "another key" (by decide) (by decide)
  secretKey := .exchange "hush" "quiet" (by decide) (by decide)

/-- A backup with other secrets looks the same. -/
theorem secrets_unseen_backup :
    (otherSecrets.config sampleConfig).password ≠ sampleConfig.password ∧
      outcomes agreeableContext ⟨{}, {}, (), []⟩ [.update (otherSecrets.config sampleConfig), .backup] =
        outcomes agreeableContext ⟨{}, {}, (), []⟩ [.update sampleConfig, .backup] ∧
      (after agreeableContext ⟨{}, {}, (), []⟩
          [.update (otherSecrets.config sampleConfig), .backup]).record.report =
        (after agreeableContext ⟨{}, {}, (), []⟩ [.update sampleConfig, .backup]).record.report := by
  have halike : AnswerAlike otherSecrets (fun _ _ => True) agreeableContext agreeableContext := by
    refine ⟨rfl, fun c w₁ w₂ hw => ⟨?_, hw.record, ?_, trivial, hw.events⟩⟩
    · cases c <;> rfl
    · cases c <;> exact hw.machine
  have htwins : Twins otherSecrets (fun _ _ => True) (⟨{}, {}, (), []⟩ : World Unit) ⟨{}, {}, (), []⟩ :=
    ⟨by decide, .refl _, trivial, rfl⟩
  obtain ⟨houtcomes, -, hreport, -⟩ :=
    secrets_unseen halike htwins [.update sampleConfig, .backup]
  exact ⟨by decide, houtcomes, hreport⟩

end Service

end PoolKeeper
