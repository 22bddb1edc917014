import PoolKeeper.Proofs.Lifetime
import PoolKeeper.Proofs.RestoreCommand

/-!
# `PoolKeeper/Proofs/OrderFirst.lean` — a configuration that carries an order

An update whose configuration carries an order for a restore is two things, one after the other: the
restore, which works on the record as it was, and `takeOver`, which sees to the rest of the
configuration. Nothing of the rest reaches the restore (`update_of_orders`), with one exception. An
update that disables the service ends the session before anything else, so the restore finds none and is
refused (`update_of_disabling`). Which of the two happens is decided by `enabled` alone, and that is what
`order_runs_first` says about all configurations that carry one order.
-/

set_option autoImplicit false

namespace PoolKeeper

namespace Config

variable {previous requested : Config}

/-- The configuration carries an order for a restore that `previous` does not know. -/
def Orders (previous requested : Config) : Prop :=
  Text.trim requested.restoreTrigger ≠ "" ∧
    Text.trim requested.restoreTrigger ≠ Text.trim previous.restoreTrigger

theorem takeRestoreOrder_of_orders (h : previous.Orders requested) :
    takeRestoreOrder previous requested =
      (some (Text.trim requested.restoreTrigger), requested.clearTrigger) := by
  simp only [takeRestoreOrder, h.1, h.2, decide_false, Bool.or_self, Bool.false_eq_true, if_false]

/-- The service is enabled, and the configuration asks that it is not. -/
def Disables (previous requested : Config) : Prop :=
  previous.enabled = true ∧ requested.enabled = false

instance (previous requested : Config) : Decidable (Disables previous requested) :=
  inferInstanceAs (Decidable (_ ∧ _))

theorem disables_iff :
    (previous.enabled && !requested.enabled) = true ↔ previous.Disables requested := by
  rw [Bool.and_eq_true, Bool.not_eq_true', Disables]

end Config

namespace Service

open Operation

variable {σ : Type} {ctx : Context σ} {w : World σ} {requested : Config}

/-- What an update does last: it takes the configuration over, with whatever is left of it. -/
def takeOver (requested previous : Config) : Operation σ Unit := do
  Operation.update (configured requested previous)
  if requested.enabled then ensureConnected

/-- The identifier of the snapshot is trimmed once. -/
theorem restore_trim (id : String) : (restore (Text.trim id) : Operation σ Unit) = restore id := by
  rw [restore, restore, Text.trim_trim]

/-- The restore runs on the record as it was, and what else was requested is seen to afterwards. -/
theorem update_of_orders (horder : w.record.config.Orders requested)
    (hkept : ¬ w.record.config.Disables requested) :
    runIn ctx (update requested) w = runIn ctx (do
      restore requested.restoreTrigger
      takeOver requested.clearTrigger w.record.config) w := by
  have hon : ¬ (w.record.config.enabled && !requested.enabled) = true :=
    fun h => hkept (Config.disables_iff.mp h)
  rw [update, runIn_bind, runIn_record]
  simp only [hon, Config.takeRestoreOrder_of_orders horder, restore_trim]
  rfl

/-- The record after the session was ended while nothing was running. -/
def stopped (r : Record) : Record :=
  { r with status := { r.status with connected := false, progress := 0 } }

theorem runIn_stop (hidle : w.record.status.inProgress = false)
    (henabled : w.record.config.enabled = true) :
    runIn ctx stop w = (.ok (), w.setRecord ctx.settings.statePath (stopped w.record)) := by
  simp only [stop, runIn_update, stopped, henabled, Bool.not_true, Bool.false_eq_true, if_false,
    Record.setConnected, hidle]

/-- The record that an update leaves which disables the service and carries an order. -/
def overruled (r : Record) : Record :=
  { sessionMissed (stopped r) with config := r.config.clearTrigger }

/-- An update that disables the service takes the session from the restore that it carries. -/
theorem update_of_disabling (hidle : w.record.status.inProgress = false)
    (horder : w.record.config.Orders requested) (hdisables : w.record.config.Disables requested) :
    runIn ctx (update requested) w = (.error noSession,
      ((w.setRecord ctx.settings.statePath (stopped w.record)).setRecord ctx.settings.statePath
        (sessionMissed (stopped w.record))).setRecord ctx.settings.statePath (overruled w.record)) := by
  have hoff : (w.record.config.enabled && !requested.enabled) = true :=
    Config.disables_iff.mpr hdisables
  have hid : Text.trim requested.restoreTrigger ≠ "" := horder.1
  rw [update, runIn_bind, runIn_record]
  simp only [hoff, if_true, runIn_bind, runIn_stop hidle hdisables.1,
    Config.takeRestoreOrder_of_orders horder, restore_trim]
  rw [restore_disconnected (by rw [World.setRecord_record]; exact hidle)
    (by rw [World.setRecord_record]; rfl) hid, World.setRecord_record]
  rfl

/-- The calls in a journal, the latest first. -/
def calls (es : List Event) : List Call := es.filterMap fun
  | .called c _ => some c
  | .updated .. => none

theorem calls_setRecord (w : World σ) (path : String) (r : Record) :
    calls (w.setRecord path r).events = calls w.events := by
  rw [World.setRecord_events]
  rfl

/-- All configurations that carry one order have it carried out alike: by the run of `restore` itself, on
the record as it was, and only then is the rest of the configuration taken over. Only those that disable
an enabled service have it refused for want of a session, and nobody is called. -/
theorem order_runs_first (id : String) (hidle : w.record.status.inProgress = false) :
    ∀ requested, w.record.config.Orders requested →
      Text.trim requested.restoreTrigger = Text.trim id →
        (¬ w.record.config.Disables requested → runIn ctx (update requested) w = runIn ctx (do
          restore id
          takeOver requested.clearTrigger w.record.config) w) ∧
        (w.record.config.Disables requested → ∃ w',
          runIn ctx (update requested) w = (.error noSession, w') ∧ calls w'.events = calls w.events ∧
            w'.host = w.host ∧ w'.record = overruled w.record) := by
  intro requested horder hid
  -- Orders that differ in the blanks around them are one order.
  have hrestore : (restore requested.restoreTrigger : Operation σ Unit) = restore id := by
    rw [← restore_trim, hid, restore_trim]
  refine ⟨fun hkept => ?_, fun hdisables => ?_⟩
  · rw [update_of_orders horder hkept, hrestore]
  · refine ⟨_, update_of_disabling hidle horder hdisables, ?_, ?_, ?_⟩
    · rw [calls_setRecord, calls_setRecord, calls_setRecord]
    · rw [World.setRecord_host, World.setRecord_host, World.setRecord_host]
    · rw [World.setRecord_record]

/-- A service that was configured and has a session. -/
def ready : World Unit := after agreeableContext ⟨{}, {}, (), []⟩ [.update sampleConfig]

/-- Its configuration with an order. -/
def ordering : Config := { sampleConfig with restoreTrigger := " k123 " }

theorem order_runs_first_ready : ready.record.status.inProgress = false ∧
    ready.record.config.Orders ordering ∧
    runIn agreeableContext (update ordering) ready = runIn agreeableContext (do
      restore "k123"
      takeOver ordering.clearTrigger ready.record.config) ready := by
  have hidle : ready.record.status.inProgress = false := by decide +kernel
  have horder : ready.record.config.Orders ordering := by
    unfold Config.Orders
    decide +kernel
  exact ⟨hidle, horder, ((order_runs_first "k123" hidle) ordering horder (by decide)).1
    (by decide +kernel)⟩

/-- Of two configurations that carry one order and differ in `enabled`, one has the snapshot fetched, as
`restore` does, and the other has nobody called. -/
theorem order_refused_when_disabling :
    ready.record.status.inProgress = false ∧ ready.record.status.connected = true ∧
      ready.record.config.Orders ordering ∧
      ready.record.config.Orders { ordering with enabled := false } ∧
      (runIn agreeableContext (restore "k123") ready).1 = .ok () ∧
      .fetch "k123" "/local/.kopia-restore-temp" ∈
        calls (runIn agreeableContext (restore "k123") ready).2.events ∧
      (runIn agreeableContext (update ordering) ready).1 = .ok () ∧
      .fetch "k123" "/local/.kopia-restore-temp" ∈
        calls (runIn agreeableContext (update ordering) ready).2.events ∧
      (runIn agreeableContext (update { ordering with enabled := false }) ready).1 =
        .error noSession ∧
      calls (runIn agreeableContext (update { ordering with enabled := false }) ready).2.events =
        calls ready.events := by
  unfold Config.Orders
  decide +kernel

end Service

end PoolKeeper
