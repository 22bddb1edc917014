import PoolKeeper.Proofs.Mirrored
import PoolKeeper.Proofs.NoRestore
import PoolKeeper.Proofs.OrderFirst
import PoolKeeper.Proofs.Provenance
import PoolKeeper.Proofs.Recovery

/-!
# `PoolKeeper/Proofs/OneShotOrder.lean` — an order is carried out once

An order for a restore comes with a configuration or a request, is carried out, and is gone. No record
that is ever held, written or left in the file has one, however the restore went and however the process
ended (`NoOrderKept`): a configuration is taken over without its order, a restore clears the order of the
record whatever became of it, and nothing else changes the configuration.

From that it follows what the next order does. There is never an older one that it could be mistaken for,
so whoever asks for a restore gets it tried, once and under the trimmed identifier (`RestoresOnce`), also
if it is the same snapshot again. And nobody who does not ask gets one.
-/

set_option autoImplicit false

namespace PoolKeeper

/-- The record holds no order for a restore. -/
def Record.HasNoOrder (r : Record) : Prop := Text.trim r.config.restoreTrigger = ""

namespace Service

open Operation

variable {σ : Type} {ctx : Context σ} {w v : World σ} {r r' : Record}

/-! ## Records without an order -/

/-- Neither the record in memory nor one that was put in place holds an order. -/
structure Unordered (w : World σ) : Prop where
  held : w.record.HasNoOrder
  written : ∀ r ∈ w.updates, r.HasNoOrder

/-- No order is held, was written or is left in the file. -/
structure NoOrderKept (path : String) (w : World σ) : Prop where
  held : w.record.HasNoOrder
  written : ∀ r saved, Event.updated r saved ∈ w.events → r.HasNoOrder
  filed : ∀ r, Record.saved? path w.machine = some r → r.HasNoOrder

theorem Continues.hasNoOrder (h : Continues r r') (hr : r.HasNoOrder) : r'.HasNoOrder := by
  unfold Record.HasNoOrder
  rwa [h.config]

theorem Restores.hasNoOrder (h : Restores r r') (hr : r.HasNoOrder) : r'.HasNoOrder := by
  rcases h with h | rfl
  · rw [h]
    exact hr
  · exact show Text.trim "" = "" by decide

theorem configured_config (requested previous : Config) (r : Record) :
    (configured requested previous r).config = requested := by
  unfold configured
  dsimp only
  split <;> rfl

theorem configured_hasNoOrder {previous : Config} (requested : Config) (r : Record)
    (h : Text.trim previous.restoreTrigger = "") :
    (configured (Config.takeRestoreOrder previous requested).2 previous r).HasNoOrder := by
  rw [Record.HasNoOrder, configured_config]
  exact takeRestoreOrder_blank requested h

theorem unordered_of_footprint {α : Type} {C : Call → Prop} {U : Record → Record → Prop}
    {op : Operation σ α} (h : Footprint ctx C U op)
    (hU : ∀ r r', U r r' → r.HasNoOrder → r'.HasNoOrder) : Preserves ctx Unordered op := by
  intro w hw
  have hsteps {w' : World σ} (h : Steps C U w w') : Unordered w' := by
    have hkept := h.keeps
      (P := fun r es => r.HasNoOrder ∧ ∀ r ∈ es.filterMap Event.record?, r.HasNoOrder)
      (fun _ _ _ _ _ hP => hP)
      (fun r r' _ _ hr hP => ⟨hU r r' hr hP.1, List.forall_mem_cons.mpr ⟨hU r r' hr hP.1, hP.2⟩⟩)
      ⟨hw.held, hw.written⟩
    exact ⟨hkept.1, hkept.2⟩
  exact (h w).mono (fun _ _ => hsteps) fun _ _ => hsteps

theorem parts_unordered (hout : ctx.host.Outside) : PartsPreserve ctx Unordered where
  now := unordered_of_footprint (C := NotOfRestore) (U := Continues) (.call hout id)
    fun _ _ => Continues.hasNoOrder
  say status := unordered_of_footprint (say_continues status) fun _ _ => Continues.hasNoOrder
  connect := unordered_of_footprint (ensureConnected_continues hout) fun _ _ => Continues.hasNoOrder
  get := unordered_of_footprint (get_continues hout) fun _ _ => Continues.hasNoOrder
  stop := unordered_of_footprint stop_continues fun _ _ => Continues.hasNoOrder
  backup := unordered_of_footprint (backup_continues hout) fun _ _ => Continues.hasNoOrder
  restore id := unordered_of_footprint (restore_footprint hout id) fun _ _ => Restores.hasNoOrder
  configure requested _ hw₀ := unordered_of_footprint (C := NotOfRestore)
    (U := fun _ r' => r'.HasNoOrder) (.update fun r => configured_hasNoOrder requested r hw₀.held)
    fun _ _ hr' _ => hr'

/-! ## Every world that a state file can see -/

/-- Records without an order are all that can be held or read. -/
abbrev TracedFree (path : String) (w : World σ) : Prop := Traced Record.HasNoOrder path Anything w

theorem Unordered.of_comes (hw : Unordered w) (h : Comes Record.HasNoOrder w r) : r.HasNoOrder :=
  h.elim id (hw.written r)

theorem noOrderKept {path : String} (hw : Unordered w) (htraced : TracedFree path w) :
    NoOrderKept path w where
  held := hw.held
  written r saved hr := hw.written r (List.mem_filterMap.mpr ⟨_, hr, rfl⟩)
  filed r hr := by
    obtain ⟨text, htext, hrecord⟩ := Record.exists_of_saved? hr
    obtain ⟨written, hcomes, rfl⟩ := htraced.filed text htext
    have hwritten : written.HasNoOrder := hw.of_comes hcomes
    unfold Record.HasNoOrder
    rwa [(Record.agrees_of_ofYaml? hrecord).config]

/-- A process that opens a file without an order starts without one. -/
theorem opened_unordered {path : String} {m m' : Machine} {host : σ}
    (hfiled : ∀ text, m.text? path = some text → ∃ r : Record, r.HasNoOrder ∧ text = r.yaml)
    (hopen : (openRecord path).run.run m = (.ok r, m')) :
    Unordered (⟨r, m', host, []⟩ : World σ) ∧ TracedFree path (⟨r, m', host, []⟩ : World σ) := by
  obtain ⟨rfl, hfree⟩ : m' = m ∧ r.HasNoOrder := by
    obtain ⟨rfl, rfl | ⟨text, r₀, htext, hrecord, rfl⟩⟩ := openRecord_cases hopen
    · exact ⟨rfl, show Text.trim "" = "" by decide⟩
    · obtain ⟨written, hwritten, rfl⟩ := hfiled text htext
      refine ⟨rfl, ?_⟩
      have hconfig : r₀.recovered.config = written.config := by
        rw [show r₀.recovered.config = r₀.config by unfold Record.recovered; split <;> rfl]
        exact (Record.agrees_of_ofYaml? hrecord).config
      exact show Text.trim r₀.recovered.config.restoreTrigger = "" by rw [hconfig]; exact hwritten
  refine ⟨⟨hfree, by rintro _ ⟨⟩⟩, .inl hfree, fun text htext => ?_, trivial⟩
  obtain ⟨written, hwritten, rfl⟩ := hfiled text htext
  exact ⟨written, .inl hwritten, rfl⟩

theorem watchedAfter_unordered (hout : ctx.host.Outside) (a : Action) (hw : Unordered w) :
    Unordered (watchedAfter ctx a w) := by
  have hout' : ctx.watched.host.Outside := fun c w => hout c ⟨w.record, w.machine, w.host.1, w.events⟩
  have hbegin : Unordered (⟨w.record, w.machine, (w.host, []), w.events⟩ : World (σ × List (World σ))) :=
    ⟨hw.held, hw.written⟩
  exact ((parts_unordered hout').perform a _ hbegin).of_runIn

/-- In the middle of an action there is no order either. -/
theorem moments_unordered (hout : ctx.host.Outside)
    (hspares : ctx.host.Spares ctx.settings.statePath) {a : Action} (hw : Unordered w)
    (htraced : TracedFree ctx.settings.statePath w) (hv : v ∈ moments ctx a w) :
    Unordered v ∧ TracedFree ctx.settings.statePath v := by
  obtain ⟨hv', hsuffix⟩ := moments_traced hout hspares htraced hv
  have hend := watchedAfter_unordered hout a hw
  have hwritten : ∀ r ∈ v.updates, r.HasNoOrder := fun r hr =>
    hend.written r ((hsuffix.filterMap Event.record?).subset hr)
  exact ⟨⟨hv'.held.elim id (hwritten _), hwritten⟩, hv'⟩

theorem lives_unordered (hout : ctx.host.Outside) (hspares : ctx.host.Spares ctx.settings.statePath)
    (h : Lives ctx w) : Unordered w ∧ TracedFree ctx.settings.statePath w := by
  have hfiled {w : World σ} (hw : Unordered w ∧ TracedFree ctx.settings.statePath w) (text : String)
      (htext : w.machine.text? ctx.settings.statePath = some text) :
      ∃ r : Record, r.HasNoOrder ∧ text = r.yaml := by
    obtain ⟨r, hr, htext⟩ := hw.2.filed text htext
    exact ⟨r, hw.1.of_comes hr, htext⟩
  induction h with
  | born hmissing hopen =>
    refine opened_unordered (fun text htext => ?_) hopen
    cases htext.symm.trans (Files.text?_of_refused hmissing)
  | act _ a ih =>
    exact ⟨((parts_unordered hout).perform a _ ih.1).of_runIn, perform_traced hout hspares a ih.2⟩
  | elsewhere _ hm ih =>
    exact ⟨⟨ih.1.held, ih.1.written⟩, ih.2.held, fun text htext => ih.2.filed text (hm text htext), trivial⟩
  | restart _ hopen ih => exact opened_unordered (hfiled ih) hopen
  | crash _ a hv hopen ih =>
    exact opened_unordered (hfiled (moments_unordered hout hspares ih.1 ih.2 hv)) hopen

/-! ## Orders that are carried out -/

/-- The snapshot that a trigger asks for. -/
def orderIn (trigger : String) : Option String :=
  if Text.trim trigger = "" then none else some (Text.trim trigger)

/-- The snapshot that the action asks to restore. -/
def Action.order? : Action → Option String
  | .update requested | .apply (.update requested) => orderIn requested.restoreTrigger
  | .apply (.restore id) => orderIn id
  | .restore id => some (Text.trim id)
  | _ => none

/-- The action is one restore of the snapshot, with the end of the session before it at most, and the
taking over of a configuration after it; neither does anything that a restore does. -/
def RestoresOnce (ctx : Context σ) (id : String) (a : Action) (w : World σ) : Prop :=
  ∃ before after : Operation σ Unit,
    (before = pure () ∨ before = stop) ∧ Footprint ctx NotOfRestore Continues before ∧
    (after = pure () ∨ ∃ requested previous, after = takeOver requested previous) ∧
    Footprint ctx NotOfRestore TakenForBackup after ∧
    runIn ctx (perform a) w = runIn ctx (do before; restore id; after) w

/-- What an update does before it looks at the order. -/
def endSession (previous requested : Config) : Operation σ Unit :=
  if previous.enabled && !requested.enabled then stop else pure ()

theorem update_eq (requested : Config) : runIn ctx (update requested) w = runIn ctx (do
    endSession w.record.config requested
    (match (Config.takeRestoreOrder w.record.config requested).1 with
      | some id => restore id
      | none => pure ())
    takeOver (Config.takeRestoreOrder w.record.config requested).2 w.record.config) w := by
  rw [update, runIn_bind, runIn_record, endSession]
  simp only
  rcases Config.takeRestoreOrder w.record.config requested with ⟨_ | id, requested'⟩ <;> split <;> rfl

theorem takeOver_footprint (hout : ctx.host.Outside) (requested previous : Config) :
    Footprint ctx NotOfRestore TakenForBackup (takeOver requested previous : Operation σ Unit) := by
  refine .bind (.update fun r => .of_eq ?_) fun _ => .ite
    ((ensureConnected_continues hout).mono (fun _ => id) fun _ _ h => h.slot) (.pure ())
  unfold configured
  dsimp only
  split <;> rfl

theorem endSession_footprint (previous requested : Config) :
    Footprint ctx NotOfRestore Continues (endSession previous requested : Operation σ Unit) :=
  .ite stop_continues (.pure ())

/-- Where the record holds no order, an update with one has it carried out. -/
theorem update_restoresOnce (hout : ctx.host.Outside) (hw : w.record.HasNoOrder) {requested : Config}
    {id : String} (h : orderIn requested.restoreTrigger = some id) :
    RestoresOnce ctx id (.update requested) w := by
  obtain ⟨hne, rfl⟩ : Text.trim requested.restoreTrigger ≠ "" ∧
      Text.trim requested.restoreTrigger = id := by
    unfold orderIn at h
    split at h
    · cases h
    next hne => exact ⟨hne, Option.some.inj h⟩
  have horder : w.record.config.Orders requested := ⟨hne, fun heq => hne (heq.trans hw)⟩
  refine ⟨endSession w.record.config requested, takeOver requested.clearTrigger w.record.config, ?_,
    endSession_footprint _ _, .inr ⟨_, _, rfl⟩, takeOver_footprint hout _ _, ?_⟩
  · unfold endSession
    split
    · exact .inr rfl
    · exact .inl rfl
  · rw [perform, update_eq, Config.takeRestoreOrder_of_orders horder]

/-- An update without an order restores nothing. -/
theorem update_continues (hout : ctx.host.Outside) {requested : Config}
    (h : orderIn requested.restoreTrigger = none) :
    Steps NotOfRestore TakenForBackup w (runIn ctx (update requested) w).2 := by
  have hblank : Text.trim requested.restoreTrigger = "" := by
    unfold orderIn at h
    split at h
    next hblank => exact hblank
    next => cases h
  have htaken : Config.takeRestoreOrder w.record.config requested = (none, requested) := by
    simp [Config.takeRestoreOrder, hblank]
  rw [update_eq, htaken]
  have hend : Footprint ctx NotOfRestore TakenForBackup
      (endSession w.record.config requested : Operation σ Unit) :=
    (endSession_footprint _ _).mono (fun _ => id) fun _ _ h => h.slot
  have hall := hend.bind fun _ => (Footprint.pure ()).bind fun _ =>
    takeOver_footprint hout requested w.record.config
  exact (hall w).of_runIn

/-- A request for a restore is an update of the configuration with an order in it. -/
theorem perform_request (id : String) : runIn ctx (perform (.apply (.restore id))) w =
    runIn ctx (perform (.update { w.record.config with restoreTrigger := id })) w := by
  rw [perform, perform, apply, runIn_bind, runIn_record]

/-- Whoever asks for a restore gets it tried once. -/
theorem perform_restoresOnce (hout : ctx.host.Outside) (hw : w.record.HasNoOrder) {a : Action}
    {id : String} (h : a.order? = some id) : RestoresOnce ctx id a w := by
  have hself {id' : String} (hid : Text.trim id' = id) : RestoresOnce ctx id (.restore id') w := by
    refine ⟨pure (), pure (), .inl rfl, .pure (), .inl rfl, .pure (), ?_⟩
    rw [perform, pure_bind, bind_pure_unit, ← hid, restore_trim]
  cases a with
  | update requested => exact update_restoresOnce hout hw h
  | restore id' => exact hself (Option.some.inj h)
  | apply r =>
    cases r with
    | update requested => exact update_restoresOnce hout hw h
    | restore id' =>
      have honce : RestoresOnce ctx id (.update { w.record.config with restoreTrigger := id' }) w :=
        update_restoresOnce hout hw h
      unfold RestoresOnce at honce ⊢
      rwa [perform_request]
    | backup => cases h
  | start | stop | get | tick | backup => cases h

/-- Nobody else gets one. -/
theorem perform_continues (hout : ctx.host.Outside) {a : Action} (h : a.order? = none) :
    Steps NotOfRestore TakenForBackup w (runIn ctx (perform a) w).2 := by
  have hslot {α : Type} {op : Operation σ α} (hop : Footprint ctx NotOfRestore Continues op) :
      Footprint ctx NotOfRestore TakenForBackup op := hop.mono (fun _ => id) fun _ _ h => h.slot
  cases a with
  | update requested => exact update_continues hout h
  | start => exact (hslot (start_continues hout) w).of_runIn
  | stop => exact (hslot stop_continues w).of_runIn
  | get => exact ((hslot (get_continues hout)).bind (fun _ => .pure ()) w).of_runIn
  | tick => exact ((hslot (tick_continues hout)).bind (fun _ => .pure ()) w).of_runIn
  | backup => exact (hslot (backup_continues hout) w).of_runIn
  | restore id => cases h
  | apply r =>
    cases r with
    | update requested => exact update_continues hout h
    | restore id =>
      have hnone : orderIn { w.record.config with restoreTrigger := id }.restoreTrigger = none := h
      rw [perform_request]
      exact update_continues hout hnone
    | backup =>
      exact ((hslot (start_continues hout)).bind (fun _ => hslot (backup_continues hout)) w).of_runIn

/-- As long as others write no state files, no order for a restore is ever kept, neither in memory nor in
the journal nor in the file, and neither between two actions nor in the middle of one. So every action
that asks for a restore has it tried exactly once, under the trimmed identifier and whatever was asked
before, and no other action starts one. -/
theorem order_never_kept (hout : ctx.host.Outside) (hspares : ctx.host.Spares ctx.settings.statePath)
    (h : Lives ctx w) : NoOrderKept ctx.settings.statePath w ∧
      (∀ a, ∀ v ∈ moments ctx a w, NoOrderKept ctx.settings.statePath v) ∧
      (∀ a id, a.order? = some id → RestoresOnce ctx id a w) ∧
      ∀ a, a.order? = none → Steps NotOfRestore TakenForBackup w (runIn ctx (perform a) w).2 := by
  obtain ⟨hw, htraced⟩ := lives_unordered hout hspares h
  refine ⟨noOrderKept hw htraced, fun a v hv => ?_, fun a id => perform_restoresOnce hout hw.held,
    fun a => perform_continues hout⟩
  obtain ⟨hv, htraced'⟩ := moments_unordered hout hspares hw htraced hv
  exact noOrderKept hv htraced'

/-- The same order is carried out again, and a look at the schedule in between restores nothing. -/
theorem order_never_kept_repeated :
    NoOrderKept agreeableContext.settings.statePath
        (after agreeableContext ⟨{}, {}, (), []⟩ [.update sampleConfig, .update ordering]) ∧
      RestoresOnce agreeableContext "k123" (.update ordering)
        (after agreeableContext ⟨{}, {}, (), []⟩ [.update sampleConfig, .update ordering]) ∧
      Steps NotOfRestore TakenForBackup
        (after agreeableContext ⟨{}, {}, (), []⟩ [.update sampleConfig, .update ordering])
        (after agreeableContext ⟨{}, {}, (), []⟩ [.update sampleConfig, .update ordering, .tick]) := by
  have hout : agreeableContext.host.Outside := agreeable.outside
  have hspares : agreeableContext.host.Spares agreeableContext.settings.statePath :=
    fun c w text htext => by cases c <;> exact htext
  have hlives : Lives agreeableContext
      (after agreeableContext ⟨{}, {}, (), []⟩ [.update sampleConfig, .update ordering]) :=
    Lives.after _ (.born (m := {}) rfl rfl)
  obtain ⟨hkept, -, honce, hnone⟩ := order_never_kept hout hspares hlives
  exact ⟨hkept, honce (.update ordering) "k123" (by decide), hnone .tick rfl⟩

end Service

end PoolKeeper
