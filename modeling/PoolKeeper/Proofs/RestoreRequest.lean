import PoolKeeper.Proofs.BusySlot
import PoolKeeper.Proofs.RestoreOrder
import PoolKeeper.Proofs.UpdateOutcome

/-!
# `PoolKeeper/Proofs/RestoreRequest.lean` — a request for a restore that was granted

A request names a snapshot, and is carried out as an update whose configuration orders it. Whether that
is an order depends on the record: the identifier that is in the configuration already is none, so that
a configuration which is read again restores nothing again, and a blank one is none either.

What became of an order is read off the journal. Of the calls since then only the `milestones` count,
which are those that change the pool or the repository, and the one that says where the pool is. If the
answer is that all went well, there are four, of one restore of just that snapshot.

What is no order is overlooked (`Overlooked`): the update goes on to the session, and its answer is about
nothing else. For a blank identifier that differs from what `restore` itself answers, which refuses it.
Both are said by `restored_of_request_ok`.
-/

set_option autoImplicit false

namespace PoolKeeper.Service

open Operation

variable {σ : Type} {ctx : Context σ} {w w' : World σ}

/-! ## Milestones -/

/-- The event is a call that changes the pool or the repository. -/
def isMilestone : Event → Bool
  | .called (.snapshot _) _ | .called (.destroy _) _ | .called (.upload ..) _
  | .called (.expire _) _ | .called (.fetch ..) _ | .called (.mirror ..) _ => true
  | _ => false

def milestones (es : List Event) : List Event := es.filter isMilestone

theorem milestones_cons (e : Event) (es : List Event) :
    milestones (e :: es) = milestones [e] ++ milestones es := by
  rw [← List.singleton_append, milestones, List.filter_append]
  rfl

/-- These are the milestones since `old`, and the events in `seen` are among those since then. -/
def Passed (old passed seen : List Event) (w : World σ) : Prop :=
  ∃ new, w.events = new ++ old ∧ milestones new = passed ∧ seen ⊆ new

section Passed

variable {old passed seen : List Event} {R : Fault → World σ → Prop}

theorem Passed.refl (w : World σ) : Passed w.events [] [] w := ⟨[], rfl, rfl, List.Subset.refl _⟩

/-- One more event, which is to be remembered. -/
theorem Passed.see {e : Event} (h : Passed old passed seen w) (he : w'.events = e :: w.events) :
    Passed old (milestones [e] ++ passed) (e :: seen) w' := by
  obtain ⟨new, hnew, rfl, hseen⟩ := h
  exact ⟨e :: new, by rw [he, hnew, List.cons_append], milestones_cons e new,
    List.cons_subset_cons e hseen⟩

theorem Passed.event {e : Event} (h : Passed old passed seen w) (he : w'.events = e :: w.events) :
    Passed old (milestones [e] ++ passed) seen w' := by
  obtain ⟨new, hnew, hpassed, hseen⟩ := h.see he
  exact ⟨new, hnew, hpassed, fun _ hmem => hseen (List.mem_cons_of_mem e hmem)⟩

theorem Passed.same (h : Passed old passed seen w) (he : w'.events = w.events) :
    Passed old passed seen w' := by
  obtain ⟨new, hnew, hpassed⟩ := h
  exact ⟨new, he.trans hnew, hpassed⟩

/-- Calls that are no milestones. -/
def IsMinor (c : Call) : Prop := ∀ reply, isMilestone (.called c reply) = false

theorem Passed.steps {C : Call → Prop} {U : Record → Record → Prop} (h : Passed old passed seen w)
    (hC : ∀ c, C c → IsMinor c) (hsteps : Steps C U w w') : Passed old passed seen w' := by
  refine hsteps.keeps
    (P := fun _ es => ∃ new, es = new ++ old ∧ milestones new = passed ∧ seen ⊆ new) ?_ ?_ h
  · rintro c reply _ es hc ⟨new, rfl, rfl, hseen⟩
    refine ⟨.called c reply :: new, rfl, ?_, List.subset_cons_of_subset _ hseen⟩
    rw [milestones, List.filter_cons_of_neg (by rw [hC c hc reply]; exact Bool.false_ne_true)]
    rfl
  · rintro _ r saved es _ ⟨new, rfl, rfl, hseen⟩
    exact ⟨.updated r saved :: new, rfl, rfl, List.subset_cons_of_subset _ hseen⟩

/-- An operation that passes no milestone. -/
theorem Passed.minor {α : Type} {C : Call → Prop} {U : Record → Record → Prop}
    {op : Operation σ α} (h : Passed old passed seen w) (hop : Footprint ctx C U op)
    (hC : ∀ c, C c → IsMinor c) :
    Ensures ctx op w (fun _ => Passed old passed seen) (fun _ => Passed old passed seen) :=
  (hop w).mono (fun _ _ => h.steps hC) fun _ _ => h.steps hC

end Passed

theorem IsQuestion.isMinor {c : Call} (h : IsQuestion c) : IsMinor c := by
  cases c <;> first | exact h.elim | exact fun _ => rfl

theorem AsksOrStops.isMinor {c : Call} (h : AsksOrStops c) : IsMinor c := by
  rcases h with h | ⟨d, rfl⟩
  · exact h.isMinor
  · exact fun _ => rfl

theorem AsksOrStarts.isMinor {c : Call} (h : AsksOrStarts c) : IsMinor c := by
  rcases h with h | ⟨d, rfl⟩
  · exact h.isMinor
  · exact fun _ => rfl

/-! ## A restore -/

/-- The events, the latest first, are those of one restore of the snapshot: there was a safety snapshot,
then the snapshot was fetched into a directory on the pool, and then the pool was made equal to that. -/
def Restored (pool id : String) (es : List Event) : Prop :=
  ∃ safety mountpoint, IsSafetyName pool safety ∧
    .called (.mountpoint pool) (.ok mountpoint) ∈ es ∧
    milestones es = [
      .called (.mirror (Path.join mountpoint stagingName) mountpoint keptNames) (.ok ()),
      .called (.fetch id (Path.join mountpoint stagingName)) (.ok ()),
      .called (.snapshot safety) (.ok ())]

section Restored

variable {old : List Event}

/-- There was a restore of the snapshot since `old`, and nothing else. -/
def RestoredSince (pool id : String) (old : List Event) (w : World σ) : Prop :=
  ∃ new, w.events = new ++ old ∧ Restored pool id new

theorem RestoredSince.updated {pool id : String} {r : Record} {saved : Bool}
    (h : RestoredSince pool id old w) (he : w'.events = .updated r saved :: w.events) :
    RestoredSince pool id old w' := by
  obtain ⟨new, hnew, safety, mountpoint, hname, hmounted, hpassed⟩ := h
  exact ⟨.updated r saved :: new, by rw [he, hnew, List.cons_append], safety, mountpoint, hname,
    List.mem_cons_of_mem _ hmounted, hpassed⟩

theorem take_passed (hout : ctx.host.Outside) (pool : String) (now : Instant)
    (h : Passed old [] [] w) : Ensures ctx (PoolSnapshot.take pool .safety now) w
      (fun s w' => IsSafetyName pool s.fullName ∧
        Passed old [.called (.snapshot s.fullName) (.ok ())] [] w') (fun _ _ => True) := by
  have hask (name : String) (reply : Bool) (w w' : World σ) (h : Passed old [] [] w)
      (_ : w'.record = w.record) (he : w'.events = .called (.datasetExists name) reply :: w.events) :
      Passed old [] [] w' := h.event he
  refine .bind ((firstFree?_mem hout hask _ w h).mono ?_ fun _ _ h => h)
  rintro (_ | s) w₁ ⟨h₁, hfound⟩
  · exact .throw trivial
  · obtain ⟨rfl, hmem⟩ := hfound s rfl
    refine .bind (.call hout fun reply w₂ _ he => .bind (.ofReply ?_ fun _ _ => trivial))
    rintro ⟨⟩ rfl
    exact .pure ⟨exists_fullName_of_mem hmem, h₁.event he⟩

theorem fetchAndApply_restored (hout : ctx.host.Outside) (id : String) {pool mountpoint : String}
    {safety : PoolSnapshot} (hname : IsSafetyName pool safety.fullName)
    (h : Passed old [.called (.snapshot safety.fullName) (.ok ())]
      [.called (.mountpoint pool) (.ok mountpoint)] w) :
    Ensures ctx (fetchAndApply id safety mountpoint) w
      (fun _ => RestoredSince pool id old) (fun _ _ => True) := by
  have hkeeping {α : Type} (what : String) (f result : Fault) (w : World σ) {Q : α → World σ → Prop} :
      Ensures ctx (failKeeping safety what f result) w Q (fun _ _ => True) :=
    .bind (.update fun _ _ _ _ => .throw trivial)
  -- One way leads through all the steps; whatever goes wrong ends in a fault.
  refine .bind (.update fun _ w₁ _ he₁ => .bind (.outcome (.onFiles ?_ fun f w₂ _ _ =>
    hkeeping _ f _ w₂)))
  intro _ w₂ _ he₂
  refine .bind (.update fun _ w₃ _ he₃ => .bind (.call hout fun fetched w₄ _ he₄ => ?_))
  cases fetched with
  | error f => exact .bind (.update fun _ _ _ _ => .bind (.onMachine fun _ _ _ _ => .throw trivial))
  | ok _ =>
    refine .bind (.update fun _ w₅ _ he₅ => .bind (.call hout fun applied w₆ _ he₆ => .bind ?_))
    refine .onMachine fun _ w₇ _ he₇ => ?_
    cases applied with
    | error f => exact .bind (.update fun _ _ _ _ => .throw trivial)
    | ok _ =>
      have h₄ := (((h.event he₁).same he₂).event he₃).event he₄
      have h₇ := ((h₄.event he₅).event he₆).same he₇
      refine .bind (.update fun _ w₈ _ he₈ => .bind ?_)
      refine ((h₇.event he₈).minor (startDependents_footprint hout)
        fun _ => AsksOrStarts.isMinor).mono ?_ fun _ _ _ => trivial
      refine fun _ w₉ h₉ => .update fun _ w₁₀ _ he₁₀ => ?_
      obtain ⟨new, hnew, hpassed, hseen⟩ := h₉.event he₁₀
      exact ⟨new, hnew, _, _, hname, hseen (List.mem_singleton_self _), hpassed⟩

theorem restoreCycle_restored (hout : ctx.host.Outside) (id : String) (h : Passed old [] [] w) :
    Ensures ctx (restoreCycle id) w (fun _ => RestoredSince ctx.settings.pool id old)
      (fun _ _ => True) := by
  refine .bind (.settings (.bind ((h.minor (stopDependents_footprint hout)
    fun _ => AsksOrStops.isMinor).mono ?_ fun _ _ _ => trivial)))
  refine fun _ w₁ h₁ => .bind (.update fun _ w₂ _ he₂ => .bind (.call hout fun now w₃ _ he₃ => ?_))
  refine .bind (.outcome ((take_passed hout _ now ((h₁.event he₂).event he₃)).mono ?_ ?_))
  · rintro safety w₄ ⟨hname, h₄⟩
    refine .bind (.update fun _ w₅ _ he₅ => .bind (.call hout fun mounted w₆ _ he₆ => ?_))
    cases mounted with
    | error f => exact .bind (.update fun _ _ _ _ => .throw trivial)
    | ok mountpoint => exact fetchAndApply_restored hout id hname ((h₄.event he₅).see he₆)
  · exact fun f w₄ _ => .bind (.update fun _ _ _ _ => .throw trivial)

theorem restore_restored (hout : ctx.host.Outside) (id : String) (w : World σ) :
    Ensures ctx (restore id) w
      (fun _ => RestoredSince ctx.settings.pool (Text.trim id) w.events) (fun _ _ => True) := by
  have hclaim : Footprint ctx IsQuestion Progresses (claim "Stopping services") := claim_footprint _
  have htry : Ensures ctx (tryRestore (Text.trim id)) w
      (fun _ => RestoredSince ctx.settings.pool (Text.trim id) w.events) (fun _ _ => True) := by
    refine .bind (((Passed.refl w).minor (admitRestore_footprint hout _)
      fun _ => IsQuestion.isMinor).mono ?_ fun _ _ _ => trivial)
    refine fun _ w₁ h₁ => .bind ((h₁.minor hclaim fun _ => IsQuestion.isMinor).mono ?_
      fun _ _ _ => trivial)
    exact fun claimed w₂ h₂ => .ite (fun _ => .bind (.throw trivial))
      fun _ => restoreCycle_restored hout _ h₂
  refine .bind (.outcome (htry.mono ?_ ?_))
  · exact fun _ w₁ h₁ => .bind (.update fun _ w₂ _ he => .pure (h₁.updated he))
  · exact fun f w₁ _ => .bind (.update fun _ _ _ _ => .throw trivial)

/-- A restore that went well leaves the session as it was. -/
theorem restore_connected (hout : ctx.host.Outside) (id : String) (w : World σ) :
    Ensures ctx (restore id) w
      (fun _ w' => w'.record.status.connected = true ∧ Completed w'.record.status)
      (fun _ _ => True) := by
  refine ((restore_ends hout id w).and (restore_footprint hout id w)).mono ?_ fun _ _ _ => trivial
  rintro _ w' ⟨⟨hadmissible, _, r, ⟨-, rfl⟩, hcompleted⟩, hsteps⟩
  refine ⟨?_, hcompleted⟩
  refine hsteps.keeps_record (P := fun r => r.status.connected = true) ?_ hadmissible.2.2.1
  rintro r r' (hr | rfl) hconnected
  · rw [hr]
    exact hconnected
  · exact hconnected

end Restored

/-! ## The request -/

/-- What is left of a configuration that differs in the order alone is taken over without a word. -/
theorem takeOver_quiet {c : Config} (hconnected : w.record.status.connected = true) :
    Ensures ctx (takeOver c.clearTrigger c) w (fun _ w' => w'.record.status = w.record.status ∧
      ∃ r saved, w'.events = .updated r saved :: w.events) (fun _ _ => True) := by
  have hsame : c.clearTrigger.repositoryChanged c = false := by
    simp [Config.repositoryChanged, Config.clearTrigger]
  refine .bind (.update fun saved w₁ hr he => ?_)
  have hstatus : w₁.record.status = w.record.status := by
    rw [hr, configured, hsame]
    rfl
  refine .ite (fun _ => .bind (.record ?_)) fun _ => .pure ⟨hstatus, _, saved, he⟩
  cases w₁.record.config.validate with
  | error defect => exact .bind (.update fun _ _ _ _ => .throw trivial)
  | ok store =>
    rw [hstatus, hconnected]
    exact .pure ⟨hstatus, _, saved, he⟩

theorem apply_restore_of_orders {id : String} (hid : Text.trim id ≠ "")
    (hnew : Text.trim id ≠ Text.trim w.record.config.restoreTrigger) :
    runIn ctx (apply (.restore id)) w = runIn ctx (do
      restore id
      takeOver w.record.config.clearTrigger w.record.config) w := by
  have horder : w.record.config.Orders { w.record.config with restoreTrigger := id } := ⟨hid, hnew⟩
  have hkept : ¬ w.record.config.Disables { w.record.config with restoreTrigger := id } :=
    fun h => Bool.false_ne_true (h.2.symm.trans h.1)
  rw [apply, runIn_bind, runIn_record]
  exact update_of_orders horder hkept

/-- A request that names nothing, or what is in the record as an order already, is no order. -/
theorem apply_restore_of_no_order {id : String}
    (hnone : Text.trim id = "" ∨ Text.trim id = Text.trim w.record.config.restoreTrigger) :
    runIn ctx (apply (.restore id)) w = runIn ctx
      (takeOver { w.record.config with restoreTrigger := id } w.record.config) w := by
  have horder : ¬ w.record.config.Orders { w.record.config with restoreTrigger := id } := by
    rintro ⟨hid, hnew⟩
    exact hnone.elim hid hnew
  have hkept : ¬ (w.record.config.enabled && !w.record.config.enabled) = true := by simp
  rw [apply, runIn_bind, runIn_record]
  dsimp only
  rw [update_eq, Config.takeRestoreOrder_eq, Config.left, if_neg horder, if_neg horder, endSession,
    if_neg hkept]
  rfl

theorem takeOver_connects (hout : ctx.host.Outside) (requested previous : Config) :
    Footprint ctx IsConnecting (fun _ _ => True) (takeOver requested previous) :=
  .bind (.update fun _ => trivial) fun _ =>
    .ite ((ensureConnected_footprint hout).mono (fun _ h => h) fun _ _ _ => trivial) (.pure ())

/-- What becomes of a request that is no order, in the world `v` in which the identifier was taken over.
Nothing is done for a restore, and the answer is about the session alone: all is well if nothing has to
run, or if there is a session or one can be opened. -/
structure Overlooked (ctx : Context σ) (id : String) (w v : World σ) (result : Except Fault Unit)
    (w' : World σ) : Prop where
  config : w'.record.config = { w.record.config with restoreTrigger := id }
  calls : CallsOnly IsConnecting w.events w'.events
  ok_iff : result = .ok () ↔ w.record.config.enabled = false ∨
    ∃ store, w.record.config.validate = .ok store ∧ (w.record.status.connected = true ∨
      CacheReady ctx v ∧ Connects ctx store w.record.config.password v)

theorem takeOver_overlooked (hout : ctx.host.Outside) (id : String) (w : World σ) :
    let requested := { w.record.config with restoreTrigger := id }
    Overlooked ctx id w (reconfigured ctx requested w.record.config w)
      (runIn ctx (takeOver requested w.record.config) w).1
      (runIn ctx (takeOver requested w.record.config) w).2 := by
  intro requested
  have hcalls := (CallsOnly.refl w.events).steps
    (takeOver_connects hout requested w.record.config w).of_runIn
  have hsame : w.record.config.SameRepository requested := ⟨rfl, rfl⟩
  have hconfig : (reconfigured ctx requested w.record.config w).record.config = requested :=
    reconfigured_config _ _
  have hlive : (reconfigured ctx requested w.record.config w).record.status.connected = true ↔
      w.record.status.connected = true := (reconfigured_connected _ _).trans (and_iff_left hsame)
  rw [runIn_takeOver] at hcalls ⊢
  generalize reconfigured ctx requested w.record.config w = v at *
  cases henabled : requested.enabled with
  | false =>
    rw [henabled, if_neg Bool.false_ne_true] at hcalls
    rw [if_neg Bool.false_ne_true]
    exact ⟨hconfig, hcalls, iff_of_true rfl (.inl henabled)⟩
  | true =>
    rw [henabled, if_pos rfl] at hcalls
    rw [if_pos rfl]
    refine ⟨(ensureConnected_config hout v).trans hconfig, hcalls, ?_⟩
    have hopening := (ensureConnected_outcome hout v).ok_iff
    rw [hconfig, hlive] at hopening
    have hon : w.record.config.enabled = true := henabled
    rw [hopening, or_iff_right (by simp [hon])]
    rfl

/-- A restore needs a snapshot that is named. -/
theorem restore_blank (hout : ctx.host.Outside) {id : String} (hblank : Text.trim id = "") (w' : World σ) :
    runIn ctx (restore id) w ≠ (.ok (), w') := by
  intro hrun
  obtain ⟨hadmissible, -⟩ := (restore_ends hout id w).of_ok hrun
  exact hadmissible.2.1 hblank

/-- A request to restore a snapshot that is no order in the record yet is answered well only if that
snapshot was restored, once and completely, and the record says so. A request that names nothing, or what
the record holds as its order already, is overlooked: nothing is restored, and with a session all is well.
A restore that is asked for directly never ends well if nothing is named. -/
theorem restored_of_request_ok (hout : ctx.host.Outside) (id : String) (w : World σ) :
    (Text.trim id ≠ "" → Text.trim id ≠ Text.trim w.record.config.restoreTrigger →
      ∀ w', runIn ctx (apply (.restore id)) w = (.ok (), w') →
        (∃ new, w'.events = new ++ w.events ∧ Restored ctx.settings.pool (Text.trim id) new) ∧
          Completed w'.record.status) ∧
    (Text.trim id = "" ∨ Text.trim id = Text.trim w.record.config.restoreTrigger →
      Overlooked ctx id w
        (reconfigured ctx { w.record.config with restoreTrigger := id } w.record.config w)
        (runIn ctx (apply (.restore id)) w).1 (runIn ctx (apply (.restore id)) w).2) ∧
    (Text.trim id = "" → ∀ w', runIn ctx (restore id) w ≠ (.ok (), w')) := by
  refine ⟨fun hid hnew w' hrun => ?_, fun hnone => ?_, fun hblank => restore_blank hout hblank⟩
  · rw [apply_restore_of_orders hid hnew] at hrun
    have hends : Ensures ctx (do
        restore id
        takeOver w.record.config.clearTrigger w.record.config) w
        (fun _ w' => RestoredSince ctx.settings.pool (Text.trim id) w.events w' ∧
          Completed w'.record.status) (fun _ _ => True) := by
      refine .bind (((restore_restored hout id w).and (restore_connected hout id w)).mono ?_
        fun _ _ _ => trivial)
      rintro _ w₁ ⟨hrestored, hconnected, hcompleted⟩
      -- The session is that of the restore, so nothing more is called.
      refine (takeOver_quiet hconnected).mono ?_ fun _ _ _ => trivial
      rintro _ w₂ ⟨hstatus, r, saved, he⟩
      exact ⟨hrestored.updated he, hstatus ▸ hcompleted⟩
    exact hends.of_ok hrun
  · rw [apply_restore_of_no_order hnone]
    exact takeOver_overlooked hout id w

theorem restored_of_request_ok_ready :
    (∃ w' new, runIn agreeableContext (apply (.restore " k123")) ready = (.ok (), w') ∧
      w'.events = new ++ ready.events ∧ Restored "local" "k123" new) ∧
    (runIn agreeableContext (apply (.restore " ")) ready).1 = .ok () := by
  constructor
  · have hok : (runIn agreeableContext (apply (.restore " k123")) ready).1 = .ok () := by
      decide +kernel
    have hid : Text.trim " k123" = "k123" := by decide
    have hnew : Text.trim " k123" ≠ Text.trim ready.record.config.restoreTrigger := by decide +kernel
    rcases hrun : runIn agreeableContext (apply (.restore " k123")) ready with ⟨result, w'⟩
    rw [hrun] at hok
    cases hok
    obtain ⟨⟨new, hevents, hrestored⟩, -⟩ :=
      (restored_of_request_ok agreeable.outside " k123" ready).1 (by decide) hnew w' hrun
    rw [hid] at hrestored
    exact ⟨w', new, rfl, hevents, hrestored⟩
  · have hconfig : ready.record.config = sampleConfig := by decide +kernel
    have hsession : ready.record.status.connected = true := by decide +kernel
    have hstore : ∃ store, ready.record.config.validate = .ok store := by
      rw [hconfig]
      exact ⟨_, rfl⟩
    obtain ⟨store, hstore⟩ := hstore
    have hout : agreeableContext.host.Outside := agreeable.outside
    have hoverlooked := (restored_of_request_ok hout " " ready).2.1 (.inl (by decide))
    exact hoverlooked.ok_iff.mpr (.inr ⟨store, hstore, .inl hsession⟩)

/-- A request that names nothing is answered well, and nobody was called. Asked for directly, such a
restore is refused. -/
theorem request_ok_without_restore :
    (runIn agreeableContext (apply (.restore " ")) ready).1 = .ok () ∧
      calls (runIn agreeableContext (apply (.restore " ")) ready).2.events = calls ready.events ∧
      (runIn agreeableContext (restore " ") ready).1 =
        .error (Fault.badConfig "restore snapshot id is empty") := by
  decide +kernel

end PoolKeeper.Service
