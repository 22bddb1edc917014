import PoolKeeper.Proofs.Lifetime
import PoolKeeper.Proofs.Reopening

/-!
# `PoolKeeper/Proofs/Recovery.lean` — what a process that died leaves to the next one

Every update of the record is saved before anything else happens, so a process that dies leaves the
record of some update behind, in the middle of a cycle as well as between two actions. The next process
must be able to go on from any of them.

Two things have to be true of a record for that, and `Record.Settled` says both. It holds no order for a
restore: the order in a configuration is carried out before the configuration is taken over, and never
becomes part of the record. And its instants are ones that can be written down, so that the file can be
read back whole. Almost every step keeps both because it changes neither the configuration nor an
instant; the steps that do are looked at one by one.
-/

set_option autoImplicit false

namespace PoolKeeper

open Operation

/-! ## Records that the next process can go on from -/

/-- The record holds no order for a restore, and its instants can be written down. -/
structure Record.Settled (r : Record) : Prop where
  noOrder : Text.trim r.config.restoreTrigger = ""
  timely : r.status.Timely

/-- The host tells times that can be written down. -/
def Host.Timely {σ : Type} (h : Host σ) : Prop :=
  ∀ w, (h .now w).1.isRepresentable ∧
    ∀ listed, (h .listSnapshots w).1 = .ok listed → ∀ s ∈ listed, s.time.isRepresentable

namespace Record

variable {r r' : Record}

theorem Settled.initial : Settled {} :=
  ⟨by decide, .of_none rfl rfl⟩

theorem Settled.of_eq (h : r.Settled) (htrigger : r'.config.restoreTrigger = r.config.restoreTrigger)
    (hbackup : r'.status.lastBackup = r.status.lastBackup)
    (hlisted : r'.status.snapshots = r.status.snapshots) : r'.Settled :=
  ⟨htrigger ▸ h.noOrder, hbackup ▸ h.timely.backup, hlisted ▸ h.timely.listed⟩

theorem Settled.reopened (h : r.Settled) : r.reopened.Settled := by
  unfold Record.reopened Record.recovered
  split <;> exact h.of_eq rfl rfl rfl

end Record

namespace Service

open Record

variable {σ : Type} {ctx : Context σ} {w w' : World σ} {r r' : Record}

theorem Progresses.settled (h : Progresses r r') (hr : r.Settled) : r'.Settled := by
  rw [h]
  exact hr.of_eq rfl rfl rfl

theorem Reconnects.settled (h : Reconnects r r') (hr : r.Settled) : r'.Settled := by
  rw [h]
  exact hr.of_eq rfl rfl rfl

/-- A restore consumes the order. -/
theorem Restores.settled (h : Restores r r') (hr : r.Settled) : r'.Settled := by
  rcases h with h | rfl
  · exact h.settled hr
  · exact ⟨show Text.trim "" = "" by decide, hr.timely⟩

/-- A configuration that is taken over holds no order that was not there before. -/
theorem takeRestoreOrder_blank {previous : Config} (requested : Config)
    (h : Text.trim previous.restoreTrigger = "") :
    Text.trim (Config.takeRestoreOrder previous requested).2.restoreTrigger = "" := by
  unfold Config.takeRestoreOrder
  dsimp only
  split
  next hblank => simpa [h] using hblank
  next => exact show Text.trim "" = "" by decide

/-! ## Worlds of settled records -/

/-- The record in memory is settled, and so are all that were put in place since the process
started. -/
structure Tidy (w : World σ) : Prop where
  held : w.record.Settled
  written : ∀ r ∈ w.updates, r.Settled

theorem Tidy.updated {saved : Bool} (hw : Tidy w) (hr : w'.record.Settled)
    (he : w'.events = .updated w'.record saved :: w.events) : Tidy w' := by
  refine ⟨hr, fun r hmem => ?_⟩
  rw [World.updates, he] at hmem
  rcases List.mem_cons.mp hmem with rfl | hmem
  · exact hr
  · exact hw.written r hmem

theorem Tidy.called {c : Call} {reply : c.Reply} (hw : Tidy w) (hr : w'.record = w.record)
    (he : w'.events = .called c reply :: w.events) : Tidy w' := by
  refine ⟨hr ▸ hw.held, fun r hmem => hw.written r ?_⟩
  rw [World.updates, he] at hmem
  exact hmem

theorem tidy_of_steps {C : Call → Prop} {U : Record → Record → Prop} (h : Steps C U w w')
    (hU : ∀ r r', U r r' → r.Settled → r'.Settled) (hw : Tidy w) : Tidy w' := by
  induction h with
  | refl => exact hw
  | tail _ hstep ih =>
    cases hstep with
    | called _ hr he => exact ih.called hr he
    | updated hu he => exact ih.updated (hU _ _ hu ih.held) he
    | worked hr he => exact ⟨hr ▸ ih.held, fun r hmem => ih.written r (by rwa [World.updates, he] at hmem)⟩

theorem tidy_of_footprint {α : Type} {op : Operation σ α} {C : Call → Prop}
    {U : Record → Record → Prop} (h : Footprint ctx C U op)
    (hU : ∀ r r', U r r' → r.Settled → r'.Settled) (hw : Tidy w) :
    Ensures ctx op w (fun _ => Tidy) (fun _ => Tidy) :=
  (h w).mono (fun _ _ hsteps => tidy_of_steps hsteps hU hw)
    fun _ _ hsteps => tidy_of_steps hsteps hU hw

/-- Steps that leave the record alone leave it settled. -/
theorem tidy_of_untouched {α : Type} {op : Operation σ α} {C : Call → Prop}
    (h : Footprint ctx C Untouched op) (hw : Tidy w) :
    Ensures ctx op w (fun _ => Tidy) (fun _ => Tidy) :=
  tidy_of_footprint h (fun _ _ hU => hU.elim) hw

theorem call_tidy {c : Call} {Q : c.Reply → World σ → Prop} {R : Fault → World σ → Prop}
    (hout : ctx.host.Outside) (hw : Tidy w) (h : ∀ reply w', Tidy w' → Q reply w') :
    Ensures ctx (call c) w Q R :=
  .call hout fun reply w' hr he => h reply w' (hw.called hr he)

theorem update_tidy {f : Record → Record} {Q : Unit → World σ → Prop} {R : Fault → World σ → Prop}
    (hw : Tidy w) (hf : (f w.record).Settled) (h : ∀ w', w'.record = f w.record → Tidy w' → Q () w') :
    Ensures ctx (Operation.update f) w Q R :=
  .update fun _ w' hr he => h w' hr (hw.updated (hr ▸ hf) (hr ▸ he))

/-! ## The operations -/

/-- A backup that is complete counts from an instant that the clock told. -/
theorem backupCycle_tidy (hout : ctx.host.Outside) (htimely : ctx.host.Timely) (retention : Retention)
    (window : Option String) (now : Instant) (hw : Tidy w) :
    Ensures ctx (backupCycle retention window now) w (fun _ => Tidy) (fun _ => Tidy) := by
  refine .bind (.settings (.bind (.outcome ((tidy_of_untouched (take_footprint hout _ _ now) hw).mono
    ?_ fun f w₁ hw₁ => .bind (update_tidy hw₁ (hw₁.held.of_eq rfl rfl rfl) fun _ _ hw₂ => .throw hw₂)))))
  intro snapshot w₁ hw₁
  refine .bind ((tidy_of_footprint (upload_footprint hout snapshot now)
    (fun _ _ h => Progresses.settled h) hw₁).mono ?_ fun _ _ h => h)
  intro uploaded w₂ hw₂
  cases uploaded with
  | error e =>
    obtain ⟨status, f⟩ := e
    refine .bind (call_tidy hout hw₂ fun _ w₃ hw₃ => .bind (update_tidy hw₃
      (hw₃.held.of_eq rfl rfl rfl) fun w₄ _ hw₄ => ?_))
    exact .guard Tidy (fun _ => update_tidy hw₄ (hw₄.held.of_eq rfl rfl rfl) fun _ _ hw₅ => hw₅)
      (fun _ => hw₄) fun _ _ hw₅ => .throw hw₅
  | ok _ =>
    refine .bind (update_tidy hw₂ (hw₂.held.of_eq rfl rfl rfl) fun w₃ _ hw₃ => .bind (.outcome
      ((tidy_of_untouched (applyRetention_footprint hout retention) hw₃).mono ?_ ?_)))
    -- Whether or not anything could be expired, the backup counts from what the clock says next.
    all_goals
      intro _ w₄ hw₄
      refine .bind (update_tidy hw₄ (hw₄.held.of_eq rfl rfl rfl) fun w₅ _ hw₅ => .bind
        (call_tidy hout hw₅ fun _ w₆ hw₆ => .bind (.call_eq hout fun finished w₇ hnow hr he => ?_)))
      have hw₇ : Tidy w₇ := hw₆.called hr he
      refine update_tidy hw₇ ⟨hw₇.held.noOrder, ?_, hw₇.held.timely.listed⟩ fun _ _ hw₈ => hw₈
      rintro _ ⟨⟩
      rw [hnow]
      exact (htimely w₆).1

theorem backup_tidy (hout : ctx.host.Outside) (htimely : ctx.host.Timely) (hw : Tidy w) :
    Ensures ctx backup w (fun _ => Tidy) (fun _ => Tidy) := by
  refine .bind (call_tidy hout hw fun now w₁ hw₁ => .bind (.record (.bind
    ((tidy_of_footprint (admitBackup_footprint hout _ now) (fun _ _ h => Progresses.settled h) hw₁).mono
      ?_ fun _ _ h => h))))
  intro window w₂ hw₂
  refine .bind ((tidy_of_footprint (C := fun _ => True) (claim_footprint _)
    (fun _ _ h => Progresses.settled h) hw₂).mono (fun claimed w₃ hw₃ => ?_) fun _ _ h => h)
  exact .ite (fun _ => .bind (.throw hw₃)) fun _ => backupCycle_tidy hout htimely _ _ now hw₃

theorem stop_tidy (hw : Tidy w) : Ensures ctx stop w (fun _ => Tidy) (fun _ => Tidy) := by
  refine update_tidy hw ?_ fun _ _ hw' => hw'
  split
  · exact hw.held
  · dsimp only
    split <;> exact hw.held.of_eq rfl rfl rfl

/-- The list that is taken over is the one that the repository gave. -/
theorem get_tidy (hout : ctx.host.Outside) (htimely : ctx.host.Timely) (hw : Tidy w) :
    Ensures ctx get w (fun _ => Tidy) (fun _ => Tidy) := by
  refine .bind (.record (.ite (fun _ => .pure hw) fun _ => .bind
    (.call_eq hout fun reply w₁ hlisted hr he => ?_)))
  have hw₁ : Tidy w₁ := hw.called hr he
  cases reply with
  | error f => exact .pure hw₁
  | ok listed =>
    refine .bind (update_tidy hw₁ ⟨hw₁.held.noOrder, hw₁.held.timely.backup, ?_⟩
      fun w₂ _ hw₂ => .record hw₂)
    exact (htimely w).2 listed hlisted.symm

theorem configured_tidy {w₀ : World σ} (requested : Config) (hw₀ : Tidy w₀) :
    Preserves ctx Tidy (Operation.update
      (configured (Config.takeRestoreOrder w₀.record.config requested).2 w₀.record.config)) := by
  intro w hw
  refine update_tidy hw ?_ fun _ _ hw' => hw'
  have hblank := takeRestoreOrder_blank requested hw₀.held.noOrder
  unfold configured
  dsimp only
  split <;> exact ⟨hblank, hw.held.timely.backup, hw.held.timely.listed⟩

theorem parts_tidy (hout : ctx.host.Outside) (htimely : ctx.host.Timely) : PartsPreserve ctx Tidy where
  now _ hw := call_tidy hout hw fun _ _ hw' => hw'
  say _ _ hw := update_tidy hw (hw.held.of_eq rfl rfl rfl) fun _ _ hw' => hw'
  connect _ := tidy_of_footprint (ensureConnected_footprint hout) fun _ _ h => Reconnects.settled h
  get _ := get_tidy hout htimely
  stop _ := stop_tidy
  backup _ := backup_tidy hout htimely
  restore id _ := tidy_of_footprint (restore_footprint hout id) fun _ _ h => Restores.settled h
  configure requested _ := configured_tidy requested

/-! ## One process after the other -/

/-- Processes over one state file, none at first: each does one thing after another, and when it has died
after an update that it could save, the next one opens what it left. -/
inductive Generations (ctx : Context σ) : World σ → Prop
  | born {m m' : Machine} {host : σ} {r : Record}
    (hmissing : ((Files.readText ctx.settings.statePath).run.run m).1 = .error .notFound)
    (hopen : (openRecord ctx.settings.statePath).run.run m = (.ok r, m')) :
    Generations ctx ⟨r, m', host, []⟩
  | act {w : World σ} (h : Generations ctx w) (a : Action) :
    Generations ctx (runIn ctx (perform a) w).2
  | reborn {w : World σ} {written opened : Record} {m m' m'' : Machine} {host : σ}
    (h : Generations ctx w) (hwritten : written ∈ w.updates)
    (hsave : (written.save ctx.settings.statePath).run.run m = (.ok (), m'))
    (hopen : (openRecord ctx.settings.statePath).run.run m' = (.ok opened, m'')) :
    Generations ctx ⟨opened, m'', host, []⟩

/-- What a process finds that opens the file after `written` was saved in it. -/
structure StartsFrom (path : String) (written opened : Record) : Prop where
  config : opened.config = written.config
  status : opened.status = { written.status with
    connected := false
    inProgress := false
    progress := if written.status.inProgress then 0 else written.status.progress
    lastStatus := if written.status.inProgress then "Interrupted: " ++ written.status.lastStatus
      else written.status.lastStatus }
  /-- No order for a restore is left, whatever configuration it is compared with. -/
  noOrder : Text.trim opened.config.restoreTrigger = "" ∧
    ∀ previous, Config.takeRestoreOrder previous opened.config = (none, opened.config)
  /-- A cycle can claim the slot. -/
  free : ∀ {σ : Type} (ctx : Context σ) (w : World σ) (status : String), w.record = opened →
    (runIn ctx (Operation.claim status) w).1 = .ok true ∧
      (runIn ctx (Operation.claim status) w).2.record = opened.claim status
  /-- Whoever saves it and opens it again has the same record. -/
  stable : ∀ m m', (opened.save path).run.run m = (.ok (), m') → m'.Reaches path →
    (openRecord path).run.run m' = (.ok opened, m')

theorem startsFrom_reopened {path : String} (h : r.Settled) : StartsFrom path r r.reopened where
  config := by rw [reopened_eq]
  status := by rw [reopened_eq]
  noOrder := by
    have hblank := h.reopened.noOrder
    refine ⟨hblank, fun previous => ?_⟩
    simp only [Config.takeRestoreOrder, hblank, decide_true, Bool.true_or, if_true]
  free := by
    intro σ ctx w status hrecord
    have hidle : w.record.status.inProgress = false := by rw [hrecord, reopened_eq]
    have hrun : runIn ctx (Operation.claim status) w =
        (.ok true, w.setRecord ctx.settings.statePath (w.record.claim status)) := by
      simp only [Operation.claim, runIn_bind, runIn_record, runIn_update, runIn_pure, hidle,
        Bool.false_eq_true, if_false, Bool.not_false]
    rw [hrun, World.setRecord_record, hrecord]
    exact ⟨rfl, rfl⟩
  stable := by
    intro m m' hsave hreaches
    have hopened := openRecord_save h.reopened.timely hsave
    rw [reopened_reopened] at hopened
    exact hopened.resolve_right fun hnone => hnone.1 hreaches

theorem tidy_of_generations (hout : ctx.host.Outside) (htimely : ctx.host.Timely)
    (h : Generations ctx w) : Tidy w := by
  have hopened {m : Machine} {host : σ} {r : Record} (hr : r.Settled) :
      Tidy (⟨r, m, host, []⟩ : World σ) := ⟨hr, by rintro _ ⟨⟩⟩
  induction h with
  | @born m m' _ _ hmissing hopen =>
    obtain ⟨rfl, rfl | ⟨text, _, htext, -⟩⟩ := openRecord_cases hopen
    · exact hopened (Settled.initial.of_eq rfl rfl rfl)
    · cases htext.symm.trans (Files.text?_of_refused hmissing)
  | act _ a ih => exact ((parts_tidy hout htimely).perform a _ ih).of_runIn
  | reborn _ hwritten hsave hopen ih =>
    have hsettled := ih.written _ hwritten
    rcases openRecord_save hsettled.timely hsave with hrun | ⟨-, f, hrun⟩
    · cases hrun.symm.trans hopen
      exact hopened hsettled.reopened
    · cases hrun.symm.trans hopen

/-- Whatever was done and answered, and wherever in it a process dies after an update that was saved: the
next process opens the file, if its path leads anywhere, and finds the record of that update without its
session. If a cycle held the slot, the slot is free, and the status says that the cycle was interrupted,
once and for all. There is no order for a restore to be carried out again. -/
theorem crash_recovers (hout : ctx.host.Outside) (htimely : ctx.host.Timely)
    (h : Generations ctx w) {written : Record} (hwritten : written ∈ w.updates) {m m' : Machine}
    (hsave : (written.save ctx.settings.statePath).run.run m = (.ok (), m')) :
    (m'.Reaches ctx.settings.statePath →
      ∃ opened, (openRecord ctx.settings.statePath).run.run m' = (.ok opened, m')) ∧
    ∀ opened m'', (openRecord ctx.settings.statePath).run.run m' = (.ok opened, m'') →
      m'' = m' ∧ StartsFrom ctx.settings.statePath written opened := by
  have hsettled : written.Settled := (tidy_of_generations hout htimely h).written written hwritten
  rcases openRecord_save hsettled.timely hsave with hrun | ⟨hnone, f, hrun⟩
  · refine ⟨fun _ => ⟨_, hrun⟩, fun opened m'' hopen => ?_⟩
    cases hrun.symm.trans hopen
    exact ⟨rfl, startsFrom_reopened hsettled⟩
  · refine ⟨fun hreaches => absurd hreaches hnone, fun opened m'' hopen => ?_⟩
    cases hrun.symm.trans hopen

/-- The process of a service that was configured dies when it begins its first backup. -/
theorem crash_recovers_backup : ∃ written ∈ (after agreeableContext ⟨{}, {}, (), []⟩
      [.update sampleConfig, .backup]).updates, ∃ m' opened,
    (written.save agreeableContext.settings.statePath).run.run {} = (.ok (), m') ∧
      (openRecord agreeableContext.settings.statePath).run.run m' = (.ok opened, m') ∧
      opened.status.lastStatus = "Interrupted: Creating ZFS snapshot" ∧
      StartsFrom agreeableContext.settings.statePath written opened := by
  have hout : agreeableContext.host.Outside := agreeable.outside
  have htimely : agreeableContext.host.Timely := by
    refine fun _ => ⟨show Instant.isRepresentable ⟨0, 0⟩ = true by decide, fun listed hlisted s hs => ?_⟩
    cases hlisted
    cases hs
  have hmissing : ((Files.readText agreeableContext.settings.statePath).run.run {}).1 =
      .error .notFound := rfl
  have hopen : (openRecord agreeableContext.settings.statePath).run.run {} = (.ok {}, {}) := rfl
  have hlives : Generations agreeableContext (after agreeableContext ⟨{}, {}, (), []⟩
      [.update sampleConfig, .backup]) := .act (.act (.born hmissing hopen) _) _
  -- Which record the process dies at is found by evaluation, and only that.
  obtain ⟨written, hwritten, hfound⟩ : ∃ written ∈ (after agreeableContext ⟨{}, {}, (), []⟩
      [.update sampleConfig, .backup]).updates,
        (written.status.inProgress && written.status.lastStatus == "Creating ZFS snapshot" &&
          ((written.save agreeableContext.settings.statePath).run.run {}).1.isOk &&
          (((written.save agreeableContext.settings.statePath).run.run {}).2.disk.resolve
            ((written.save agreeableContext.settings.statePath).run.run {}).2.cwd true
            agreeableContext.settings.statePath).isOk) = true :=
    List.any_eq_true.mp (by decide +kernel)
  simp only [Bool.and_eq_true, beq_iff_eq] at hfound
  obtain ⟨⟨⟨hbusy, hstatus⟩, hsaved⟩, hreaches⟩ := hfound
  rcases hsave : (written.save agreeableContext.settings.statePath).run.run {} with ⟨_ | ⟨⟩, m'⟩
  · rw [hsave] at hsaved
    cases hsaved
  rw [hsave] at hreaches
  have hreach : m'.Reaches agreeableContext.settings.statePath := by
    rcases hloc : m'.disk.resolve m'.cwd true agreeableContext.settings.statePath with _ | loc
    · rw [hloc] at hreaches
      cases hreaches
    · exact ⟨loc, hloc⟩
  obtain ⟨hopened, hfinds⟩ := crash_recovers hout htimely hlives hwritten hsave
  obtain ⟨opened, hrun⟩ := hopened hreach
  have hstarts := (hfinds opened m' hrun).2
  refine ⟨written, hwritten, m', opened, hsave, hrun, ?_, hstarts⟩
  rw [hstarts.status, hbusy, hstatus]
  rfl

end Service

end PoolKeeper
