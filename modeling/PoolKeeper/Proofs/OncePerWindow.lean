import PoolKeeper.Proofs.Life

/-!
# `PoolKeeper/Proofs/OncePerWindow.lean` — backups and the windows they count for

Without a frequency a backup is due once per occurrence of a window, and the record remembers the
occurrence that the last backup counted for. It remembers only that one. So the schedule keeps its
promise exactly for those windows that never come back: `Returns` says of a list of windows that one
occurrence decides, then another, and then the first again, as a long window does that a short one
interrupts.

A run of ticks is a list of answers of the clock, and the occurrences that were recorded are a list
beside it (`History`). If windows do not come back, a recorded occurrence is never recorded again
(`ticks_nodup`).
-/

set_option autoImplicit false

namespace PoolKeeper

/-- The order of instants; a leap second comes after the second it follows. -/
def Instant.NotAfter (a b : Instant) : Prop :=
  a.seconds < b.seconds ∨ (a.seconds = b.seconds ∧ a.nanos ≤ b.nanos)

theorem Instant.NotAfter.trans {a b c : Instant} (h : a.NotAfter b) (h' : b.NotAfter c) :
    a.NotAfter c := by
  unfold Instant.NotAfter at *
  omega

/-- One occurrence decides, then another, and then the first again. -/
def Window.Returns (ws : List Window) : Prop :=
  ∃ (a b c : Instant) (i j : String), (a.isRepresentable ∧ b.isRepresentable ∧ c.isRepresentable) ∧
    a.NotAfter b ∧ b.NotAfter c ∧ Window.active? ws a = some i ∧ Window.active? ws b = some j ∧
    Window.active? ws c = some i ∧ j ≠ i

namespace Service

open Operation

variable {σ : Type} {ctx : Context σ} {w w' : World σ}

/-! ## The clock -/

/-- The answer of the clock, if the event is one. -/
def reading? : Event → Option Instant
  | .called .now t => some t
  | _ => none

/-- What the clock said, the latest first. -/
def readings (es : List Event) : List Instant := es.filterMap reading?

theorem readings_cons (e : Event) (es : List Event) :
    readings (e :: es) = (reading? e).toList ++ readings es := by
  unfold readings
  rw [List.filterMap_cons]
  cases reading? e <;> rfl

/-- The clock never went back, and said nothing but what can be written down. -/
def Clocked (es : List Event) : Prop :=
  (readings es).Pairwise (fun late early => early.NotAfter late) ∧
    ∀ t ∈ readings es, t.isRepresentable

theorem Clocked.mono {es es' : List Event} {new : List Instant} (h : Clocked es')
    (hnew : readings es' = new ++ readings es) : Clocked es := by
  obtain ⟨hsorted, hrepresentable⟩ := h
  rw [hnew] at hsorted hrepresentable
  exact ⟨(List.pairwise_append.mp hsorted).2.1,
    fun t hmem => hrepresentable t (List.mem_append_right new hmem)⟩

/-! ## Steps that no window counts -/

/-- The records have one configuration and one window that was counted last. -/
def KeepsSchedule (r r' : Record) : Prop :=
  r'.config = r.config ∧ r'.status.lastWindow = r.status.lastWindow

theorem Progresses.keepsSchedule {r r' : Record} (h : Progresses r r') : KeepsSchedule r r' := by
  rw [h]
  exact ⟨rfl, rfl⟩

theorem Reconnects.keepsSchedule {r r' : Record} (h : Reconnects r r') : KeepsSchedule r r' := by
  rw [h]
  exact ⟨rfl, rfl⟩

/-- Nothing the schedule looks at has changed, and the clock said `new`. -/
structure Passes (new : List Instant) (w w' : World σ) : Prop where
  reads : readings w'.events = new ++ readings w.events
  keeps : KeepsSchedule w.record w'.record

theorem Passes.trans {new new' : List Instant} {w'' : World σ} (h : Passes new w w')
    (h' : Passes new' w' w'') : Passes (new' ++ new) w w'' where
  reads := by rw [h'.reads, h.reads, List.append_assoc]
  keeps := ⟨h'.keeps.1.trans h.keeps.1, h'.keeps.2.trans h.keeps.2⟩

theorem Passes.of_now {t : Instant} (hr : w'.record = w.record)
    (he : w'.events = .called .now t :: w.events) : Passes [t] w w' where
  reads := by rw [he]; rfl
  keeps := hr ▸ ⟨rfl, rfl⟩

theorem passes_of_steps (h : Steps (· ≠ .now) KeepsSchedule w w') : Passes [] w w' := by
  have hkept := h.keeps
    (P := fun r es => readings es = readings w.events ∧ KeepsSchedule w.record r) ?_ ?_
    ⟨rfl, rfl, rfl⟩
  · exact ⟨hkept.1, hkept.2⟩
  · rintro c reply r es hc ⟨hreads, hkeeps⟩
    refine ⟨?_, hkeeps⟩
    cases c <;> first | exact absurd rfl hc | exact hreads
  · rintro r r' saved es hr ⟨hreads, hkeeps⟩
    exact ⟨hreads, hr.1.trans hkeeps.1, hr.2.trans hkeeps.2⟩

/-- An operation that does not ask the clock passes unnoticed. -/
theorem passes_of_footprint {α : Type} {op : Operation σ α}
    (h : Footprint ctx (· ≠ .now) KeepsSchedule op) :
    Ensures ctx op w (fun _ => Passes [] w) (fun _ => Passes [] w) :=
  (h w).mono (fun _ _ => passes_of_steps) fun _ _ => passes_of_steps

theorem Passes.steps {α : Type} {new : List Instant} {op : Operation σ α} (h : Passes new w w')
    (hop : Footprint ctx (· ≠ .now) KeepsSchedule op) :
    Ensures ctx op w' (fun _ => Passes new w) (fun _ => Passes new w) :=
  (passes_of_footprint hop).mono (fun _ _ h' => h.trans h') fun _ _ h' => h.trans h'

/-- A step that does not ask the clock, and then the rest. -/
theorem Passes.bind {α β : Type} {new : List Instant} {op : Operation σ α}
    {next : α → Operation σ β} {Q : β → World σ → Prop} (h : Passes new w w')
    (hop : Footprint ctx (· ≠ .now) KeepsSchedule op)
    (hnext : ∀ a w'', Passes new w w'' → Ensures ctx (next a) w'' Q (fun _ => Passes new w)) :
    Ensures ctx (op >>= next) w' Q (fun _ => Passes new w) :=
  .bind ((h.steps hop).mono (fun a w'' h' => hnext a w'' h') fun _ _ h' => h')

theorem account_keeps {f : Record → Record} (hf : ∀ r, Progresses r (f r)) :
    Footprint ctx (· ≠ .now) KeepsSchedule (Operation.update f) :=
  .update fun r => (hf r).keepsSchedule

/-! ## A backup -/

/-- The occurrence was counted, and the clock said `new` on the way. -/
structure Counts (new : List Instant) (window : String) (w w' : World σ) : Prop where
  reads : readings w'.events = new ++ readings w.events
  config : w'.record.config = w.record.config
  lastWindow : w'.record.status.lastWindow = some window

theorem backupCycle_counts (hout : ctx.host.Outside) (retention : Retention) (window : String)
    (now : Instant) : Ensures ctx (backupCycle retention (some window) now) w
      (fun _ w' => ∃ finished, Counts [finished] window w w') (fun _ w' => Passes [] w w') := by
  have htake : Footprint ctx (· ≠ .now) KeepsSchedule
      (PoolSnapshot.take ctx.settings.pool .backup now) :=
    (take_footprint hout _ _ now).mono (by rintro c h rfl; exact h) fun _ _ h => h.elim
  have hupload (s : PoolSnapshot) : Footprint ctx (· ≠ .now) KeepsSchedule (upload s now) :=
    (upload_footprint hout s now).mono (by rintro c h rfl; exact h) fun _ _ h => h.keepsSchedule
  have hexpire : Footprint ctx (· ≠ .now) KeepsSchedule (applyRetention retention) :=
    (applyRetention_footprint hout retention).mono (by rintro _ rfl; simp) fun _ _ h => h.elim
  have hstart : Passes [] w w := ⟨rfl, rfl, rfl⟩
  refine .bind (.settings (.bind (.outcome ((hstart.steps htake).mono ?_ ?_))))
  · intro snapshot w₁ h₁
    refine h₁.bind (hupload snapshot) ?_
    -- The clock is read once, at the end of a cycle that succeeds.
    rintro (⟨status, f⟩ | ⟨⟩) w₂ h₂
    · refine h₂.bind (.call hout (by simp)) fun _ w₃ h₃ => ?_
      refine h₃.bind (account_keeps fun _ => rfl) fun _ w₄ h₄ => ?_
      exact .guard (Passes [] w) (fun _ => h₄.steps (.update fun _ => ⟨rfl, rfl⟩)) (fun _ => h₄)
        fun _ _ h₅ => .throw h₅
    · refine h₂.bind (account_keeps fun _ => rfl) fun _ w₃ h₃ => ?_
      refine h₃.bind hexpire.outcome fun _ w₄ h₄ => ?_
      refine h₄.bind (account_keeps fun _ => rfl) fun _ w₅ h₅ => ?_
      refine h₅.bind (.call hout (by simp)) fun _ w₆ h₆ => ?_
      refine .bind (.call hout fun finished w₇ hr₇ he₇ => .update fun _ w₈ hr₈ he₈ => ⟨finished, ?_⟩)
      have h₇ := h₆.trans (.of_now hr₇ he₇)
      refine ⟨?_, ?_, ?_⟩
      · rw [he₈]
        exact h₇.reads
      · rw [hr₈]
        exact h₇.keeps.1
      · rw [hr₈]
        rfl
  · exact fun f w₁ h₁ => h₁.bind (account_keeps fun _ => rfl) fun _ _ h₂ => .throw h₂

/-- A backup is admitted for the occurrence that is open. -/
theorem admitBackup_active (hout : ctx.host.Outside) (r : Record) (now : Instant) :
    Ensures ctx (admitBackup r now) w
      (fun window _ => Window.active? ctx.settings.windows now = some window) (fun _ _ => True) := by
  have hrefuse {α : Type} (status detail : String) (w : World σ) {Q : α → World σ → Prop} :
      Ensures ctx (refuseBackup status detail) w Q (fun _ _ => True) :=
    .bind (.update fun _ _ _ _ => .throw trivial)
  refine .bind (.settings (.guard (fun _ => True) (fun _ => hrefuse _ _ w) (fun _ => trivial) ?_))
  refine fun _ w₁ _ => .guard (fun _ => True) (fun _ => hrefuse _ _ w₁) (fun _ => trivial) ?_
  intro _ w₂ _
  cases hactive : Window.active? ctx.settings.windows now with
  | none => exact hrefuse _ _ w₂
  | some window =>
    exact .bind (.call hout fun _ w₃ _ _ => .ite (fun _ => .pure rfl) fun _ => hrefuse _ _ w₃)

/-- A backup without a frequency counts for the occurrence that was open when it began. -/
theorem backup_counts (hout : ctx.host.Outside)
    (hblank : w.record.config.readFrequency = .ok .perWindow) : Ensures ctx backup w
      (fun _ w' => ∃ began finished window, Counts [finished, began] window w w' ∧
        Window.active? ctx.settings.windows began = some window)
      (fun _ w' => ∃ new, Passes new w w') := by
  refine .bind (.call hout fun now w₁ hr₁ he₁ => ?_)
  have h₁ : Passes [now] w w₁ := .of_now hr₁ he₁
  have hadmit : Footprint ctx (· ≠ .now) KeepsSchedule (admitBackup w₁.record now) :=
    (admitBackup_footprint hout _ now).mono (by rintro _ ⟨pool, rfl⟩; simp)
      fun _ _ h => h.keepsSchedule
  have hclaim : Footprint ctx (· ≠ .now) KeepsSchedule (claim "Creating ZFS snapshot") :=
    (claim_footprint _).mono (fun _ h => h) fun _ _ h => h.keepsSchedule
  refine .bind (.record (.bind (((h₁.steps hadmit).and (admitBackup_active hout _ now)).mono ?_ ?_)))
  · rintro window w₂ ⟨h₂, hactive⟩
    refine .bind ((h₂.steps hclaim).mono ?_ fun _ _ h => ⟨_, h⟩)
    refine fun claimed w₃ h₃ => .ite (fun _ => .bind (.throw ⟨_, h₃⟩)) fun _ => ?_
    rw [hr₁, hblank]
    refine (backupCycle_counts hout _ window now).mono ?_ fun _ _ h => ⟨_, h₃.trans h⟩
    rintro _ w₄ ⟨finished, hreads, hconfig, hlast⟩
    refine ⟨now, finished, window, ⟨?_, hconfig.trans h₃.keeps.1, hlast⟩, hactive⟩
    rw [hreads, h₃.reads]
    rfl
  · exact fun _ _ h => ⟨_, h.1⟩

/-! ## A tick -/

/-- The occurrence that a tick recorded, if it made a backup. -/
def recorded (result : Except Fault Decision) (w : World σ) : List String :=
  match result with
  | .ok (.run _) => w.record.status.lastWindow.toList
  | _ => []

/-- The world after some ticks, and the occurrences they recorded, the latest first. -/
def ticks (ctx : Context σ) (w : World σ) : Nat → World σ × List String
  | 0 => (w, [])
  | n + 1 =>
    let (result, w') := runIn ctx tick (ticks ctx w n).1
    (w', recorded result w' ++ (ticks ctx w n).2)

/-- What a tick that makes a backup looked at: it was due for the occurrence that was open first, and
counted for the one that was open then. -/
structure Runs (ws : List Window) (decided : String) (w w' : World σ) : Prop where
  due : w.record.status.lastWindow ≠ some decided
  counts : ∃ looked began finished window, Counts [finished, began, looked] window w w' ∧
    Window.active? ws looked = some decided ∧ Window.active? ws began = some window

/-- Without a frequency a backup is due only for an occurrence that is open and was not counted last. -/
theorem decide_run {r : Record} {ws : List Window} {now : Instant} {window : String}
    (hblank : r.config.readFrequency = .ok .perWindow)
    (h : Schedule.decide r ws now = .ok (.run window)) :
    r.status.lastWindow ≠ some window ∧ Window.active? ws now = some window := by
  unfold Schedule.decide at h
  rw [hblank] at h
  repeat' split at h
  all_goals simp_all

/-- What a look at the schedule comes to that was begun in `w`. -/
def Looks (ws : List Window) (w : World σ) : Decision → World σ → Prop
  | .run decided, w' => Runs ws decided w w'
  | .skip _, w' => ∃ new, Passes new w w'

theorem attend_runs {w₁ : World σ} {now : Instant} (hout : ctx.host.Outside)
    (hblank : w.record.config.readFrequency = .ok .perWindow) (h₁ : Passes [now] w w₁) :
    Ensures ctx (attend now) w₁ (Looks ctx.settings.windows w)
      (fun _ w' => ∃ new, Passes new w w') := by
  have hsay (status : String) : Footprint ctx (· ≠ .now) KeepsSchedule (say status) :=
    account_keeps fun _ => rfl
  refine .bind (.record (.bind (.settings ?_)))
  cases hdecision : Schedule.decide w₁.record ctx.settings.windows now with
  | error defect =>
    exact .guard (Passes [now] w) (fun _ => (h₁.steps (hsay _)).mono (fun _ _ h => h)
      fun _ _ h => ⟨_, h⟩) (fun _ => h₁) fun _ _ h => .throw ⟨_, h⟩
  | ok decision =>
    cases decision with
    | skip reason => exact .bind (.pure (.pure ⟨_, h₁⟩))
    | run decided =>
      have hblank₁ : w₁.record.config.readFrequency = .ok .perWindow := by
        rw [h₁.keeps.1, hblank]
      obtain ⟨hdue, hactive⟩ := decide_run hblank₁ hdecision
      refine .bind ((backup_counts hout hblank₁).mono ?_ ?_)
      · rintro _ w₂ ⟨began, finished, window, ⟨hreads, hconfig, hlast⟩, hbegan⟩
        refine .pure ⟨h₁.keeps.2 ▸ hdue, now, began, finished, window, ⟨?_, ?_, hlast⟩, hactive,
          hbegan⟩
        · rw [hreads, h₁.reads]
          rfl
        · exact hconfig.trans h₁.keeps.1
      · rintro _ w₂ ⟨new, h₂⟩
        exact ⟨_, h₁.trans h₂⟩

theorem tick_runs (hout : ctx.host.Outside)
    (hblank : w.record.config.readFrequency = .ok .perWindow) : Ensures ctx tick w
      (Looks ctx.settings.windows w) (fun _ w' => ∃ new, Passes new w w') := by
  rw [tick_eq]
  refine .bind (.call hout fun now w₁ hr₁ he₁ => ?_)
  have h₁ : Passes [now] w w₁ := .of_now hr₁ he₁
  have hopen : Footprint ctx (· ≠ .now) KeepsSchedule ensureConnected :=
    (ensureConnected_footprint hout).mono (by rintro c h rfl; exact h) fun _ _ h => h.keepsSchedule
  refine .bind (.record (.ite (fun _ => .bind ?_) fun _ => attend_runs hout hblank h₁))
  exact (h₁.steps hopen.outcome).mono (fun _ _ => attend_runs hout hblank) fun _ _ h => ⟨_, h⟩

/-! ## Runs of ticks -/

variable {ws : List Window} {counted : List (String × Instant)}

/-- The occurrences that were recorded, the latest first, each with the instant it was open at. -/
structure History (ws : List Window) (w : World σ) (counted : List (String × Instant)) : Prop where
  active : ∀ p ∈ counted, Window.active? ws p.2 = some p.1
  read : ∀ p ∈ counted, p.2 ∈ readings w.events
  sorted : counted.Pairwise fun late early => early.2.NotAfter late.2
  last : ∀ p ∈ counted.head?, w.record.status.lastWindow = some p.1

theorem History.passes {new : List Instant} (h : History ws w counted) (hpasses : Passes new w w') :
    History ws w' counted where
  active := h.active
  read p hp := by
    rw [hpasses.reads]
    exact List.mem_append_right new (h.read p hp)
  sorted := h.sorted
  last p hp := hpasses.keeps.2.trans (h.last p hp)

/-- What was read before a backup is not after what it read itself. -/
theorem Counts.ordered {looked began finished : Instant} {window : String}
    (h : Counts [finished, began, looked] window w w') (hclock : Clocked w'.events) :
    looked.NotAfter began ∧ ∀ t ∈ readings w.events, t.NotAfter looked ∧ t.NotAfter began := by
  have hsorted := hclock.1
  rw [h.reads] at hsorted
  simp only [List.cons_append, List.nil_append, List.pairwise_cons, List.mem_cons,
    forall_eq_or_imp] at hsorted
  obtain ⟨-, ⟨hlooked, hbegan⟩, hearlier, -⟩ := hsorted
  exact ⟨hlooked, fun t ht => ⟨hearlier t ht, hbegan t ht⟩⟩

theorem History.counts {looked began finished : Instant} {window : String}
    (h : History ws w counted) (hclock : Clocked w'.events)
    (hcounts : Counts [finished, began, looked] window w w')
    (hactive : Window.active? ws began = some window) :
    History ws w' ((window, began) :: counted) where
  active p hp := by
    rcases List.mem_cons.mp hp with rfl | hp
    · exact hactive
    · exact h.active p hp
  read p hp := by
    rw [hcounts.reads]
    rcases List.mem_cons.mp hp with rfl | hp
    · simp
    · simp [h.read p hp]
  sorted := List.pairwise_cons.mpr
    ⟨fun p hp => ((hcounts.ordered hclock).2 p.2 (h.read p hp)).2, h.sorted⟩
  last p hp := by
    cases hp
    exact hcounts.lastWindow

/-- Windows that do not come back are not counted again. -/
theorem History.fresh {looked began finished : Instant} {decided window : String}
    (h : History ws w counted) (hnever : ¬ Window.Returns ws) (hclock : Clocked w'.events)
    (hdue : w.record.status.lastWindow ≠ some decided)
    (hcounts : Counts [finished, began, looked] window w w')
    (hlooked : Window.active? ws looked = some decided)
    (hbegan : Window.active? ws began = some window) : window ∉ counted.map Prod.fst := by
  intro hmem
  obtain ⟨⟨window', first⟩, hfirst, heq⟩ := List.mem_map.mp hmem
  obtain rfl : window = window' := heq.symm
  obtain ⟨hstep, hbefore⟩ := hcounts.ordered hclock
  have hread {t : Instant} (ht : t ∈ [finished, began, looked] ++ readings w.events) :
      t.isRepresentable := hclock.2 t (hcounts.reads ▸ ht)
  have hlater : looked.isRepresentable ∧ began.isRepresentable := ⟨hread (by simp), hread (by simp)⟩
  have hearlier (p : String × Instant) (hp : p ∈ counted) :
      p.2.isRepresentable ∧ p.2.NotAfter looked ∧ p.2.NotAfter began :=
    ⟨hread (List.mem_append_right _ (h.read p hp)), hbefore _ (h.read p hp)⟩
  obtain ⟨hrepresentable, hlooked', hbegan'⟩ := hearlier (window, first) hfirst
  have hopen : Window.active? ws first = some window := h.active (window, first) hfirst
  by_cases hsame : decided = window
  · -- The occurrence was open when the tick looked, so another one was counted last.
    cases counted with
    | nil => cases hfirst
    | cons latest rest =>
      have hother : latest.1 ≠ window := by
        rintro rfl
        exact hdue (hsame ▸ h.last latest rfl)
      have hrest : (window, first) ∈ rest := by
        rcases List.mem_cons.mp hfirst with heq | hrest
        · exact absurd (congrArg Prod.fst heq).symm hother
        · exact hrest
      obtain ⟨hlatest, -, hlatest'⟩ := hearlier latest List.mem_cons_self
      exact hnever ⟨first, latest.2, began, window, latest.1, ⟨hrepresentable, hlatest, hlater.2⟩,
        (List.pairwise_cons.mp h.sorted).1 _ hrest, hlatest', hopen,
        h.active latest List.mem_cons_self, hbegan, hother⟩
  · -- The tick looked during another occurrence, between the two.
    exact hnever ⟨first, looked, began, window, decided, ⟨hrepresentable, hlater⟩, hlooked', hstep,
      hopen, hlooked, hbegan, hsame⟩

theorem ticks_config (hout : ctx.host.Outside)
    (hblank : w.record.config.readFrequency = .ok .perWindow) :
    ∀ n, (ticks ctx w n).1.record.config = w.record.config
  | 0 => rfl
  | n + 1 => by
    have ih := ticks_config hout hblank n
    simp only [ticks]
    generalize (ticks ctx w n).1 = w₁ at ih ⊢
    have hconfig : Ensures ctx tick w₁ (fun _ w' => w'.record.config = w₁.record.config)
        (fun _ w' => w'.record.config = w₁.record.config) := by
      refine (tick_runs hout (ih ▸ hblank)).mono ?_ fun _ _ ⟨_, h⟩ => h.keeps.1
      rintro (decided | reason) w' h
      · obtain ⟨-, looked, began, finished, window, hcounts, -, -⟩ := h
        exact hcounts.config
      · obtain ⟨new, h⟩ := h
        exact h.keeps.1
    exact hconfig.of_runIn.trans ih

/-- Recorded occurrences are all different, as long as the windows do not come back. -/
theorem ticks_history (hout : ctx.host.Outside) (hnever : ¬ Window.Returns ctx.settings.windows)
    (hblank : w.record.config.readFrequency = .ok .perWindow) :
    ∀ n, Clocked (ticks ctx w n).1.events → ∃ counted,
      (ticks ctx w n).2 = counted.map Prod.fst ∧ (counted.map Prod.fst).Nodup ∧
      History ctx.settings.windows (ticks ctx w n).1 counted
  | 0, _ => ⟨[], rfl, .nil, by simp, by simp, .nil, by simp⟩
  | n + 1, hend => by
    have ih := ticks_history hout hnever hblank n
    have hblank₁ : (ticks ctx w n).1.record.config.readFrequency = .ok .perWindow := by
      rw [ticks_config hout hblank n, hblank]
    simp only [ticks] at hend ⊢
    generalize (ticks ctx w n).2 = ids at ih ⊢
    generalize (ticks ctx w n).1 = w₁ at ih hblank₁ hend ⊢
    have hpasses {new : List Instant} {w₂ : World σ} (hp : Passes new w₁ w₂)
        (hclock : Clocked w₂.events) : ∃ counted, ids = counted.map Prod.fst ∧
          (counted.map Prod.fst).Nodup ∧ History ctx.settings.windows w₂ counted := by
      obtain ⟨counted, hids, hnodup, hhistory⟩ := ih (hclock.mono hp.reads)
      exact ⟨counted, hids, hnodup, hhistory.passes hp⟩
    refine Ensures.of_result (P := fun result w₂ => Clocked w₂.events →
      ∃ counted : List (String × Instant), recorded result w₂ ++ ids = counted.map Prod.fst ∧
        (counted.map Prod.fst).Nodup ∧ History ctx.settings.windows w₂ counted) ?_ hend
    refine (tick_runs hout hblank₁).mono ?_ fun _ _ ⟨_, hp⟩ => hpasses hp
    rintro (decided | reason) w₂ h hclock
    · obtain ⟨hdue, looked, began, finished, window, hcounts, hlooked, hbegan⟩ := h
      obtain ⟨counted, hids, hnodup, hhistory⟩ := ih (hclock.mono hcounts.reads)
      have hfresh := hhistory.fresh hnever hclock hdue hcounts hlooked hbegan
      refine ⟨(window, began) :: counted, ?_, List.nodup_cons.mpr ⟨hfresh, hnodup⟩,
        hhistory.counts hclock hcounts hbegan⟩
      simp [recorded, hcounts.lastWindow, hids]
    · exact hpasses h.choose_spec hclock

end Service

end PoolKeeper
