import PoolKeeper.Proofs.OncePerWindow

/-!
# `PoolKeeper/Proofs/Due.lean` — when a backup is due

`Schedule.decide` asks one thing after the other, and stops at the first that speaks against a backup.
Here the same is said without an order. `Schedule.Due` is what has to come together for a backup, and
`Schedule.Faulty` what makes the frequency an error. The two exclude each other, and if neither holds
there is no backup (`Schedule.decides`).

How long ago the last backup was is reckoned by `Instant.since`. If the last backup lies in the future,
that is less than nothing (`Instant.since_neg`), with one exception. In a leap second the nanoseconds go
on above a thousand million, and the second after it begins at zero again, so that the difference of two
such instants comes out positive although they are in the wrong order.
-/

set_option autoImplicit false

namespace PoolKeeper

/-! ## Instants in the wrong order -/

namespace Instant

variable {now last : Instant}

theorem nanos_lt_of_isRepresentable (h : now.isRepresentable) : now.nanos < 2000000000 := by
  unfold isRepresentable nanosPerSecond at h
  simp at h
  omega

theorem since_neg (hnow : now.isRepresentable) (h : ¬ last.NotAfter now)
    (hleap : ¬ (now.isLeap ∧ last.seconds = now.seconds + 1)) : now.since last < 0 := by
  have hlater : now.seconds < last.seconds ∨
      (now.seconds = last.seconds ∧ now.nanos < last.nanos) := by
    unfold NotAfter at h
    omega
  have hbound := nanos_lt_of_isRepresentable hnow
  have hday : now.seconds = last.seconds → now.secondOfDay = last.secondOfDay := fun heq => by
    rw [secondOfDay, secondOfDay, heq]
  unfold isLeap nanosPerSecond at hleap
  unfold since isLeap nanosPerSecond
  simp only [Bool.and_eq_true, decide_eq_true_eq] at hleap ⊢
  -- A leap second is added if the last backup lies in one, and then its own nanoseconds outweigh it.
  by_cases hadded : now.secondOfDay > last.secondOfDay ∧ 1000000000 ≤ last.nanos
  · rw [if_pos hadded]
    omega
  · rw [if_neg hadded]
    split
    · omega
    · omega

end Instant

/-! ## When a backup is due -/

/-- How a frequency reads: blank, not at all, as no time, or as a length of time. -/
inductive Config.Reads (c : Config) : Except Config.Defect Frequency → Prop where
  | blank (hblank : Text.trim c.frequency = "") : Reads c (.ok .perWindow)
  | unreadable {d : Span.Defect} (hwritten : Text.trim c.frequency ≠ "")
      (hread : Span.ofText (Text.trim c.frequency) = .error d) :
      Reads c (.error (.frequencyUnreadable (Text.trim c.frequency) d))
  | zero (hread : Span.ofText (Text.trim c.frequency) = .ok ⟨0⟩) :
      Reads c (.error (.frequencyZero (Text.trim c.frequency)))
  | every {interval : Span} (hread : Span.ofText (Text.trim c.frequency) = .ok interval)
      (hpositive : 0 < interval.nanos) : Reads c (.ok (.every interval))

theorem Config.reads (c : Config) : c.Reads c.readFrequency := by
  unfold readFrequency
  dsimp only
  split
  next hblank => exact .blank hblank
  next hwritten =>
    cases hread : Span.ofText (Text.trim c.frequency) with
    | error d => exact .unreadable hwritten hread
    | ok interval =>
      dsimp only
      split
      next hzero =>
        obtain ⟨n⟩ := interval
        obtain rfl : n = 0 := hzero
        exact .zero hread
      next hpositive => exact .every hread (Nat.pos_of_ne_zero hpositive)

/-- A length of time is not blank. -/
theorem Config.written_of_ofText {c : Config} {interval : Span}
    (h : Span.ofText (Text.trim c.frequency) = .ok interval) : Text.trim c.frequency ≠ "" := by
  intro hblank
  have hempty : Span.ofText "" = .error .empty := rfl
  rw [hblank, hempty] at h
  cases h

theorem Config.reads_iff {c : Config} {read : Except Config.Defect Frequency} :
    c.Reads read ↔ c.readFrequency = read := by
  refine ⟨fun h => ?_, fun h => h ▸ c.reads⟩
  unfold readFrequency
  cases h with
  | blank hblank => rw [if_pos hblank]
  | unreadable hwritten hread => simp only [if_neg hwritten, hread]
  | zero hread => simp only [if_neg (written_of_ofText hread), hread, if_true]
  | every hread hpositive =>
    simp only [if_neg (written_of_ofText hread), hread, if_neg (Nat.ne_of_gt hpositive)]

theorem Config.Reads.unique {c : Config} {read read' : Except Config.Defect Frequency}
    (h : c.Reads read) (h' : c.Reads read') : read = read' :=
  (Config.reads_iff.mp h).symm.trans (Config.reads_iff.mp h')

/-- The service waits for its next backup: it is enabled and has a session, and no cycle is running. -/
structure Record.Waits (r : Record) : Prop where
  enabled : r.config.enabled = true
  idle : r.status.inProgress = false
  connected : r.status.connected = true

/-- The frequency allows a backup in the occurrence of a window: without one, if the last backup counted
for another occurrence, and with one, if that length of time has passed since the last backup. -/
inductive Record.Allows (r : Record) (now : Instant) (window : String) : Prop where
  | perWindow (hread : r.config.Reads (.ok .perWindow)) (hnew : r.status.lastWindow ≠ some window)
  | every {interval : Span} (hread : r.config.Reads (.ok (.every interval)))
      (hshort : interval.nanos ≤ Schedule.longestInterval.nanos)
      (hpassed : ∀ last ∈ r.status.lastBackup, (interval.nanos : Int) ≤ now.since last)

/-- The frequency cannot be used. That one is too long is noticed only while a window is open. -/
inductive Config.Unusable (ws : List Window) (c : Config) (now : Instant) : Config.Defect → Prop where
  | unreadable {d : Config.Defect} (hread : c.Reads (.error d)) : Unusable ws c now d
  | tooLong {interval : Span} {window : String} (hread : c.Reads (.ok (.every interval)))
      (hlong : Schedule.longestInterval.nanos < interval.nanos)
      (hopen : Window.active? ws now = some window) : Unusable ws c now .frequencyTooLong

namespace Schedule

variable {ws : List Window} {r : Record} {now : Instant} {window : String} {d : Config.Defect}

/-- A backup is due for the occurrence of a window. -/
structure Due (ws : List Window) (r : Record) (now : Instant) (window : String) : Prop where
  waits : r.Waits
  isOpen : Window.active? ws now = some window
  allows : r.Allows now window

/-- The service waits for a backup that its frequency does not let it make. -/
structure Faulty (ws : List Window) (r : Record) (now : Instant) (d : Config.Defect) : Prop where
  waits : r.Waits
  unusable : r.config.Unusable ws now d

theorem isTooSoon_eq_false {interval : Span} {last? : Option Instant} :
    isTooSoon interval last? now = false ↔ ∀ last ∈ last?, (interval.nanos : Int) ≤ now.since last := by
  cases last? <;> simp [isTooSoon]

theorem decide_of_not_waits (ws : List Window) (now : Instant) (h : ¬ r.Waits) :
    ∃ reason, decide r ws now = .ok (.skip reason) := by
  by_cases henabled : r.config.enabled = true
  · by_cases hidle : r.status.inProgress = true
    · exact ⟨.cycleRunning, by simp [decide, henabled, hidle]⟩
    · by_cases hconnected : r.status.connected = true
      · exact (h ⟨henabled, by simpa using hidle, hconnected⟩).elim
      · exact ⟨.notConnected, by simp [decide, henabled, hidle, hconnected]⟩
  · exact ⟨.disabled, by simp [decide, henabled]⟩

/-- What is decided, and why. -/
inductive Decides (ws : List Window) (r : Record) (now : Instant) :
    Except Config.Defect Decision → Prop where
  | run {window : String} (hdue : Due ws r now window) : Decides ws r now (.ok (.run window))
  | fail {d : Config.Defect} (hfaulty : Faulty ws r now d) : Decides ws r now (.error d)
  | skip {reason : SkipReason} (hdue : ∀ window, ¬ Due ws r now window)
      (hfaulty : ∀ d, ¬ Faulty ws r now d) : Decides ws r now (.ok (.skip reason))

theorem decides (ws : List Window) (r : Record) (now : Instant) :
    Decides ws r now (decide r ws now) := by
  -- `decide` looks at the record, the frequency and the window in that order, and the cases follow it. A
  -- case is refuted by the reading of the frequency being unique, or the open window.
  by_cases hwaits : r.Waits
  · have hreads := r.config.reads
    simp only [decide, hwaits.enabled, hwaits.idle, hwaits.connected, Bool.not_true,
      Bool.false_eq_true, if_false]
    generalize r.config.readFrequency = read at hreads
    split
    next defect => exact .fail ⟨hwaits, .unreadable hreads⟩
    next frequency hclosed =>
      refine .skip (fun window h => ?_) fun d h => ?_
      · exact Option.some_ne_none _ (h.isOpen.symm.trans hclosed)
      · cases h.unusable with
        | unreadable hread => exact nomatch hread.unique hreads
        | tooLong _ _ hopen => exact Option.some_ne_none _ (hopen.symm.trans hclosed)
    next open' hopen =>
      have hfaulty (d : Config.Defect) : ¬ Faulty ws r now d := fun h => by
        cases h.unusable with
        | unreadable hread => exact nomatch hread.unique hreads
        | tooLong hread => exact nomatch hread.unique hreads
      split
      next hcounted =>
        refine .skip (fun window h => ?_) hfaulty
        obtain rfl : window = open' := Option.some.inj (h.isOpen.symm.trans hopen)
        cases h.allows with
        | perWindow _ hnew => exact hnew hcounted
        | every hread => exact nomatch hread.unique hreads
      next hnew => exact .run ⟨hwaits, hopen, .perWindow hreads hnew⟩
    next interval open' hopen =>
      split
      next hlong => exact .fail ⟨hwaits, .tooLong hreads hlong hopen⟩
      next hshort =>
        have hfaulty (d : Config.Defect) : ¬ Faulty ws r now d := fun h => by
          cases h.unusable with
          | unreadable hread => exact nomatch hread.unique hreads
          | tooLong hread hlong =>
            cases hread.unique hreads
            exact hshort hlong
        split
        next hsoon =>
          refine .skip (fun window h => ?_) hfaulty
          cases h.allows with
          | perWindow hread => exact nomatch hread.unique hreads
          | every hread _ hpassed =>
            cases hread.unique hreads
            rw [isTooSoon_eq_false.mpr hpassed] at hsoon
            cases hsoon
        next hpassed =>
          exact .run ⟨hwaits, hopen, .every hreads (Nat.le_of_not_lt hshort)
            (isTooSoon_eq_false.mp (Bool.eq_false_iff.mpr hpassed))⟩
  · obtain ⟨reason, hskip⟩ := decide_of_not_waits ws now hwaits
    rw [hskip]
    exact .skip (fun window h => hwaits h.waits) fun d h => hwaits h.waits

theorem Faulty.not_due (h : Faulty ws r now d) (window : String) : ¬ Due ws r now window := by
  intro hdue
  cases h.unusable with
  | unreadable hread =>
    cases hdue.allows with
    | perWindow hread' => exact nomatch hread.unique hread'
    | every hread' => exact nomatch hread.unique hread'
  | tooLong hread hlong =>
    cases hdue.allows with
    | perWindow hread' => exact nomatch hread.unique hread'
    | every hread' hshort =>
      cases hread.unique hread'
      exact Nat.not_lt_of_le hshort hlong

theorem Faulty.unique {d' : Config.Defect} (h : Faulty ws r now d) (h' : Faulty ws r now d') :
    d = d' := by
  cases h.unusable with
  | unreadable hread =>
    cases h'.unusable with
    | unreadable hread' => injection hread.unique hread'
    | tooLong hread' => exact nomatch hread.unique hread'
  | tooLong hread =>
    cases h'.unusable with
    | unreadable hread' => exact nomatch hread.unique hread'
    | tooLong => rfl

theorem Due.decide_eq (h : Due ws r now window) : decide r ws now = .ok (.run window) := by
  have hdecides := decides ws r now
  generalize decide r ws now = decided at hdecides
  cases hdecides with
  | run hdue => rw [Option.some.inj (hdue.isOpen.symm.trans h.isOpen)]
  | fail hfaulty => exact (hfaulty.not_due window h).elim
  | skip hdue => exact (hdue window h).elim

theorem Faulty.decide_eq (h : Faulty ws r now d) : decide r ws now = .error d := by
  have hdecides := decides ws r now
  generalize decide r ws now = decided at hdecides
  cases hdecides with
  | run hdue => exact (h.not_due _ hdue).elim
  | fail hfaulty => rw [hfaulty.unique h]
  | skip _ hfaulty => exact (hfaulty d h).elim

/-- A frequency that cannot be used stays so, or it does not matter because no window is open. -/
theorem Faulty.later (h : Faulty ws r now d) (later : Instant) :
    decide r ws later = .error d ∨ ∃ reason, decide r ws later = .ok (.skip reason) := by
  cases h.unusable with
  | unreadable hread => exact .inl (Faulty.decide_eq ⟨h.waits, .unreadable hread⟩)
  | tooLong hread hlong =>
    have hdecides := decides ws r later
    generalize decide r ws later = decided at hdecides
    cases hdecides with
    | run hdue =>
      -- A window is open then, so the frequency is as faulty later as it is now.
      exact (Faulty.not_due ⟨h.waits, .tooLong hread hlong hdue.isOpen⟩ _ hdue).elim
    | fail hfaulty =>
      cases hfaulty.unusable with
      | unreadable hread' => exact nomatch hread.unique hread'
      | tooLong => exact .inl rfl
    | skip => exact .inr ⟨_, rfl⟩

/-- What is due by a length of time was made before, unless the clock says a leap second. -/
theorem Due.last_notAfter {interval : Span} {last : Instant} (h : Due ws r now window)
    (hread : r.config.Reads (.ok (.every interval))) (hlast : r.status.lastBackup = some last)
    (hnow : now.isRepresentable) :
    last.NotAfter now ∨ (now.isLeap ∧ last.seconds = now.seconds + 1) := by
  by_cases hpast : last.NotAfter now
  · exact .inl hpast
  by_cases hleap : now.isLeap ∧ last.seconds = now.seconds + 1
  · exact .inr hleap
  have hneg := Instant.since_neg hnow hpast hleap
  cases h.allows with
  | perWindow hread' => exact nomatch hread.unique hread'
  | every hread' _ hpassed =>
    have hnonneg := hpassed last (by rw [hlast]; rfl)
    omega

end Schedule

end PoolKeeper
