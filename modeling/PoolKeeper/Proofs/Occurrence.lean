import PoolKeeper.Proofs.OncePerWindow

/-!
# `PoolKeeper/Proofs/Occurrence.lean` — the occurrences of a window

A window is given by two marks on the clock, and perhaps in the week: one at which it opens and one at
which it closes. `Mark.Matches` says on what instants a mark falls, and everything else is said of those:
a window lasts from an instant at which it opens to the next one at which it closes (`Window.Lasts`), and
an instant lies in the occurrence that starts at `s` if it is not before `s` and that time has not passed
since (`Window.Occurs`).

`Window.occurrenceStart?` reckons with minutes modulo the period instead. That both are the same is
arithmetic once the minutes are counted from a Monday (`Instant.minutes`): then a mark falls on the full
minutes with one remainder (`Mark.matches_iff`), in the day as in the week.
-/

set_option autoImplicit false

namespace PoolKeeper

namespace Instant

/-- Minutes since the midnight before Monday, 1969-12-29. -/
def minutes (t : Instant) : Int := t.seconds / 60 + 3 * Window.minutesPerDay

theorem minuteOfDay_eq (t : Instant) : (t.minuteOfDay : Int) = t.minutes % Window.minutesPerDay := by
  unfold minuteOfDay secondOfDay minutes Window.minutesPerDay
  omega

theorem minuteOfWeek_eq (t : Instant) :
    ((t.weekday * Window.minutesPerDay + t.minuteOfDay : Nat) : Int) =
      t.minutes % Window.minutesPerWeek := by
  unfold weekday weekdayIndex days minuteOfDay secondOfDay minutes Window.minutesPerWeek
    Window.minutesPerDay
  omega

/-- The first instant that is kept. -/
def earliest : Instant := ofDate ⟨firstYear, 1, 1⟩ 0 0

theorem isLeap_of_nanos {t : Instant} (h : t.nanos = 0) : t.isLeap = false := by
  unfold isLeap
  rw [h]
  rfl

theorem plusSeconds_of_nanos {s : Instant} (h : s.nanos = 0) (k : Int) :
    s.plusSeconds k = ⟨s.seconds + k, 0⟩ := by
  simp [plusSeconds, isLeap_of_nanos h, h]

theorem minutes_plus (s : Instant) (n : Nat) :
    (Instant.mk (s.seconds + 60 * n) 0).minutes = s.minutes + n := by
  unfold minutes
  dsimp only
  omega

/-- A minute begins at the instant. -/
def IsFull (t : Instant) : Prop := t.seconds % 60 = 0 ∧ t.nanos = 0

theorem isFull_iff {t : Instant} : t.second = 0 ∧ t.nanos = 0 ↔ t.IsFull := by
  unfold IsFull second secondOfDay
  constructor
  · rintro ⟨hsecond, hnanos⟩
    omega
  · rintro ⟨hsecond, hnanos⟩
    rw [isLeap_of_nanos hnanos, if_neg Bool.false_ne_true]
    omega

theorem notAfter_iff_of_nanos {s t : Instant} (h : s.nanos = 0) :
    s.NotAfter t ↔ s.seconds ≤ t.seconds := by
  unfold NotAfter
  omega

end Instant

namespace Window

/-! ## Marks -/

/-- A minute of every day, or of one day of every week. -/
structure Mark where
  day : Option Weekday
  hour : Nat
  minute : Nat
deriving DecidableEq, Repr

namespace Mark

/-- The mark falls on the instant. -/
structure Matches (k : Mark) (t : Instant) : Prop where
  day : ∀ d ∈ k.day, t.weekday = d.index
  hour : t.hour = k.hour
  minute : t.minute = k.minute
  second : t.second = 0
  nanos : t.nanos = 0

/-- Minutes until the mark falls on an instant again. -/
def period (k : Mark) : Nat := if k.day.isSome then minutesPerWeek else minutesPerDay

/-- Minutes from the start of the period to the mark. -/
def offset (k : Mark) : Nat :=
  (k.day.elim 0 fun d => d.index * minutesPerDay) + (k.hour * 60 + k.minute)

variable {k : Mark} {t : Instant}

theorem period_cases (k : Mark) : k.period = minutesPerDay ∨ k.period = minutesPerWeek := by
  unfold period
  split
  · exact .inr rfl
  · exact .inl rfl

theorem offset_lt (hhour : k.hour < 24) (hminute : k.minute < 60) : k.offset < k.period := by
  unfold offset period
  cases k.day with
  | none =>
    simp only [Option.elim_none, Option.isSome_none, Bool.false_eq_true, if_false, minutesPerDay]
    omega
  | some d =>
    have hindex : d.index < 7 := by cases d <;> decide
    simp only [Option.elim_some, Option.isSome_some, if_true, minutesPerWeek, minutesPerDay]
    omega

theorem matches_iff (hhour : k.hour < 24) (hminute : k.minute < 60) : k.Matches t ↔
    t.IsFull ∧ t.minutes % k.period = k.offset := by
  -- Hour and minute make one number, and with the weekday another.
  have hclock : t.hour = k.hour ∧ t.minute = k.minute ↔ t.minuteOfDay = k.hour * 60 + k.minute := by
    unfold Instant.hour Instant.minute Instant.minuteOfDay
    omega
  have hmark : (∀ d ∈ k.day, t.weekday = d.index) ∧ t.minuteOfDay = k.hour * 60 + k.minute ↔
      t.minutes % k.period = k.offset := by
    have hday := t.minuteOfDay_eq
    have hweek := t.minuteOfWeek_eq
    unfold period offset
    cases k.day with
    | none =>
      simp only [Option.mem_def, reduceCtorEq, false_implies, implies_true, true_and,
        Option.isSome_none, Bool.false_eq_true, if_false, Option.elim_none, Nat.zero_add]
      omega
    | some d =>
      simp only [Option.mem_def, Option.some.injEq, forall_eq', Option.isSome_some, if_true,
        Option.elim_some]
      unfold minutesPerDay at hweek hday ⊢
      omega
  constructor
  · rintro ⟨hd, hh, hm, hs, hn⟩
    exact ⟨Instant.isFull_iff.mp ⟨hs, hn⟩, hmark.mp ⟨hd, hclock.mp ⟨hh, hm⟩⟩⟩
  · rintro ⟨hf, hm⟩
    obtain ⟨hd, hc⟩ := hmark.mpr hm
    obtain ⟨hh, hm⟩ := hclock.mpr hc
    obtain ⟨hs, hn⟩ := Instant.isFull_iff.mpr hf
    exact ⟨hd, hh, hm, hs, hn⟩

end Mark

/-! ## What a window says of itself -/

/-- The weekday that is named, if one is. -/
def day? (name : Option String) : Option Weekday := name.bind fun text => Weekday.ofName? (Text.trim text)

/-- The mark at which the window opens. A day that is missing is that of the other end. -/
def opening (w : Window) : Mark :=
  ⟨day? (w.startDay <|> w.endDay), w.startHour.toNat, w.startMinute.toNat⟩

@[inherit_doc opening]
def closing (w : Window) : Mark :=
  ⟨day? (w.endDay <|> w.startDay), w.endHour.toNat, w.endMinute.toNat⟩

/-- Minutes until the window opens again: those of a day, or of a week if a day is named. -/
def period (w : Window) : Nat :=
  if w.startDay = none ∧ w.endDay = none then minutesPerDay else minutesPerWeek

/-- From when it opens, the window stays open for `n` minutes: at most for a period, and to the next
instant on which the mark at which it closes falls. -/
structure Lasts (w : Window) (n : Nat) : Prop where
  pos : 0 < n
  le : n ≤ w.period
  closes : ∀ s, w.opening.Matches s → w.closing.Matches (s.plusSeconds (60 * n))
  first : ∀ s e, w.opening.Matches s → w.closing.Matches e → ¬ e.NotAfter s →
    (s.plusSeconds (60 * n)).NotAfter e

/-- The instant `t` lies in the occurrence of the window that starts at `s` and lasts for `n` minutes. -/
structure Occurs (w : Window) (n : Nat) (s t : Instant) : Prop where
  opens : w.opening.Matches s
  begun : s.NotAfter t
  lasts : ¬ (s.plusSeconds (60 * n)).NotAfter t

variable {w : Window} {b : Bounds} {s t : Instant}

theorem readDay_eq_ok {text : String} {d : Weekday} :
    readDay text = .ok d ↔ Weekday.ofName? (Text.trim text) = some d := by
  unfold readDay
  cases Weekday.ofName? (Text.trim text) <;> simp

theorem checkDay_eq_ok {name : Option String} :
    checkDay name = .ok () ↔ ∀ text ∈ name, ∃ d, readDay text = .ok d := by
  cases name with
  | none => simp [checkDay]
  | some text => cases h : readDay text <;> simp [checkDay, h, Except.map]

/-- What is asked of a window that can be used. -/
structure Usable (w : Window) : Prop where
  hours : w.startHour.toNat < 24 ∧ w.endHour.toNat < 24
  minutes : w.startMinute.toNat < 60 ∧ w.endMinute.toNat < 60
  startDay : ∀ text ∈ w.startDay, ∃ d, readDay text = .ok d
  endDay : ∀ text ∈ w.endDay, ∃ d, readDay text = .ok d

theorem usable_of_validate (h : w.validate = .ok ()) : w.Usable := by
  cases hhours : w.startHour > 23 || w.endHour > 23 with
  | true =>
    simp only [validate, hhours, if_true] at h
    cases h
  | false =>
    cases hminutes : w.startMinute > 59 || w.endMinute > 59 with
    | true =>
      simp only [validate, hhours, hminutes, if_true, Bool.false_eq_true, if_false] at h
      cases h
    | false =>
      simp only [validate, hhours, hminutes, Bool.false_eq_true, if_false] at h
      simp only [Bool.or_eq_false_iff, decide_eq_false_iff_not, gt_iff_lt, UInt32.not_lt,
        UInt32.le_iff_toNat_le, ← Nat.lt_succ_iff] at hhours hminutes
      cases hstart : checkDay w.startDay with
      | error d =>
        rw [hstart] at h
        cases h
      | ok _ =>
        rw [hstart] at h
        exact ⟨hhours, hminutes, checkDay_eq_ok.mp hstart, checkDay_eq_ok.mp h⟩

theorem day?_isSome {name : Option String} (h : ∀ text ∈ name, ∃ d, readDay text = .ok d) :
    (day? name).isSome = name.isSome := by
  cases name with
  | none => rfl
  | some text =>
    obtain ⟨d, hd⟩ := h text rfl
    simp only [day?, Option.bind_some, readDay_eq_ok.mp hd, Option.isSome_some]

/-- Where one day stands in for the other, both marks come round in one period. -/
theorem period_mark {name other : Option String} (h : ∀ text ∈ name, ∃ d, readDay text = .ok d)
    (h' : ∀ text ∈ other, ∃ d, readDay text = .ok d) (hour minute : Nat) :
    (Mark.mk (day? (name <|> other)) hour minute).period =
      if name = none ∧ other = none then minutesPerDay else minutesPerWeek := by
  unfold Mark.period
  cases name with
  | none =>
    rw [show (none <|> other) = other from rfl, day?_isSome h']
    cases other <;> rfl
  | some text =>
    rw [show (some text <|> other) = some text from rfl, day?_isSome h]
    rfl

theorem Usable.opening_period (h : w.Usable) : w.opening.period = w.period :=
  period_mark h.startDay h.endDay _ _

theorem Usable.closing_period (h : w.Usable) : w.closing.period = w.period := by
  simp only [closing, period_mark h.endDay h.startDay, period, and_comm]

/-- The bounds of a window are its marks, reckoned in minutes of their common period. -/
theorem Usable.bounds_eq (h : w.Usable) : w.bounds =
    .ok ⟨w.period, w.opening.offset, w.closing.offset⟩ := by
  have hclock {hour minute : UInt32} (hh : hour.toNat < 24) (hm : minute.toNat < 60) :
      (hour * 60 + minute).toNat = hour.toNat * 60 + minute.toNat := by
    rw [UInt32.toNat_add, UInt32.toNat_mul]
    change (hour.toNat * 60 % 4294967296 + minute.toNat) % 4294967296 = _
    omega
  obtain ⟨⟨hsh, heh⟩, ⟨hsm, hem⟩, hstart, hend⟩ := h
  unfold bounds
  rw [hclock hsh hsm, hclock heh hem]
  unfold period Mark.offset opening closing
  cases hs : w.startDay with
  | none =>
    cases he : w.endDay with
    | none => simp [day?]
    | some text =>
      obtain ⟨d, hd⟩ := hend text he
      simp [day?, hd, readDay_eq_ok.mp hd, bounds.weekly, bind, Except.bind]
  | some text =>
    obtain ⟨d, hd⟩ := hstart text hs
    cases he : w.endDay with
    | none => simp [day?, hd, readDay_eq_ok.mp hd, bounds.weekly, bind, Except.bind]
    | some text' =>
      obtain ⟨d', hd'⟩ := hend text' he
      simp [day?, hd, hd', readDay_eq_ok.mp hd, readDay_eq_ok.mp hd', bounds.weekly, bind, Except.bind]

/-! ## Minutes of the period -/

/-- The arithmetic of bounds whose ends lie in one period, a day or a week. -/
structure Bounds.Proper (b : Bounds) : Prop where
  period : b.period = minutesPerDay ∨ b.period = minutesPerWeek
  opens : b.opens < b.period
  closes : b.closes < b.period

theorem Bounds.position_eq (h : b.Proper) (t : Instant) : (b.position t : Int) = t.minutes % b.period := by
  unfold position
  rcases h.period with hday | hweek
  · rw [hday, if_neg (by decide), t.minuteOfDay_eq]
  · rw [hweek, if_pos rfl, t.minuteOfWeek_eq]

theorem Bounds.length_spec (h : b.Proper) : 0 < b.length ∧ b.length ≤ b.period ∧
    (b.opens + b.length) % b.period = b.closes := by
  have hlength : b.length = b.period ∧ (((b.closes : Int) - b.opens) % b.period).toNat = 0 ∨
      b.length = (((b.closes : Int) - b.opens) % b.period).toNat ∧ b.length ≠ 0 := by
    by_cases hwhole : (((b.closes : Int) - b.opens) % b.period).toNat = 0
    · exact .inl ⟨if_pos hwhole, hwhole⟩
    · exact .inr ⟨if_neg hwhole, fun hzero => hwhole ((if_neg hwhole).symm.trans hzero)⟩
  generalize b.length = n at hlength ⊢
  obtain ⟨period, opens, closes⟩ := b
  obtain ⟨rfl | rfl, hopens, hcloses⟩ := h
  all_goals
    simp only [minutesPerWeek, minutesPerDay] at *
    omega

theorem Bounds.length_of_coincident (h : b.opens = b.closes) : b.length = b.period := by
  unfold length
  rw [h, Int.sub_self, Int.zero_emod]
  rfl

/-- From a minute at which a window opens to one at which it closes it is never less than its length. -/
theorem Bounds.length_le (h : b.Proper) {m m' : Int} (hm : m % b.period = b.opens)
    (hm' : m' % b.period = b.closes) (hlt : m < m') : m + b.length ≤ m' := by
  obtain ⟨hpos, hle, hcloses⟩ := length_spec h
  generalize b.length = n at *
  obtain ⟨period, opens, closes⟩ := b
  obtain ⟨rfl | rfl, -, -⟩ := h
  all_goals
    simp only [minutesPerWeek, minutesPerDay] at *
    omega

/-- The start that is reckoned is the last full minute at which the window opens, if it has not closed
since. -/
theorem Bounds.start_eq_iff (h : b.Proper) : b.elapsed t < b.length ∧
      t.minuteFloor.minusMinutes (b.elapsed t) = s ↔
    (s.IsFull ∧ s.minutes % b.period = b.opens) ∧ s.seconds ≤ t.seconds ∧
      t.seconds < s.seconds + 60 * b.length := by
  obtain ⟨hpos, hle, -⟩ := length_spec h
  have hposition := position_eq h t
  unfold elapsed
  rw [hposition]
  generalize b.length = n at hpos hle ⊢
  obtain ⟨period, opens, closes⟩ := b
  obtain ⟨seconds, nanos⟩ := s
  obtain ⟨rfl | rfl, hopens, -⟩ := h
  all_goals
    simp only [Instant.minuteFloor, Instant.minusMinutes, Instant.minutes, Instant.IsFull,
      Instant.secondOfDay, Instant.mk.injEq, minutesPerWeek, minutesPerDay] at *
    omega

/-! ## Bounds and marks -/

/-- The bounds say of the period what the marks of the window say of instants. -/
structure Bounds.Fits (b : Bounds) (w : Window) : Prop extends b.Proper where
  period_eq : b.period = w.period
  opening : ∀ t, w.opening.Matches t ↔ t.IsFull ∧ t.minutes % b.period = b.opens
  closing : ∀ t, w.closing.Matches t ↔ t.IsFull ∧ t.minutes % b.period = b.closes

theorem Usable.exists_bounds (h : w.Usable) : ∃ b, w.bounds = .ok b ∧ b.Fits w := by
  have hopens := Mark.offset_lt (k := w.opening) h.hours.1 h.minutes.1
  have hcloses := Mark.offset_lt (k := w.closing) h.hours.2 h.minutes.2
  have hperiod := w.opening.period_cases
  rw [h.opening_period] at hopens hperiod
  rw [h.closing_period] at hcloses
  refine ⟨_, h.bounds_eq, ⟨hperiod, hopens, hcloses⟩, rfl, fun t => ?_, fun t => ?_⟩
  · rw [Mark.matches_iff h.hours.1 h.minutes.1, h.opening_period]
  · rw [Mark.matches_iff h.hours.2 h.minutes.2, h.closing_period]

namespace Bounds.Fits

variable {n : Nat}

theorem lasts (h : b.Fits w) : w.Lasts b.length := by
  obtain ⟨hpos, hle, hcloses⟩ := length_spec h.toProper
  refine ⟨hpos, h.period_eq ▸ hle, fun s hs => ?_, fun s e hs he hafter => ?_⟩
  · obtain ⟨hfull, hs⟩ := (h.opening s).mp hs
    rw [h.closing, Instant.plusSeconds_of_nanos hfull.2, Instant.minutes_plus, Int.add_emod, hs,
      Int.add_emod_emod]
    exact ⟨⟨(Int.add_mul_emod_self_left ..).trans hfull.1, rfl⟩, by exact_mod_cast hcloses⟩
  · rw [Instant.plusSeconds_of_nanos hs.nanos, Instant.notAfter_iff_of_nanos rfl]
    rw [Instant.notAfter_iff_of_nanos he.nanos] at hafter
    obtain ⟨⟨hs60, -⟩, hs⟩ := (h.opening s).mp hs
    obtain ⟨⟨he60, -⟩, he⟩ := (h.closing e).mp he
    have hbefore : s.minutes < e.minutes := by
      unfold Instant.minutes
      omega
    have hnext := length_le h.toProper hs he hbefore
    unfold Instant.minutes at hnext
    change s.seconds + 60 * (b.length : Int) ≤ e.seconds
    omega

/-- There are instants at which a window opens. -/
theorem exists_opening (h : b.Fits w) : ∃ s, w.opening.Matches s := by
  refine ⟨⟨60 * (b.opens - 3 * minutesPerDay), 0⟩, (h.opening _).mpr ⟨⟨?_, rfl⟩, ?_⟩⟩
  · exact Int.mul_emod_right ..
  · have hminutes : (Instant.mk (60 * (b.opens - 3 * minutesPerDay)) 0).minutes = b.opens := by
      unfold Instant.minutes
      dsimp only
      omega
    rw [hminutes]
    exact_mod_cast Nat.mod_eq_of_lt h.opens

/-- How long a window lasts is told by any one of its occurrences. -/
theorem lasts_unique (h : b.Fits w) (hn : w.Lasts n) : n = b.length := by
  obtain ⟨s, hs⟩ := h.exists_opening
  have hlasts := h.lasts
  have hfirst := hn.first s _ hs (hlasts.closes s hs)
  have hfirst' := hlasts.first s _ hs (hn.closes s hs)
  have hpos := hn.pos
  have hpos' := hlasts.pos
  simp only [Instant.plusSeconds_of_nanos hs.nanos, Instant.notAfter_iff_of_nanos] at hfirst hfirst'
  omega

theorem occurs_iff (h : b.Fits w) : w.Occurs n s t ↔ (s.IsFull ∧ s.minutes % b.period = b.opens) ∧
    s.seconds ≤ t.seconds ∧ t.seconds < s.seconds + 60 * n := by
  rw [← h.opening]
  constructor
  · rintro ⟨hopens, hbegun, hlasts⟩
    have hnanos := hopens.nanos
    rw [Instant.notAfter_iff_of_nanos hnanos] at hbegun
    rw [Instant.plusSeconds_of_nanos hnanos, Instant.notAfter_iff_of_nanos rfl] at hlasts
    exact ⟨hopens, hbegun, Int.not_le.mp hlasts⟩
  · rintro ⟨hopens, hbegun, hlasts⟩
    have hnanos := hopens.nanos
    refine ⟨hopens, (Instant.notAfter_iff_of_nanos hnanos).mpr hbegun, ?_⟩
    rw [Instant.plusSeconds_of_nanos hnanos, Instant.notAfter_iff_of_nanos rfl]
    exact Int.not_le.mpr hlasts

theorem occurrenceStart?_eq_some_iff (h : b.Fits w) (hb : w.bounds = .ok b) :
    w.occurrenceStart? t = some s ↔ w.Occurs b.length s t := by
  rw [h.occurs_iff, ← start_eq_iff h.toProper, occurrenceStart?, hb]
  by_cases hopen : b.elapsed t < b.length
  · simp [hopen]
  · simp [hopen]

/-- The start of an occurrence is among the instants that are kept, if it is not reckoned from one in the
first week of them. -/
theorem start_isRepresentable (h : b.Fits w) (hs : w.Occurs b.length s t)
    (ht : t.isRepresentable) (hlate : (Instant.earliest.plusSeconds (7 * 86400)).NotAfter t) :
    s.isRepresentable := by
  obtain ⟨⟨⟨-, hnanos⟩, -⟩, hbegun, hlasts⟩ := h.occurs_iff.mp hs
  have hlength : b.length ≤ 7 * 1440 := by
    have hle := (length_spec h.toProper).2.1
    have hperiod := h.period
    unfold minutesPerWeek minutesPerDay at hperiod
    omega
  rw [Instant.plusSeconds_of_nanos rfl, Instant.notAfter_iff_of_nanos rfl] at hlate
  simp only [Instant.isRepresentable, Instant.isDayInRange, Bool.and_eq_true, Bool.or_eq_true,
    decide_eq_true_eq] at ht ⊢
  rw [hnanos]
  unfold Instant.days at ht ⊢
  simp only [Instant.earliest, Instant.ofDate] at hlate
  generalize (Date.mk Instant.firstYear 1 1).toDays = first at ht hlate ⊢
  refine ⟨⟨?_, ?_⟩, .inl (by decide)⟩
  · omega
  · omega

end Bounds.Fits

/-- The window is open at the instant `t`, and has been since `s`. -/
def OpenSince (w : Window) (s t : Instant) : Prop := ∃ n, w.Lasts n ∧ w.Occurs n s t

theorem Usable.occurrenceStart?_eq_some_iff (h : w.Usable) :
    w.occurrenceStart? t = some s ↔ w.OpenSince s t := by
  obtain ⟨b, hb, hfits⟩ := h.exists_bounds
  rw [hfits.occurrenceStart?_eq_some_iff hb]
  constructor
  · exact fun hoccurs => ⟨b.length, hfits.lasts, hoccurs⟩
  · rintro ⟨n, hlasts, hoccurs⟩
    exact hfits.lasts_unique hlasts ▸ hoccurs

/-- A window that can be used is open exactly in its occurrences, which all last for one and the same
number of minutes: an instant that lies in one has its start reckoned, whatever midnight, week, month or
year has passed since, and no instant lies in two. Nothing goes wrong on the way, and the start is among the
instants that are kept, except in the very first week of these. -/
theorem start_of_occurrence (hvalid : w.validate = .ok ()) :
    (∃ b, w.bounds = .ok b) ∧ ∃ n, w.Lasts n ∧ (∀ n', w.Lasts n' → n' = n) ∧
      (w.closing = w.opening → n = w.period) ∧
      (∀ t s, w.occurrenceStart? t = some s ↔ w.Occurs n s t) ∧
      (∀ t s s', w.Occurs n s t → w.Occurs n s' t → s' = s) ∧
      (∀ s t t', w.Occurs n s t → w.Occurs n s t' → w.occurrenceStart? t' = w.occurrenceStart? t) ∧
      ∀ t s, t.isRepresentable → (Instant.earliest.plusSeconds (7 * 86400)).NotAfter t →
        w.occurrenceStart? t = some s → s.isRepresentable := by
  obtain ⟨b, hb, hfits⟩ := (usable_of_validate hvalid).exists_bounds
  have hstart (t s : Instant) : w.occurrenceStart? t = some s ↔ w.Occurs b.length s t :=
    hfits.occurrenceStart?_eq_some_iff hb
  refine ⟨⟨b, hb⟩, b.length, hfits.lasts, fun n' => hfits.lasts_unique, ?_, hstart, ?_, ?_, ?_⟩
  · intro hwhole
    obtain ⟨s, hs⟩ := hfits.exists_opening
    have hopens := (hfits.opening s).mp hs
    have hcloses := (hfits.closing s).mp (hwhole ▸ hs)
    rw [← hfits.period_eq]
    refine Bounds.length_of_coincident ?_
    exact_mod_cast hopens.2.symm.trans hcloses.2
  · intro t s s' hs hs'
    rw [← hstart] at hs hs'
    exact Option.some.inj (hs'.symm.trans hs)
  · intro s t t' ht ht'
    rw [← hstart] at ht ht'
    exact ht'.trans ht.symm
  · intro t s ht hlate hs
    exact hfits.start_isRepresentable ((hstart t s).mp hs) ht hlate

/-- From the evening of a Thursday into the night. -/
def thursdays : Window :=
  { startDay := some "Thu", startHour := 22, endDay := some " friday", endHour := 4 }

/-- At three o'clock on the first day of 2027 the occurrence is the one of the last day of 2026. -/
theorem start_of_occurrence_newYear : thursdays.validate = .ok () ∧ ∃ n, thursdays.Lasts n ∧
    thursdays.Occurs n ⟨1798754400, 0⟩ ⟨1798772400, 0⟩ ∧
    (⟨1798754400, 0⟩ : Instant).minuteText = "2026-12-31T22:00Z" ∧
    (⟨1798772400, 0⟩ : Instant).minuteText = "2027-01-01T03:00Z" := by
  have hvalid : thursdays.validate = .ok () := by rfl
  obtain ⟨-, n, hlasts, -, -, hstart, -⟩ := start_of_occurrence hvalid
  exact ⟨hvalid, n, hlasts, (hstart _ _).mp (by decide +kernel), by decide +kernel, by decide +kernel⟩

end Window

end PoolKeeper
