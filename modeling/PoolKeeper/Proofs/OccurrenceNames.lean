import PoolKeeper.Proofs.Occurrence
import PoolKeeper.Proofs.Stamp
import PoolKeeper.Settings.Basic

/-!
# `PoolKeeper/Proofs/OccurrenceNames.lean` — what occurrences are called

The scheduler knows an occurrence by a text only: what its window is called, `@`, and when it started. A
backup would be left out if two occurrences had one text. A name may hold any characters, and a year may
have any number of digits and a sign, so it has to be shown that no two come out alike: a name ends at the
last `@` of the text (`stamped_inj`), and a stamp gives its instant back from left to right
(`Instant.minuteText_inj`), as `Stamp` does for the exact form.

Which occurrence that is, is said by `OpensFirst`: the windows before it in the list are closed.
-/

set_option autoImplicit false

namespace PoolKeeper

open Text

/-! ## Stamps are told apart -/

namespace Text

theorem padded_append_inj {n n' : Nat} (hn : n < 100) (hn' : n' < 100) {rest rest' : List Char} :
    padded 2 n ++ rest = padded 2 n' ++ rest' ↔ n = n' ∧ rest = rest' := by
  constructor
  · intro heq
    have hread := congrArg Instant.readField? heq
    rw [Instant.readField?_padded hn, Instant.readField?_padded hn'] at hread
    simpa using hread
  · rintro ⟨rfl, rfl⟩
    rfl

/-- What stands after the last of its kind in a text can be told from what stands before it. -/
theorem append_cons_inj_of_notMem {c : Char} {front front' rest rest' : List Char} (h : c ∉ rest)
    (h' : c ∉ rest') : front ++ c :: rest = front' ++ c :: rest' ↔ front = front' ∧ rest = rest' := by
  constructor
  · intro heq
    rcases List.append_eq_append_iff.mp heq with ⟨more, rfl, hrest⟩ | ⟨more, rfl, hrest⟩
    · cases more with
      | nil => simpa using hrest
      | cons d more =>
        obtain ⟨-, rfl⟩ := List.cons_eq_cons.mp hrest
        simp at h
    · cases more with
      | nil => simpa [eq_comm] using hrest
      | cons d more =>
        obtain ⟨-, rfl⟩ := List.cons_eq_cons.mp hrest
        simp at h'
  · rintro ⟨rfl, rfl⟩
    rfl

end Text

namespace Date

theorem yearChars_append_inj {year year' : Int} {rest rest' : List Char} :
    yearChars year ++ '-' :: rest = yearChars year' ++ '-' :: rest' ↔ year = year' ∧ rest = rest' := by
  constructor
  · intro heq
    have hread := congrArg Instant.readYear? heq
    rw [Instant.readYear?_yearChars, Instant.readYear?_yearChars] at hread
    simpa using hread
  · rintro ⟨rfl, rfl⟩
    rfl

theorem chars_append_inj {d d' : Date} (h : d.isValid = true) (h' : d'.isValid = true)
    {rest rest' : List Char} : d.chars ++ rest = d'.chars ++ rest' ↔ d = d' ∧ rest = rest' := by
  obtain ⟨hmonth, hday⟩ := two_digits h
  obtain ⟨hmonth', hday'⟩ := two_digits h'
  obtain ⟨year, month, day⟩ := d
  obtain ⟨year', month', day'⟩ := d'
  simp only [chars, List.append_assoc, List.cons_append, yearChars_append_inj,
    padded_append_inj hmonth hmonth', padded_append_inj hday hday', List.cons.injEq, true_and,
    mk.injEq, and_assoc]

theorem mem_chars {d : Date} {c : Char} (h : c ∈ d.chars) : c.isDigit ∨ c = '-' ∨ c = '+' := by
  simp only [chars, List.mem_append, List.mem_cons] at h
  rcases h with (h | rfl | h) | rfl | h
  · exact mem_yearChars h
  · exact .inr (.inl rfl)
  · exact .inl (mem_padded h)
  · exact .inr (.inl rfl)
  · exact .inl (mem_padded h)

end Date

namespace Instant

theorem isValid_date (t : Instant) : t.date.isValid = true := Date.isValid_ofDays t.days

theorem days_eq_of_date_eq {t t' : Instant} (h : t.date = t'.date) : t.days = t'.days := by
  rw [← Date.toDays_ofDays t.days, ← Date.toDays_ofDays t'.days]
  exact congrArg Date.toDays h

theorem dayText_inj {t t' : Instant} : t.dayText = t'.dayText ↔ t.date = t'.date := by
  have hchars : t.date.chars ++ [] = t'.date.chars ++ [] ↔ t.date = t'.date ∧ ([] : List Char) = [] :=
    Date.chars_append_inj t.isValid_date t'.isValid_date
  rw [dayText, dayText, String.ofList_inj]
  simpa using hchars

/-- A full minute is told by its date, its hour and its minute. -/
theorem IsFull.eq_of_clock {s s' : Instant} (h : s.IsFull) (h' : s'.IsFull) (hdate : s.date = s'.date)
    (hhour : s.hour = s'.hour) (hminute : s.minute = s'.minute) : s = s' := by
  have hdays := days_eq_of_date_eq hdate
  have hclock := s.secondOfDay_eq
  have hclock' := s'.secondOfDay_eq
  obtain ⟨seconds, nanos⟩ := s
  obtain ⟨seconds', nanos'⟩ := s'
  obtain ⟨hfull, hnanos⟩ := h
  obtain ⟨hfull', hnanos'⟩ := h'
  rw [hhour, hminute] at hclock
  unfold days at hdays
  unfold secondOfDay at hclock hclock'
  rw [mk.injEq]
  dsimp only at *
  omega

theorem minuteText_inj {s s' : Instant} (h : s.IsFull) (h' : s'.IsFull) :
    s.minuteText = s'.minuteText ↔ s = s' := by
  constructor
  · intro heq
    have hhour := Nat.lt_trans s.hour_lt (show 24 < 100 by decide)
    have hhour' := Nat.lt_trans s'.hour_lt (show 24 < 100 by decide)
    have hminute := Nat.lt_trans s.minute_lt (show 60 < 100 by decide)
    have hminute' := Nat.lt_trans s'.minute_lt (show 60 < 100 by decide)
    simp only [minuteText, String.ofList_inj, List.append_assoc, List.cons_append,
      Date.chars_append_inj s.isValid_date s'.isValid_date, padded_append_inj hhour hhour',
      padded_append_inj hminute hminute', List.cons.injEq, true_and, and_true] at heq
    exact h.eq_of_clock h' heq.1 heq.2.1 heq.2.2
  · rintro rfl
    rfl

theorem at_notMem_minuteText (t : Instant) : '@' ∉ t.minuteText.toList := by
  intro h
  simp only [minuteText, String.toList_ofList, List.mem_append, List.mem_cons, List.mem_nil_iff,
    or_false] at h
  rcases h with ((h | h | h) | h | h) | h
  · rcases Date.mem_chars h with h | h | h <;> exact absurd h (by decide)
  · exact absurd h (by decide)
  · exact absurd (mem_padded h) (by decide)
  · exact absurd h (by decide)
  · exact absurd (mem_padded h) (by decide)
  · exact absurd h (by decide)

end Instant

namespace Window

variable {ws : List Window} {w w' : Window} {t t' s s' : Instant} {i i' : Nat} {id : String}

/-- The last `@` ends the name, whatever is in it. -/
theorem stamped_inj {name name' : String} (h : s.IsFull) (h' : s'.IsFull) :
    name ++ "@" ++ s.minuteText = name' ++ "@" ++ s'.minuteText ↔ name = name' ∧ s = s' := by
  have hname : name.toList = name'.toList ↔ name = name' := String.toList_inj
  have hstamp : s.minuteText.toList = s'.minuteText.toList ↔ s.minuteText = s'.minuteText :=
    String.toList_inj
  rw [← String.toList_inj, ← Instant.minuteText_inj h h', ← hname, ← hstamp]
  simp only [String.toList_append, List.append_assoc]
  exact append_cons_inj_of_notMem s.at_notMem_minuteText s'.at_notMem_minuteText

/-! ## The first window that is open -/

theorem validate_of_checkWindows {k : Nat} (h : Settings.checkWindows k ws = .ok ()) (hw : w ∈ ws) :
    w.validate = .ok () := by
  induction ws generalizing k with
  | nil => cases hw
  | cons v ws ih =>
    rw [Settings.checkWindows] at h
    cases hv : v.validate with
    | error defect =>
      rw [hv] at h
      cases h
    | ok _ =>
      rw [hv] at h
      rcases List.mem_cons.mp hw with rfl | hw
      · exact hv
      · exact ih h hw

/-- The window at position `i` of the list is open at the instant, and has been since `s`; none that
stands before it is open. -/
structure OpensFirst (ws : List Window) (t : Instant) (i : Nat) (w : Window) (s : Instant) : Prop where
  listed : ws[i]? = some w
  since : w.OpenSince s t
  first : ∀ (j : Nat) v, j < i → ws[j]? = some v → ∀ s', ¬ v.OpenSince s' t

theorem opensFirst_zero {v : Window} :
    OpensFirst (v :: ws) t 0 w s ↔ v = w ∧ v.OpenSince s t := by
  constructor
  · rintro ⟨hlisted, hsince, -⟩
    obtain rfl : v = w := by simpa using hlisted
    exact ⟨rfl, hsince⟩
  · rintro ⟨rfl, hsince⟩
    exact ⟨rfl, hsince, fun j u hj => absurd hj (Nat.not_lt_zero j)⟩

theorem opensFirst_succ {v : Window} :
    OpensFirst (v :: ws) t (i + 1) w s ↔ (∀ s', ¬ v.OpenSince s' t) ∧ OpensFirst ws t i w s := by
  constructor
  · rintro ⟨hlisted, hsince, hfirst⟩
    refine ⟨hfirst 0 v (Nat.succ_pos i) rfl, by simpa using hlisted, hsince, fun j u hj hu => ?_⟩
    exact hfirst (j + 1) u (Nat.succ_lt_succ hj) (by simpa using hu)
  · rintro ⟨hclosed, hlisted, hsince, hfirst⟩
    refine ⟨by simpa using hlisted, hsince, fun j u hj hu => ?_⟩
    cases j with
    | zero =>
      obtain rfl : v = u := by simpa using hu
      exact hclosed
    | succ j => exact hfirst j u (Nat.lt_of_succ_lt_succ hj) (by simpa using hu)

theorem Usable.occurrenceStart?_eq_none_iff (h : w.Usable) :
    w.occurrenceStart? t = none ↔ ∀ s, ¬ w.OpenSince s t := by
  simp only [Option.eq_none_iff_forall_ne_some, ne_eq, h.occurrenceStart?_eq_some_iff]

theorem firstOpen?_eq_some_iff (h : ∀ w ∈ ws, w.Usable) (k : Nat) : firstOpen? t k ws = some id ↔
    ∃ i w s, OpensFirst ws t i w s ∧ w.label (k + i) ++ "@" ++ s.minuteText = id := by
  induction ws generalizing k with
  | nil =>
    refine iff_of_false (by simp [firstOpen?]) ?_
    rintro ⟨i, w, s, ⟨hlisted, -, -⟩, -⟩
    simp at hlisted
  | cons v ws ih =>
    obtain ⟨hv, hws⟩ := List.forall_mem_cons.mp h
    rw [firstOpen?]
    -- The first window decides if it is open; otherwise places are counted from the next.
    cases hstart : v.occurrenceStart? t with
    | some s =>
      have hopen := hv.occurrenceStart?_eq_some_iff.mp hstart
      constructor
      · intro hid
        exact ⟨0, v, s, opensFirst_zero.mpr ⟨rfl, hopen⟩, Option.some.inj hid⟩
      · rintro ⟨i, w, s', hfirst, rfl⟩
        cases i with
        | zero =>
          obtain ⟨rfl, hopen'⟩ := opensFirst_zero.mp hfirst
          obtain rfl : s = s' :=
            Option.some.inj (hstart.symm.trans (hv.occurrenceStart?_eq_some_iff.mpr hopen'))
          rfl
        | succ i => exact absurd hopen ((opensFirst_succ.mp hfirst).1 s)
    | none =>
      have hclosed := hv.occurrenceStart?_eq_none_iff.mp hstart
      refine (ih hws (k + 1)).trans ⟨?_, ?_⟩
      · rintro ⟨i, w, s, hfirst, hid⟩
        exact ⟨i + 1, w, s, opensFirst_succ.mpr ⟨hclosed, hfirst⟩, Nat.add_right_comm k 1 i ▸ hid⟩
      · rintro ⟨i, w, s, hfirst, hid⟩
        cases i with
        | zero =>
          obtain ⟨rfl, hopen⟩ := opensFirst_zero.mp hfirst
          exact absurd hopen (hclosed s)
        | succ i => exact ⟨i, w, s, (opensFirst_succ.mp hfirst).2, Nat.add_right_comm k 1 i ▸ hid⟩

theorem firstOpen?_eq_none_iff (h : ∀ w ∈ ws, w.Usable) (k : Nat) :
    firstOpen? t k ws = none ↔ ∀ w ∈ ws, ∀ s, ¬ w.OpenSince s t := by
  induction ws generalizing k with
  | nil => simp [firstOpen?]
  | cons v ws ih =>
    obtain ⟨hv, hws⟩ := List.forall_mem_cons.mp h
    rw [firstOpen?, List.forall_mem_cons, ← hv.occurrenceStart?_eq_none_iff]
    cases hstart : v.occurrenceStart? t with
    | none => simpa using ih hws (k + 1)
    | some s => simp

theorem OpenSince.isFull (h : w.OpenSince s t) : s.IsFull := by
  obtain ⟨n, -, hoccurs⟩ := h
  exact Instant.isFull_iff.mp ⟨hoccurs.opens.second, hoccurs.opens.nanos⟩

/-! ## Identifiers -/

theorem active?_of_ne_nil (h : ws ≠ []) (t : Instant) : active? ws t = firstOpen? t 0 ws := by
  rw [active?, if_neg (by simpa using h)]

theorem OpensFirst.ne_nil (h : OpensFirst ws t i w s) : ws ≠ [] := by
  rintro rfl
  simpa using h.listed

theorem OpensFirst.le (h : OpensFirst ws t i w s) (h' : OpensFirst ws t i' w' s') : i ≤ i' := by
  refine Nat.le_of_not_lt fun hlt => ?_
  exact h.first i' w' hlt h'.listed s' h'.since

/-- There is one first window that is open, and one start. -/
theorem OpensFirst.unique (husable : ∀ w ∈ ws, w.Usable) (h : OpensFirst ws t i w s)
    (h' : OpensFirst ws t i' w' s') : i = i' ∧ w = w' ∧ s = s' := by
  obtain rfl : i = i' := Nat.le_antisymm (h.le h') (h'.le h)
  obtain rfl : w = w' := Option.some.inj (h.listed.symm.trans h'.listed)
  have hw := husable w (List.mem_of_getElem? h.listed)
  have hstart := hw.occurrenceStart?_eq_some_iff.mpr h.since
  have hstart' := hw.occurrenceStart?_eq_some_iff.mpr h'.since
  exact ⟨rfl, rfl, Option.some.inj (hstart.symm.trans hstart')⟩

theorem OpensFirst.active?_eq (h : ∀ w ∈ ws, w.Usable) (hfirst : OpensFirst ws t i w s) :
    active? ws t = some (w.label i ++ "@" ++ s.minuteText) := by
  rw [active?_of_ne_nil hfirst.ne_nil, firstOpen?_eq_some_iff h]
  exact ⟨i, w, s, hfirst, by rw [Nat.zero_add]⟩

/-- The text by which an occurrence is known identifies it. There is none exactly when there are windows
and all are closed. Where there are windows, it is the text of the first one that is open, and two of these
are the same exactly when the windows are called the same and the occurrences started at the same instant;
where there are none, when the dates are the same. -/
theorem active_identifies_occurrence (hvalid : Settings.checkWindows 0 ws = .ok ()) :
    (∀ t, active? ws t = none ↔ ws ≠ [] ∧ ∀ w ∈ ws, ∀ s, ¬ w.OpenSince s t) ∧
      (∀ t, ws ≠ [] → ((active? ws t).isSome ↔ ∃ i w s, OpensFirst ws t i w s)) ∧
      (∀ t i w s i' w' s', OpensFirst ws t i w s → OpensFirst ws t i' w' s' →
        i = i' ∧ w = w' ∧ s = s') ∧
      (∀ t t' i i' w w' s s', OpensFirst ws t i w s → OpensFirst ws t' i' w' s' →
        (active? ws t = active? ws t' ↔ w.label i = w'.label i' ∧ s = s')) ∧
      (ws = [] → ∀ t t', active? ws t = active? ws t' ↔ t.date = t'.date) := by
  have husable : ∀ w ∈ ws, w.Usable := fun w hw => usable_of_validate (validate_of_checkWindows hvalid hw)
  refine ⟨fun t => ?_, fun t hne => ?_, ?_, ?_, ?_⟩
  · cases ws with
    | nil => simp [Window.active?]
    | cons v ws =>
      rw [active?_of_ne_nil (List.cons_ne_nil v ws), firstOpen?_eq_none_iff husable]
      simp
  · rw [active?_of_ne_nil hne, Option.isSome_iff_exists]
    simp only [firstOpen?_eq_some_iff husable]
    constructor
    · rintro ⟨_, i, w, s, hfirst, -⟩
      exact ⟨i, w, s, hfirst⟩
    · rintro ⟨i, w, s, hfirst⟩
      exact ⟨_, i, w, s, hfirst, rfl⟩
  · exact fun t i w s i' w' s' => OpensFirst.unique husable
  · intro t t' i i' w w' s s' h h'
    rw [h.active?_eq husable, h'.active?_eq husable, Option.some.injEq]
    exact stamped_inj h.since.isFull h'.since.isFull
  · rintro rfl t t'
    change some ("always@" ++ t.dayText) = some ("always@" ++ t'.dayText) ↔ _
    rw [Option.some.injEq, String.append_right_inj, Instant.dayText_inj]

/-- From the evening into the night, under a name that has an `@` in it. -/
def nights : Window := { name := some "night@2026", startHour := 22, endHour := 4 }

/-- The night into the year 10000 is one occurrence, although the years are not written with the same
number of characters. The night after it is another. -/
theorem active_identifies_occurrence_year10000 : Settings.checkWindows 0 [nights] = .ok () ∧
    active? [nights] ⟨253402297200, 0⟩ = active? [nights] ⟨253402311600, 0⟩ ∧
    active? [nights] ⟨253402297200, 0⟩ ≠ active? [nights] ⟨253402383600, 0⟩ ∧
    active? [nights] ⟨253402383600, 0⟩ = some "night@2026@+10000-01-01T22:00Z" := by
  have hvalid : Settings.checkWindows 0 [nights] = .ok () := by rfl
  have hopens (t s : Instant) (hstart : nights.occurrenceStart? t = some s) :
      OpensFirst [nights] t 0 nights s :=
    opensFirst_zero.mpr ⟨rfl, (usable_of_validate (by rfl)).occurrenceStart?_eq_some_iff.mp hstart⟩
  have hevening := hopens ⟨253402297200, 0⟩ ⟨253402293600, 0⟩ (by decide +kernel)
  have hmorning := hopens ⟨253402311600, 0⟩ ⟨253402293600, 0⟩ (by decide +kernel)
  have hnext := hopens ⟨253402383600, 0⟩ ⟨253402380000, 0⟩ (by decide +kernel)
  obtain ⟨-, -, -, hsame, -⟩ := active_identifies_occurrence hvalid
  refine ⟨hvalid, (hsame _ _ _ _ _ _ _ _ hevening hmorning).mpr ⟨rfl, rfl⟩, ?_, by decide +kernel⟩
  rw [ne_eq, hsame _ _ _ _ _ _ _ _ hevening hnext]
  exact fun h => absurd h.2 (by decide)

end Window

end PoolKeeper
