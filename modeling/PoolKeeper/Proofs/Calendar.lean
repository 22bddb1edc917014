import PoolKeeper.Time.Calendar

/-!
# `PoolKeeper/Proofs/Calendar.lean` — dates and back

Every day has a name and no two days share one: the date of a day exists (`Date.isValid_ofDays`) and
names it (`Date.toDays_ofDays`). Both follow from one account of what the arithmetic of `Date.ofDays`
finds (`Date.exists_parts`): the era, the year of it, the month reckoned from March, and what is left.
-/

set_option autoImplicit false

namespace PoolKeeper

namespace Date

/-- Days from the first of March of a year of the era to the first day of the era. -/
def yearStart (y : Int) : Int := 365 * y + y / 4 - y / 100

/-- Days from the first of March to the first of the month that is `k` months later. -/
def monthStart (k : Int) : Int := (153 * k + 2) / 5

/-- The year of the era that holds a day of it. -/
def yearOfEra (d : Int) : Int := (d - d / 1460 + d / 36524 - d / 146096) / 365

/-- The division by the mean length of a year never misses the year. -/
theorem yearOfEra_spec {d : Int} (h0 : 0 ≤ d) (h1 : d < 146097) :
    0 ≤ yearOfEra d ∧ yearOfEra d ≤ 399 ∧ yearStart (yearOfEra d) ≤ d ∧
      (d < yearStart (yearOfEra d + 1) ∨ d = 146096 ∧ yearOfEra d = 399) := by
  by_cases hlast : d = 146096
  · subst hlast
    decide
  obtain ⟨y, hy⟩ : ∃ y, yearOfEra d = y := ⟨_, rfl⟩
  rw [hy]
  rw [yearOfEra, show d / 146096 = 0 by omega] at hy
  unfold yearStart
  -- Centuries are told apart first; within one, the fourth years are.
  have hcentury : y / 100 = d / 36524 := by
    have : d / 36524 = 0 ∨ d / 36524 = 1 ∨ d / 36524 = 2 ∨ d / 36524 = 3 := by omega
    rcases this with h | h | h | h <;> omega
  have hlow : y / 4 ≤ d / 1460 := by omega
  have hhigh : d / 1460 ≤ (y + 1) / 4 := by omega
  refine ⟨by omega, by omega, by omega, .inl ?_⟩
  by_cases hturn : (y + 1) / 100 = y / 100
  · omega
  · have : y + 1 = 100 * (d / 36524 + 1) := by omega
    omega

theorem monthOfYear_spec {doy : Int} (h0 : 0 ≤ doy) (h1 : doy ≤ 365) :
    0 ≤ (5 * doy + 2) / 153 ∧ (5 * doy + 2) / 153 ≤ 11 ∧
      monthStart ((5 * doy + 2) / 153) ≤ doy ∧ doy < monthStart ((5 * doy + 2) / 153 + 1) := by
  unfold monthStart
  omega

theorem isLeapYear_of_full {y era d : Int} (hd : yearStart y + 365 ≤ d)
    (hnext : d < yearStart (y + 1) ∨ d = 146096 ∧ y = 399) : isLeapYear (y + era * 400 + 1) = true := by
  unfold yearStart at hd hnext
  simp only [isLeapYear, Bool.and_eq_true, Bool.or_eq_true, beq_iff_eq, bne_iff_ne, ne_eq]
  omega

/-- A day is some day of some month of some year. -/
theorem exists_parts (n : Int) : ∃ era y k j : Int, 0 ≤ y ∧ y ≤ 399 ∧ 0 ≤ k ∧ k ≤ 11 ∧ 0 ≤ j ∧
    j < monthStart (k + 1) - monthStart k ∧
    (monthStart k + j = 365 → isLeapYear (y + era * 400 + 1) = true) ∧ monthStart k + j ≤ 365 ∧
    n + 719468 = era * 146097 + yearStart y + monthStart k + j ∧
    ofDays n = ⟨y + era * 400 + if k < 10 then 0 else 1,
      (if k < 10 then k + 3 else k - 9).toNat, (j + 1).toNat⟩ := by
  -- The era is a quotient, and year and month are found in the remainder.
  obtain ⟨d, hd⟩ : ∃ d, d = (n + 719468) % 146097 := ⟨_, rfl⟩
  have h0 : 0 ≤ d := by omega
  have h1 : d < 146097 := by omega
  obtain ⟨hy0, hy1, hstart, hnext⟩ := yearOfEra_spec h0 h1
  obtain ⟨y, hy⟩ : ∃ y, y = yearOfEra d := ⟨_, rfl⟩
  rw [← hy] at hy0 hy1 hstart hnext
  have hdoy : d - yearStart y ≤ 365 := by
    unfold yearStart at hnext ⊢
    omega
  obtain ⟨hk0, hk1, hmonth, hmonthNext⟩ := monthOfYear_spec (by omega) hdoy
  obtain ⟨k, hk⟩ : ∃ k, k = (5 * (d - yearStart y) + 2) / 153 := ⟨_, rfl⟩
  rw [← hk] at hk0 hk1 hmonth hmonthNext
  refine ⟨(n + 719468) / 146097, y, k, d - yearStart y - monthStart k, hy0, hy1, hk0, hk1, by omega,
    by omega, fun h => isLeapYear_of_full (by omega) hnext, by omega, by omega, ?_⟩
  have hdate : ofDays n = ⟨y + (n + 719468) / 146097 * 400 +
      if (if k < 10 then k + 3 else k - 9) ≤ 2 then 1 else 0,
      (if k < 10 then k + 3 else k - 9).toNat,
      (d - yearStart y - (153 * k + 2) / 5 + 1).toNat⟩ := by
    subst hk
    subst hy
    subst hd
    rfl
  rw [hdate]
  by_cases hten : k < 10
  · rw [if_pos hten, if_pos hten, if_neg (by omega)]
    rfl
  · rw [if_neg hten, if_neg hten, if_pos (by omega)]
    rfl

theorem toDays_ofDays (n : Int) : (ofDays n).toDays = n := by
  obtain ⟨era, y, k, j, hy0, hy1, hk0, hk1, hj0, -, -, -, hn, hdate⟩ := exists_parts n
  rw [hdate]
  unfold yearStart monthStart at hn
  by_cases hten : k < 10
  · simp only [if_pos hten, toDays]
    rw [if_neg (by omega)]
    omega
  · simp only [if_neg hten, toDays]
    rw [if_pos (by omega)]
    omega

/-- Months reckoned from March have their lengths from one rule; February is what is left over. -/
theorem daysInMonth_eq {k : Int} (h0 : 0 ≤ k) (h1 : k < 11) (year : Int) :
    (daysInMonth year (if k < 10 then k + 3 else k - 9).toNat : Int) =
      monthStart (k + 1) - monthStart k := by
  have hk : k = 0 ∨ k = 1 ∨ k = 2 ∨ k = 3 ∨ k = 4 ∨ k = 5 ∨ k = 6 ∨ k = 7 ∨ k = 8 ∨ k = 9 ∨
      k = 10 := by omega
  rcases hk with rfl | rfl | rfl | rfl | rfl | rfl | rfl | rfl | rfl | rfl | rfl <;> rfl

theorem isValid_ofDays (n : Int) : (ofDays n).isValid = true := by
  obtain ⟨era, y, k, j, hy0, hy1, hk0, hk1, hj0, hj1, hleap, hdoy, hn, hdate⟩ := exists_parts n
  simp only [hdate, isValid, Bool.and_eq_true, decide_eq_true_eq]
  refine ⟨⟨⟨?_, ?_⟩, ?_⟩, ?_⟩
  · split <;> omega
  · split <;> omega
  · omega
  by_cases hfebruary : k = 11
  · subst hfebruary
    change (j + 1).toNat ≤ if isLeapYear (y + era * 400 + 1) = true then 29 else 28
    change 337 + j = 365 → _ at hleap
    change 337 + j ≤ 365 at hdoy
    split
    next => omega
    next h =>
      have hnot : 337 + j ≠ 365 := fun hfull => h (hleap hfull)
      omega
  · have hlength := daysInMonth_eq hk0 (by omega) (y + era * 400 + if k < 10 then 0 else 1)
    omega

end Date

end PoolKeeper
