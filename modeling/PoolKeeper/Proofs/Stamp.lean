import PoolKeeper.Proofs.Calendar
import PoolKeeper.Proofs.SnapshotView
import PoolKeeper.Time.Stamp

/-!
# `PoolKeeper/Proofs/Stamp.lean` — instants are read back as they were written

What is written with `Instant.exactText` is what the reader finds again, to the nanosecond and through leap
seconds (`Instant.ofText?_exactText`). All that is asked of the instant is that it could have been read
in the first place. The lemmas before it follow the text from left to right: each says that one part is
read and what is left over is the rest.
-/

set_option autoImplicit false

namespace PoolKeeper

open Text

namespace Text

theorem isDigit_of_mem_padded {width n : Nat} {c : Char} (h : c ∈ padded width n) :
    isDigit c = true := by
  have hrange : '0' ≤ c ∧ c ≤ '9' := by
    have hdigit := mem_padded h
    simp only [Char.isDigit, Bool.and_eq_true, decide_eq_true_eq] at hdigit
    exact hdigit
  simp [isDigit, hrange]

theorem padded_ne_nil (width n : Nat) : padded width n ≠ [] := by
  intro h
  have hdigits : decimal n = [] := (List.append_eq_nil_iff.mp h).2
  exact Nat.toDigits_ne_nil hdigits

theorem decimalValue_padded (width n : Nat) : decimalValue (padded width n) = n := by
  have hfold : ∀ (cs : List Char) (init : Nat),
      cs.foldl (fun n c => n * 10 + digitValue c) init = Nat.ofDigitChars 10 cs init := by
    intro cs
    induction cs with
    | nil => intro init; rfl
    | cons c cs ih =>
      intro init
      rw [List.foldl_cons, ih, Nat.ofDigitChars_cons, Nat.mul_comm, digitValue]
  rw [decimalValue, hfold, padded, Nat.ofDigitChars_append, Nat.ofDigitChars_replicate_zero,
    Nat.mul_zero]
  exact Nat.ofDigitChars_ten_toDigits

theorem length_padded {width n : Nat} (hwidth : 0 < width) (hn : n < Nat.pow 10 width) :
    (padded width n).length = width := by
  have h : (decimal n).length ≤ width := (Nat.length_toDigits_le_iff (by decide) hwidth).mpr hn
  simp only [padded, List.length_append, List.length_replicate]
  omega

theorem dropBlanks_cons {c : Char} (h : isBlank c = false) (cs : List Char) :
    dropBlanks (c :: cs) = c :: cs := by
  rw [dropBlanks, List.dropWhile_cons_of_neg (by simp [h])]

theorem isBlank_of_isDigit {c : Char} (h : isDigit c = true) : isBlank c = false := by
  simp only [isDigit, Bool.and_eq_true, decide_eq_true_eq] at h
  have hlow : 48 ≤ c.toNat := h.1
  have hhigh : c.toNat ≤ 57 := h.2
  simp only [isBlank, Bool.or_eq_false_iff, Bool.and_eq_false_iff, beq_eq_false_iff_ne,
    decide_eq_false_iff_not]
  omega

theorem dropBlanks_padded (width n : Nat) (cs : List Char) :
    dropBlanks (padded width n ++ cs) = padded width n ++ cs := by
  cases h : padded width n with
  | nil => exact absurd h (padded_ne_nil width n)
  | cons d ds =>
    have hdigit : isDigit d = true := isDigit_of_mem_padded (h ▸ List.mem_cons_self)
    exact dropBlanks_cons (isBlank_of_isDigit hdigit) _

end Text

/-- Month and day have two digits at most. -/
theorem Date.two_digits {d : Date} (h : d.isValid = true) : d.month < 100 ∧ d.day < 100 := by
  have hmost : daysInMonth d.year d.month ≤ 31 := by
    unfold daysInMonth
    split
    · split <;> decide
    all_goals decide
  simp only [isValid, Bool.and_eq_true, decide_eq_true_eq] at h
  omega

namespace Instant

/-- A number is read up to the last digit that may belong to it. -/
theorem readDigits?_padded {most width n : Nat} {rest : List Char}
    (hmost : (padded width n).length ≤ most)
    (hstop : (padded width n).length = most ∨ ∀ c ∈ rest.head?, isDigit c = false) :
    readDigits? most (padded width n ++ rest) = some (n, rest) := by
  have htaken : ((padded width n ++ rest).take most).takeWhile isDigit = padded width n := by
    rw [List.take_append, List.take_of_length_le hmost, List.takeWhile_append_of_pos fun c hc =>
      isDigit_of_mem_padded hc]
    have hnone : (rest.take (most - (padded width n).length)).takeWhile isDigit = [] := by
      rcases hstop with hfull | hrest
      · rw [hfull, Nat.sub_self, List.take_zero]
        rfl
      · cases rest with
        | nil => simp
        | cons c cs =>
          have hc : isDigit c = false := hrest c rfl
          cases most - (padded width n).length with
          | zero => rfl
          | succ k => rw [List.take_succ_cons, List.takeWhile_cons_of_neg (by simp [hc])]
    rw [hnone, List.append_nil]
  rw [readDigits?, htaken]
  simp only [List.isEmpty_iff, if_neg (padded_ne_nil width n), decimalValue_padded,
    List.drop_left]

theorem readField?_padded {n : Nat} (hn : n < 100) (rest : List Char) :
    readField? (padded 2 n ++ rest) = some (n, rest) := by
  have hlength : (padded 2 n).length = 2 := length_padded (by decide) hn
  rw [readField?, dropBlanks_padded]
  exact readDigits?_padded (Nat.le_of_eq hlength) (.inl hlength)

theorem readMark?_cons {c : Char} (h : isBlank c = false) (rest : List Char) :
    readMark? c (c :: rest) = some rest := by
  rw [readMark?, dropBlanks_cons h]
  exact if_pos rfl

theorem readYear?_signed {sign : Char} (hsign : sign = '-' ∨ sign = '+') {n : Nat} {rest : List Char}
    (hrest : ∀ c ∈ rest.head?, isDigit c = false) :
    readYear? (sign :: padded 4 n ++ rest) = some (if sign = '-' then -(n : Int) else n, rest) := by
  have hread : readDigits? (padded 4 n ++ rest).length (padded 4 n ++ rest) = some (n, rest) :=
    readDigits?_padded (by simp) (.inr hrest)
  rw [List.cons_append, readYear?]
  rcases hsign with rfl | rfl
  · rw [dropBlanks_cons (by decide)]
    change Option.map _ (readDigits? (padded 4 n ++ rest).length (padded 4 n ++ rest)) = _
    rw [hread]
    rfl
  · rw [dropBlanks_cons (by decide)]
    change Option.map _ (readDigits? (padded 4 n ++ rest).length (padded 4 n ++ rest)) = _
    rw [hread]
    rfl

theorem readYear?_plain {n : Nat} (hn : n < 10000) (rest : List Char) :
    readYear? (padded 4 n ++ rest) = some ((n : Int), rest) := by
  have hlength : (padded 4 n).length = 4 := length_padded (by decide) hn
  have hread : readDigits? 4 (padded 4 n ++ rest) = some (n, rest) :=
    readDigits?_padded (Nat.le_of_eq hlength) (.inl hlength)
  obtain ⟨d, ds, hds⟩ := List.exists_cons_of_ne_nil (padded_ne_nil 4 n)
  have hdigit : isDigit d = true := isDigit_of_mem_padded (hds ▸ List.mem_cons_self)
  rw [readYear?, dropBlanks_padded]
  rw [hds, List.cons_append] at hread ⊢
  split
  next h =>
    cases h
    cases hdigit
  next h =>
    cases h
    cases hdigit
  next =>
    rw [hread]
    rfl

theorem readYear?_yearChars (year : Int) (rest : List Char) :
    readYear? (Date.yearChars year ++ '-' :: rest) = some (year, '-' :: rest) := by
  have hminus : ∀ c ∈ ('-' :: rest).head?, isDigit c = false := by
    intro c hc
    cases hc
    rfl
  unfold Date.yearChars
  -- A year has four digits, or a sign and as many digits as it takes.
  by_cases hplain : (0 ≤ year && year ≤ 9999) = true
  · rw [if_pos hplain]
    simp only [Bool.and_eq_true, decide_eq_true_eq] at hplain
    rw [readYear?_plain (by omega), Int.toNat_of_nonneg hplain.1]
  · rw [if_neg hplain]
    simp only [Bool.and_eq_true, decide_eq_true_eq] at hplain
    by_cases hneg : year < 0
    · rw [if_pos hneg, readYear?_signed (.inl rfl) hminus, if_pos rfl]
      rw [show -(year.natAbs : Int) = year by omega]
    · rw [if_neg hneg, readYear?_signed (.inr rfl) hminus, if_neg (by decide)]
      rw [show (year.natAbs : Int) = year by omega]

theorem readFraction?_point {width n : Nat} (h0 : 0 < width) (hwidth : width ≤ 9)
    (hn : n < Nat.pow 10 width) : readFraction? ('.' :: padded width n ++ ['Z']) =
      some (n * Nat.pow 10 (9 - width), ['Z']) := by
  have hlength : (padded width n).length = width := length_padded h0 hn
  have hread : readDigits? 9 (padded width n ++ ['Z']) = some (n, ['Z']) :=
    readDigits?_padded (by omega) (.inr (by
      intro c hc
      cases hc
      rfl))
  have hdigits : (padded width n ++ ['Z']).takeWhile isDigit = padded width n := by
    rw [List.takeWhile_append_of_pos fun c hc => isDigit_of_mem_padded hc,
      List.takeWhile_cons_of_neg (by decide), List.append_nil]
  rw [List.cons_append, readFraction?, hread]
  simp only [Option.bind_eq_bind, Option.bind_some, hdigits, hlength, List.drop_left',
    Nat.min_eq_right hwidth]

theorem readFraction?_fractionChars {n : Nat} (hn : n < nanosPerSecond) :
    readFraction? (fractionChars n ++ ['Z']) = some (n, ['Z']) := by
  unfold nanosPerSecond at hn
  unfold fractionChars
  by_cases hzero : n = 0
  · rw [hzero]
    rfl
  rw [if_neg (by simpa using hzero)]
  by_cases hmillis : n % 1000000 = 0
  · rw [if_pos (by simpa using hmillis),
      readFraction?_point (by decide) (by decide) (show n / 1000000 < 1000 by omega)]
    rw [show Nat.pow 10 (9 - 3) = 1000000 from rfl, Nat.div_mul_cancel (Nat.dvd_of_mod_eq_zero hmillis)]
  rw [if_neg (by simpa using hmillis)]
  by_cases hmicros : n % 1000 = 0
  · rw [if_pos (by simpa using hmicros),
      readFraction?_point (by decide) (by decide) (show n / 1000 < 1000000 by omega)]
    rw [show Nat.pow 10 (9 - 6) = 1000 from rfl, Nat.div_mul_cancel (Nat.dvd_of_mod_eq_zero hmicros)]
  · rw [if_neg (by simpa using hmicros),
      readFraction?_point (by decide) (by decide) (show n < 1000000000 from hn)]
    rw [show Nat.pow 10 (9 - 9) = 1 from rfl, Nat.mul_one]

theorem hour_lt (t : Instant) : t.hour < 24 := by
  unfold hour secondOfDay
  omega

theorem minute_lt (t : Instant) : t.minute < 60 := by
  unfold minute
  omega

/-- The parts of a time of day make up the time of day. -/
theorem secondOfDay_eq (t : Instant) :
    t.hour * 3600 + t.minute * 60 + t.secondOfDay % 60 = t.secondOfDay := by
  unfold hour minute
  omega

/-- A leap second is written as second 60 and no other is. -/
theorem second_eq {t : Instant} (h : t.isRepresentable) :
    t.second ≤ 60 ∧ min t.second 59 = t.secondOfDay % 60 ∧ t.fraction < nanosPerSecond ∧
      t.fraction + (if t.second == 60 then nanosPerSecond else 0) = t.nanos := by
  simp only [isRepresentable, Bool.and_eq_true, Bool.or_eq_true, decide_eq_true_eq,
    beq_iff_eq] at h
  -- A leap second is kept in second 59, with more nanoseconds than one second has.
  by_cases hleap : t.isLeap = true
  · have hnanos : nanosPerSecond ≤ t.nanos := by simpa [isLeap] using hleap
    obtain ⟨hlt, h59⟩ : t.nanos < 2 * nanosPerSecond ∧ t.secondOfDay % 60 = 59 := by omega
    have hsecond : t.second = 60 := by rw [second, if_pos hleap, h59]
    rw [hsecond, h59, fraction, if_pos hleap]
    refine ⟨Nat.le_refl _, rfl, by omega, ?_⟩
    change t.nanos - nanosPerSecond + nanosPerSecond = t.nanos
    omega
  · have hnanos : t.nanos < nanosPerSecond := by simpa [isLeap] using hleap
    have hsecond : t.second = t.secondOfDay % 60 := by rw [second, if_neg hleap, Nat.add_zero]
    rw [hsecond, fraction, if_neg hleap]
    refine ⟨by omega, by omega, hnanos, ?_⟩
    rw [if_neg (by simp; omega), Nat.add_zero]

/-- The parts of a text, each read where the one before it ended, make up an instant in UTC. -/
theorem ofChars?_of_parts {t : Instant} {cs₀ cs₁ cs₂ cs₃ cs₄ cs₅ cs₆ cs₇ cs₈ cs₉ cs₁₀ cs₁₁ : List Char}
    {d : Date} {hour minute second nanos : Nat} (hyear : readYear? cs₀ = some (d.year, cs₁))
    (hdash : readMark? '-' cs₁ = some cs₂) (hmonth : readField? cs₂ = some (d.month, cs₃))
    (hdash' : readMark? '-' cs₃ = some cs₄) (hday : readField? cs₄ = some (d.day, 'T' :: cs₅))
    (hhour : readField? cs₅ = some (hour, cs₆)) (hcolon : readMark? ':' cs₆ = some cs₇)
    (hminute : readField? cs₇ = some (minute, cs₈)) (hcolon' : readMark? ':' cs₈ = some cs₉)
    (hsecond : readField? cs₉ = some (second, cs₁₀))
    (hfraction : readFraction? cs₁₀ = some (nanos, cs₁₁))
    (hoffset : readOffset? (dropBlanks cs₁₁) = some (0, []))
    (hdate : (d.isValid && isDayInRange d.toDays) = true)
    (hclock : hour ≤ 23 ∧ minute ≤ 59 ∧ second ≤ 60)
    (hwall : ofDate d (hour * 3600 + minute * 60 + min second 59)
      (nanos + (if second == 60 then nanosPerSecond else 0)) = t)
    (hrange : isDayInRange t.days = true) : ofChars? cs₀ = some t := by
  have hclock' : (decide (hour > 23) || decide (minute > 59) || decide (second > 60) ||
      decide (Int.natAbs 0 ≥ 86400)) = false := by
    simp only [Bool.or_eq_false_iff, decide_eq_false_iff_not]
    omega
  unfold ofChars?
  -- One bind after the other: `simp` would open the readers of the parts as well.
  refine Option.bind_eq_some_iff.mpr ⟨_, hyear, ?_⟩
  refine Option.bind_eq_some_iff.mpr ⟨_, hdash, ?_⟩
  refine Option.bind_eq_some_iff.mpr ⟨_, hmonth, ?_⟩
  refine Option.bind_eq_some_iff.mpr ⟨_, hdash', ?_⟩
  refine Option.bind_eq_some_iff.mpr ⟨_, hday, ?_⟩
  refine Option.bind_eq_some_iff.mpr ⟨cs₅, rfl, ?_⟩
  refine Option.bind_eq_some_iff.mpr ⟨_, hhour, ?_⟩
  refine Option.bind_eq_some_iff.mpr ⟨_, hcolon, ?_⟩
  refine Option.bind_eq_some_iff.mpr ⟨_, hminute, ?_⟩
  refine Option.bind_eq_some_iff.mpr ⟨_, hcolon', ?_⟩
  refine Option.bind_eq_some_iff.mpr ⟨_, hsecond, ?_⟩
  refine Option.bind_eq_some_iff.mpr ⟨_, hfraction, ?_⟩
  refine Option.bind_eq_some_iff.mpr ⟨_, hoffset, ?_⟩
  refine (if_neg (by decide)).trans ?_
  refine (if_neg (by simp [hdate])).trans ?_
  refine (if_neg (by rw [hclock']; decide)).trans ?_
  change (if isDayInRange (Instant.mk ((ofDate d _ _).seconds - 0) (ofDate d _ _).nanos).days = true
    then some (Instant.mk ((ofDate d _ _).seconds - 0) (ofDate d _ _).nanos) else none) = some t
  rw [hwall, Int.sub_zero]
  exact if_pos hrange

/-- An instant that can come from text is read back exactly. -/
theorem ofText?_exactText {t : Instant} (h : t.isRepresentable) :
    ofText? t.exactText = some t := by
  obtain ⟨hsecond, hmin, hfraction, hnanos⟩ := second_eq h
  have hrange : isDayInRange t.days = true := by
    simp only [isRepresentable, Bool.and_eq_true] at h
    exact h.1
  have hvalid : t.date.isValid = true := Date.isValid_ofDays t.days
  have hdays : t.date.toDays = t.days := Date.toDays_ofDays t.days
  obtain ⟨hmonth, hday⟩ := Date.two_digits hvalid
  have hhour := t.hour_lt
  have hminute := t.minute_lt
  have hchars : t.exactText.toList = Date.yearChars t.date.year ++ '-' :: (padded 2 t.date.month ++
      '-' :: (padded 2 t.date.day ++ 'T' :: (padded 2 t.hour ++ ':' :: (padded 2 t.minute ++
        ':' :: (padded 2 t.second ++ (fractionChars t.fraction ++ ['Z'])))))) := by
    simp [exactText, clockChars, Date.chars]
  -- A leap second is kept as the second before it with more than a second of nanoseconds.
  have hwall : ofDate t.date (t.hour * 3600 + t.minute * 60 + min t.second 59)
      (t.fraction + (if t.second == 60 then nanosPerSecond else 0)) = t := by
    have hseconds : t.days * 86400 + (t.secondOfDay : Int) = t.seconds := by
      unfold days secondOfDay
      omega
    rw [hmin, hnanos, t.secondOfDay_eq, ofDate, hdays, hseconds]
  rw [ofText?, hchars]
  exact ofChars?_of_parts (readYear?_yearChars _ _) (readMark?_cons (by decide) _)
    (readField?_padded hmonth _) (readMark?_cons (by decide) _) (readField?_padded hday _)
    (readField?_padded (by omega) _) (readMark?_cons (by decide) _) (readField?_padded (by omega) _)
    (readMark?_cons (by decide) _) (readField?_padded (by omega) _)
    (readFraction?_fractionChars hfraction) rfl (by rw [hvalid, hdays, hrange]; rfl) (by omega) hwall
    hrange

end Instant

end PoolKeeper
