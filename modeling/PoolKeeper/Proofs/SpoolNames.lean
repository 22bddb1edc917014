import PoolKeeper.Proofs.Stamp
import PoolKeeper.Proofs.Walks
import PoolKeeper.Request.Spool

/-!
# `PoolKeeper/Proofs/SpoolNames.lean` — the names of requests sort in the order of their times

The name of a request starts with a reading of the clock, with zeros in front up to twenty digits. Texts
of equally many digits sort as the numbers do (`Text.digits_lt`), so of two requests the one with the
earlier reading is taken first (`Spool.requestName_lt`), whichever processes handed them over and however
many names these had given. Twenty digits of nanoseconds last until the year 5138.
-/

set_option autoImplicit false

namespace PoolKeeper

open Text

/-! ## Digits -/

namespace Text

theorem decimalValue_cons (c : Char) (cs : List Char) :
    decimalValue (c :: cs) = digitValue c * Nat.pow 10 cs.length + decimalValue cs := by
  have hfold : ∀ (cs : List Char) (init : Nat),
      cs.foldl (fun n c => n * 10 + digitValue c) init =
        init * Nat.pow 10 cs.length + decimalValue cs := by
    intro cs
    induction cs with
    | nil => intro init; simp [decimalValue]
    | cons c cs ih =>
      intro init
      rw [decimalValue, List.foldl_cons, List.foldl_cons, ih, ih, List.length_cons, Nat.zero_mul,
        Nat.zero_add]
      simp only [Nat.pow_eq, Nat.pow_succ]
      rw [Nat.add_mul, Nat.mul_assoc, Nat.mul_comm 10, Nat.add_assoc]
  rw [decimalValue, List.foldl_cons, Nat.zero_mul, Nat.zero_add, hfold]

theorem digitValue_lt {c : Char} (h : isDigit c = true) : digitValue c < 10 := by
  simp only [isDigit, Bool.and_eq_true, decide_eq_true_eq] at h
  have hhigh : c.toNat ≤ 57 := h.2
  have hzero : '0'.toNat = 48 := rfl
  rw [digitValue, hzero]
  omega

theorem decimalValue_lt {cs : List Char} (h : ∀ c ∈ cs, isDigit c = true) :
    decimalValue cs < Nat.pow 10 cs.length := by
  induction cs with
  | nil => exact Nat.one_pos
  | cons c cs ih =>
    rw [List.forall_mem_cons] at h
    have hc := digitValue_lt h.1
    have hcs := ih h.2
    have hmore : (digitValue c + 1) * Nat.pow 10 cs.length ≤ 10 * Nat.pow 10 cs.length :=
      Nat.mul_le_mul_right _ hc
    rw [decimalValue_cons, List.length_cons]
    simp only [Nat.pow_eq, Nat.pow_succ, Nat.add_mul] at hcs hmore ⊢
    omega

theorem digitValue_lt_of_lt {c d : Char} (hc : isDigit c = true) (h : c < d) :
    digitValue c < digitValue d := by
  simp only [isDigit, Bool.and_eq_true, decide_eq_true_eq] at hc
  have hlow : 48 ≤ c.toNat := hc.1
  have hlt : c.toNat < d.toNat := h
  have hzero : '0'.toNat = 48 := rfl
  rw [digitValue, digitValue, hzero]
  omega

/-- Where there are equally many digits, a smaller number is an earlier text. -/
theorem digits_lt {cs ds : List Char} (hlength : cs.length = ds.length)
    (hcs : ∀ c ∈ cs, isDigit c = true) (hds : ∀ c ∈ ds, isDigit c = true)
    (h : decimalValue cs < decimalValue ds) (more more' : List Char) : cs ++ more < ds ++ more' := by
  induction cs generalizing ds with
  | nil =>
    cases ds with
    | nil => exact absurd h (Nat.lt_irrefl _)
    | cons d ds => cases hlength
  | cons c cs ih =>
    cases ds with
    | nil => cases hlength
    | cons d ds =>
      rw [List.forall_mem_cons] at hcs hds
      rw [List.length_cons, List.length_cons, Nat.succ_inj] at hlength
      rw [List.cons_append, List.cons_append, List.cons_lt_cons_iff]
      rcases Nat.lt_trichotomy c.toNat d.toNat with hlt | heq | hgt
      · exact .inl hlt
      · obtain rfl := Char.toNat_inj.mp heq
        rw [decimalValue_cons, decimalValue_cons, hlength] at h
        exact .inr ⟨rfl, ih hlength hcs.2 hds.2 (Nat.lt_of_add_lt_add_left h)⟩
      · -- The first digit decides, whatever follows.
        have hfirst : digitValue d + 1 ≤ digitValue c := digitValue_lt_of_lt hds.1 hgt
        have hrest := decimalValue_lt hds.2
        have hmore := Nat.mul_le_mul_right (Nat.pow 10 ds.length) hfirst
        rw [decimalValue_cons, decimalValue_cons, hlength] at h
        rw [Nat.add_mul, Nat.one_mul] at hmore
        omega

end Text

/-! ## Names -/

namespace Spool

variable {nanos nanos' number number' : Nat} {pid pid' : UInt32}

theorem toList_requestName : (requestName nanos pid number).toList =
    padded 20 nanos ++ '-' :: decimal pid.toNat ++ '-' :: padded 6 number ++
      ['.', 'y', 'a', 'm', 'l'] := by
  rw [requestName, String.toList_append, String.toList_ofList]
  rfl

/-- Of two requests the one with the earlier reading has the earlier name. -/
theorem requestName_lt (h : nanos < nanos') (hfits : nanos' < Nat.pow 10 20) :
    requestName nanos pid number < requestName nanos' pid' number' := by
  have hlength : (padded 20 nanos).length = (padded 20 nanos').length := by
    rw [length_padded (by decide) (Nat.lt_trans h hfits), length_padded (by decide) hfits]
  have hvalue : decimalValue (padded 20 nanos) < decimalValue (padded 20 nanos') := by
    rwa [decimalValue_padded, decimalValue_padded]
  change (requestName nanos pid number).toList < (requestName nanos' pid' number').toList
  rw [toList_requestName, toList_requestName]
  simp only [List.append_assoc]
  exact digits_lt hlength (fun c => isDigit_of_mem_padded) (fun c => isDigit_of_mem_padded) hvalue _ _

/-- The first reading with more than twenty digits sorts before the last one with twenty. -/
example : requestName (10 ^ 20) 2 1 < requestName (10 ^ 20 - 1) 2 0 := by decide +kernel

/-- What a name of a request has in it. -/
theorem mem_requestName {c : Char} (h : c ∈ (requestName nanos pid number).toList) :
    c.isDigit ∨ c = '-' ∨ c ∈ ['.', 'y', 'a', 'm', 'l'] := by
  simp only [toList_requestName, List.mem_append, List.mem_cons] at h
  rcases h with ((h | rfl | h) | rfl | h) | h
  · exact .inl (mem_padded h)
  · exact .inr (.inl rfl)
  · exact .inl (Nat.isDigit_of_mem_toDigits (by decide) (by decide) h)
  · exact .inr (.inl rfl)
  · exact .inl (mem_padded h)
  · exact .inr (.inr (by simpa using h))

theorem isRequestName_iff {name : String} : isRequestName name = true ↔
    ¬ ['.'] <+: name.toList ∧ ['.', 'y', 'a', 'm', 'l'] <:+ name.toList := by
  have hends : name.endsWith ".yaml" = true ↔ ['.', 'y', 'a', 'm', 'l'] <:+ name.toList := by
    have hslice : name.toSlice.endsWith ".yaml" = true ↔ _ := String.Slice.endsWith_string_iff
    rw [String.copy_toSlice] at hslice
    exact hslice
  have hstarts : name.startsWith "." = true ↔ ['.'] <+: name.toList := String.startsWith_string_iff
  rw [isRequestName, Bool.and_eq_true, hends, Bool.not_eq_true', ← Bool.not_eq_true, hstarts]

theorem isRequestName_requestName : isRequestName (requestName nanos pid number) = true := by
  rw [isRequestName_iff, toList_requestName]
  refine ⟨?_, List.suffix_append _ _⟩
  rintro ⟨rest, hrest⟩
  cases hdigits : padded 20 nanos with
  | nil => exact padded_ne_nil 20 nanos hdigits
  | cons d ds =>
    have hdigit : d.isDigit := mem_padded (hdigits ▸ List.mem_cons_self)
    rw [hdigits] at hrest
    obtain rfl : '.' = d := (List.cons.inj hrest).1
    exact absurd hdigit (by decide)

theorem noSlash_requestName : '/' ∉ (requestName nanos pid number).toList := by
  intro h
  rcases mem_requestName h with hdigit | hmark | hmark
  · exact absurd hdigit (by decide)
  · cases hmark
  · exact absurd hmark (by decide)

/-- The name of a request is a name for whoever walks along a path. -/
theorem isName_of_isRequestName {name : String} (h : isRequestName name = true) :
    name ≠ "" ∧ Disk.IsName name := by
  obtain ⟨hfirst, hlast⟩ := isRequestName_iff.mp h
  refine ⟨?_, ?_, ?_⟩
  · rintro rfl
    exact absurd hlast (by decide)
  · rintro rfl
    exact absurd hlast (by decide)
  · rintro rfl
    exact absurd hlast (by decide)

end Spool

end PoolKeeper
