import PoolKeeper.Proofs.Yaml.Grammar
import PoolKeeper.Yaml.Read

/-!
# `PoolKeeper/Proofs/Yaml/Values.lean` — data is read back as it was written

A document that was written answers each question as its data would: the text of a text, the value of a
flag or of a number that is not too large, and the fields by their names. `read?_yaml` turns what is asked
of the file into what is asked of the data.
-/

set_option autoImplicit false

namespace PoolKeeper.Yaml

open Text

/-! ## Numbers -/

theorem toDigits_head {n : Nat} (hn : n ≠ 0) : (Nat.toDigits 10 n).head? ≠ some '0' := by
  induction n using Nat.strongRecOn with
  | ind n ih =>
    rw [Nat.toDigits_eq_if (by decide)]
    split
    next hlt =>
      have hdigit : ∀ d < 10, d ≠ 0 → [Nat.digitChar d].head? ≠ some '0' := by decide
      exact hdigit n hlt hn
    next hle =>
      have hhead := ih (n / 10) (by omega) (by omega)
      rw [List.head?_append]
      cases h : (Nat.toDigits 10 (n / 10)).head? with
      | none => exact absurd (List.head?_eq_none_iff.mp h) Nat.toDigits_ne_nil
      | some c => rw [h] at hhead; simpa using hhead

theorem digitOf?_of_isDigit {c : Char} (h : c.isDigit) : digitOf? 10 c = some (c.toNat - '0'.toNat) := by
  simp only [Char.isDigit, Bool.and_eq_true, decide_eq_true_eq] at h
  have hdigit : Text.isDigit c = true := by
    have hrange : '0' ≤ c ∧ c ≤ '9' := h
    simp [Text.isDigit, hrange]
  have hvalue : c.toNat - '0'.toNat < 10 := by
    have hle : c.toNat ≤ 57 := h.2
    simp only [Char.reduceToNat]
    omega
  simp only [digitOf?, hdigit, if_true, Text.digitValue, if_pos hvalue]

theorem isDigit_decimal {n : Nat} {c : Char} (h : c ∈ decimal n) : c.isDigit :=
  Nat.isDigit_of_mem_toDigits (by decide) (by decide) h

theorem numberOf?_decimal (n : Nat) : numberOf? 10 (decimal n) = some n := by
  have hfold (cs : List Char) (init : Nat) (h : ∀ c ∈ cs, c.isDigit) :
      cs.foldl (fun n c => do return (← n) * 10 + (← digitOf? 10 c)) (some init) =
        some (Nat.ofDigitChars 10 cs init) := by
    induction cs generalizing init with
    | nil => simp
    | cons c cs ih =>
      rw [List.foldl_cons, Nat.ofDigitChars_cons, ← ih _ fun d hd => h d (List.mem_cons_of_mem _ hd)]
      simp [digitOf?_of_isDigit (h c List.mem_cons_self), Nat.mul_comm]
  have hne : decimal n ≠ [] := Nat.toDigits_ne_nil
  rw [numberOf?, if_neg (by simpa using hne), hfold (decimal n) 0 fun c hc => isDigit_decimal hc]
  exact congrArg some Nat.ofDigitChars_ten_toDigits

theorem magnitude?_decimal (n : Nat) : magnitude? (decimal n) = some n := by
  by_cases hn : n = 0
  · subst hn
    rfl
  -- A zero in front would make the number padded, or one of another base.
  have hhead : ∀ cs, decimal n ≠ '0' :: cs := fun cs h => toDigits_head hn (by
    rw [show Nat.toDigits 10 n = '0' :: cs from h]
    rfl)
  have hsign : ∀ c cs, decimal n = c :: cs → c ≠ '-' ∧ c ≠ '+' := fun c cs h =>
    have hdigit : c.isDigit := isDigit_decimal (h ▸ List.mem_cons_self)
    ⟨by rintro rfl; exact absurd hdigit (by decide), by rintro rfl; exact absurd hdigit (by decide)⟩
  have hpadded : isPadded (decimal n) = false := by
    unfold isPadded
    generalize decimal n = cs at hhead hsign
    rcases cs with _ | ⟨c, cs⟩
    · rfl
    · obtain ⟨hminus, hplus⟩ := hsign c cs rfl
      dsimp only
      split
      next heq =>
        split at heq
        next h => exact absurd (List.cons.inj h).1 hminus
        next h => exact absurd (List.cons.inj h).1 hplus
        next => exact absurd heq (hhead _)
      next => rfl
  unfold magnitude?
  split
  next h => exact absurd h (hhead _)
  next h => exact absurd h (hhead _)
  next h => exact absurd h (hhead _)
  next => rw [hpadded, if_neg (by decide), numberOf?_decimal]

theorem naturalOfText?_decimal (n : Nat) : naturalOfText? (String.ofList (decimal n)) = some n := by
  rw [naturalOfText?, String.toList_ofList]
  split
  next h =>
    have hdigit : '+'.isDigit := isDigit_decimal (h ▸ List.mem_cons_self)
    exact absurd hdigit (by decide)
  next => exact magnitude?_decimal n

/-- A number in decimal is not what has another character or none. -/
theorem decimal_ne {s : String} (n : Nat) (hs : (∃ c ∈ s.toList, c.isDigit = false) ∨ s = "") :
    String.ofList (decimal n) ≠ s := by
  rintro rfl
  rw [String.toList_ofList] at hs
  rcases hs with ⟨c, hc, hdigit⟩ | hempty
  · rw [isDigit_decimal hc] at hdigit
    cases hdigit
  · have hnil : decimal n = [] := by simpa using congrArg String.toList hempty
    exact Nat.toDigits_ne_nil hnil

theorem decimal_not_null (n : Nat) :
    (String.ofList (decimal n) = "" || isNullText (String.ofList (decimal n))) = false := by
  simp only [isNullText, Bool.or_eq_false_iff, decide_eq_false_iff_not]
  refine ⟨decimal_ne n (.inr rfl), ⟨⟨?_, ?_⟩, ?_⟩, ?_⟩
  · exact decimal_ne n (.inl ⟨'n', by decide, rfl⟩)
  · exact decimal_ne n (.inl ⟨'N', by decide, rfl⟩)
  · exact decimal_ne n (.inl ⟨'N', by decide, rfl⟩)
  · exact decimal_ne n (.inl ⟨'~', by decide, rfl⟩)

/-! ## Texts -/

/-- Only what stands for a text is written plain. -/
theorem styleOf_plain {s : String} (h : styleOf s = .plain) : PlainKind.ofText s = .text := by
  unfold styleOf at h
  dsimp only at h
  split at h
  · split at h <;> cases h
  · split at h
    next hplain =>
      simp only [Bool.and_eq_true, decide_eq_true_eq] at hplain
      exact hplain.1.1
    next => split at h <;> cases h

/-! ## Pieces of a document that was written -/

namespace Piece

/-- The piece of a document that holds the data. -/
def ofForm (d : Document) (f : Form) : Piece := ⟨d, some (formNode f)⟩

variable {d : Document}

theorem text?_ofForm (s : String) : (ofForm d (.text s)).text? = some s := by
  simp [ofForm, text?, resolved?, formNode, Document.resolve?]

theorem flag?_ofForm (b : Bool) : Source.flag? (ofForm d (.flag b)) = some b := by
  cases b <;> rfl

theorem natural?_ofForm {n : Nat} (hn : Word.holds 64 n) :
    (ofForm d (.number n)).natural? = some n := by
  have hchars : numberChars (n : Int) = decimal n := by simp [numberChars]
  have hmeaning : (ofForm d (.number n)).meaning? "int" = some (String.ofList (decimal n)) := by
    rw [← hchars]
    rfl
  rw [natural?, hmeaning, Option.bind_eq_bind, Option.bind_some, naturalOfText?_decimal,
    Option.bind_eq_bind, Option.bind_some]
  exact if_pos hn

theorem fields?_ofForm (entries : List (String × Form)) :
    (ofForm d (.fields entries)).fields? = some (entries.map fun e => (e.1, ofForm d e.2)) := by
  have hentries : ∀ es : List (String × Form), (entryNodes es).mapM (fun entry => do
      some (← ((ofForm d (.fields entries)).sibling entry.1).text?,
        (ofForm d (.fields entries)).sibling entry.2)) =
      some (es.map fun e => (e.1, ofForm d e.2)) := by
    intro es
    induction es with
    | nil => rfl
    | cons e es ih =>
      rw [entryNodes, List.mapM_cons, ih]
      rfl
  exact hentries entries

end Piece

/-- Reading a document that was written is asking the data. -/
theorem read?_yaml {β : Type} {e : String × Form} {es : List (String × Form)}
    (hnamed : (Form.fields (e :: es)).WellNamed) (read : Piece → Option β) :
    ∃ d, read? read (Form.fields (e :: es)).yaml = read (Piece.ofForm d (.fields (e :: es))) := by
  obtain ⟨size, hdocument⟩ := ofText?_yaml hnamed
  refine ⟨{ root := some (formNode (.fields (e :: es))), size }, ?_⟩
  rw [read?, hdocument]
  rfl

end PoolKeeper.Yaml
