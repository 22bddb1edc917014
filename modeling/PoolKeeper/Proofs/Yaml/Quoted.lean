import PoolKeeper.Proofs.Yaml.Plain

/-!
# `PoolKeeper/Proofs/Yaml/Quoted.lean` — quoted scalars are read back

Between single quotes a line break stands for itself and is followed by indentation, so the reader
comes to the same text only if it knows as much as the writer about where a line starts. Between
double quotes every break is written as an escape, and any text at all comes back.
-/

set_option autoImplicit false

namespace PoolKeeper.Yaml

/-! ## Single quotes -/

/-- A character that cannot be half of a break or of an escaped quote. -/
theorem scanSingle_cons {c : Char} {rest text : List Char} {p : Place} {b : Between}
    (hreturn : c ≠ '\r') (hquote : c = '\'' → rest.head? ≠ some '\'') :
    scanSingle (c :: rest) p b text =
      if isBreak c then scanSingle rest (p.newline 1) (b.addBreak c) text
      else if isGap c then scanSingle rest (p.skip 1) (b.addBlank c) text
      else if p.column == 0 && atMarker (c :: rest) then none
      else if c == '\'' then some (b.onto text, ⟨rest, p.skip 1⟩)
      else scanSingle rest (p.skip 1) .nothing (c :: b.onto text) := by
  rw [scanSingle]
  · intro rest' hc
    exact absurd hc hreturn
  · intro rest' hc hrest
    exact hquote hc (by rw [hrest, List.head?_cons])

theorem scanSingle_char {c : Char} {rest text : List Char} {p : Place} {b : Between}
    (hbreak : isBreak c = false) (hgap : isGap c = false) (hquote : c ≠ '\'')
    (hcolumn : 0 < p.column) :
    scanSingle (c :: rest) p b text = scanSingle rest (p.skip 1) .nothing (c :: b.onto text) := by
  have hzero : (p.column == 0) = false := by simp; omega
  rw [scanSingle_cons (ne_of_class hbreak rfl) fun hc => absurd hc hquote]
  simp [hbreak, hgap, hquote, hzero]

theorem scanSingle_space {rest text : List Char} {p : Place} {b : Between} :
    scanSingle (' ' :: rest) p b text = scanSingle rest (p.skip 1) (b.addBlank ' ') text := by
  rw [scanSingle_cons (by decide) (by simp)]
  simp [isBreak, isGap]

theorem scanSingle_blanks {rest text others : List Char} {first : Option Char} :
    ∀ (n : Nat) (p : Place), scanSingle (blanks n ++ rest) p (.breaks first others) text =
      scanSingle rest (p.skip n) (.breaks first others) text
  | 0, p => rfl
  | n + 1, p => by
    rw [blanks, List.replicate_succ, List.cons_append, scanSingle_space]
    exact (scanSingle_blanks n (p.skip 1)).trans (by rw [Place.skip_skip, Nat.add_comm])

theorem scanSingle_break {c : Char} {rest text : List Char} {p : Place} {b : Between}
    (hbreak : isBreak c) (hprint : isPrintable c) :
    scanSingle (c :: rest) p b text = scanSingle rest (p.newline 1) (b.addBreak c) text := by
  have hquote : c ≠ '\'' := ne_of_class hbreak rfl
  rw [scanSingle_cons (ne_of_class hprint rfl) fun hc => absurd hc hquote]
  simp [hbreak]

theorem scanSingle_quote {rest text : List Char} {p : Place} {b : Between} :
    scanSingle ('\'' :: '\'' :: rest) p b text =
      scanSingle rest (p.skip 2) .nothing ('\'' :: b.onto text) := by
  rw [scanSingle]

theorem scanSingle_end {rest text : List Char} {p : Place} {b : Between} :
    scanSingle ('\'' :: '\n' :: rest) p b text =
      some (b.onto text, ⟨'\n' :: rest, p.skip 1⟩) := by
  rw [scanSingle_cons (by decide) (by simp)]
  simp [isBreak, isGap, atMarker_of_ne]

/-- A character of a text in single quotes. -/
def singleChar (c : Char) : List Char := if c == '\'' then ['\'', '\''] else [c]

theorem singleQuoted_eq (indent : Nat) (cs : List Char) : singleQuoted indent cs =
    '\'' :: indented indent singleChar false cs ++
      (if cs.getLast?.any isBreak then blanks indent else []) ++ ['\''] := rfl

/-- One character that is neither a blank nor a break, as it is written in single quotes. -/
theorem scanSingle_singleChar {c : Char} {rest : List Char} {p : Place} {b : Between}
    (text : List Char) (hbreak : isBreak c = false) (hgap : isGap c = false) (hcolumn : 0 < p.column) :
    ∃ n, scanSingle (singleChar c ++ rest) p b text =
      scanSingle rest (p.skip (n + 1)) .nothing (c :: b.onto text) := by
  unfold singleChar
  split
  next h =>
    obtain rfl := beq_iff_eq.mp h
    exact ⟨1, scanSingle_quote⟩
  next h =>
    exact ⟨0, scanSingle_char hbreak hgap (by simpa using h) hcolumn⟩

theorem hasPair_cons {first second : Char → Bool} {c : Char} {cs : List Char}
    (h : hasPair first second (c :: cs) = false) :
    (∀ d ∈ cs.head?, first c = true → second d = false) ∧ hasPair first second cs = false := by
  cases cs with
  | nil => exact ⟨fun _ hd => by simp at hd, rfl⟩
  | cons d cs =>
    simp only [hasPair, Bool.or_eq_false_iff, Bool.and_eq_false_iff] at h
    refine ⟨fun e he hc => ?_, h.2⟩
    obtain rfl : d = e := by simpa using he
    exact h.1.resolve_left (by simp [hc])

namespace Between

/-- What comes between agrees with where the text stands: at the start of a line after breaks of
which the first is kept, or inside one. -/
def Fits (fresh : Bool) : Between → Prop
  | nothing | blanks _ => fresh = false
  | breaks first _ => fresh = true ∧ ∃ c, first = some c ∧ c ≠ '\n'

theorem Fits.addBreak {fresh : Bool} {b : Between} {c : Char} (h : b.Fits fresh)
    (hblank : fresh = false → b = .nothing) (hc : readBreak c ≠ '\n') (text : List Char) :
    (b.addBreak c).Fits true ∧ (b.addBreak c).onto text = readBreak c :: b.onto text := by
  have honto (first : Char) (others : List Char) (hfirst : first ≠ '\n') :
      (breaks (some first) others).onto text = others ++ first :: text := by
    unfold onto
    split <;> simp_all
  cases b with
  | nothing => exact ⟨⟨rfl, _, rfl, hc⟩, honto _ _ hc⟩
  | blanks cs => cases hblank h
  | breaks first others =>
    obtain ⟨_, first, rfl, hfirst⟩ := h
    refine ⟨⟨rfl, _, rfl, hfirst⟩, ?_⟩
    rw [honto _ _ hfirst]
    exact honto _ _ hfirst

end Between

/-- A text in single quotes is read back as it is. `fresh` is the writer's account of where it
stands, and `b` the reader's. -/
theorem scanSingle_indented {indent : Nat} (rest : List Char) (hindent : 0 < indent)
    (cs : List Char) (fresh : Bool) (p : Place) (b : Between) (text : List Char)
    (hchars : ∀ c ∈ cs, isPrintable c ∧ c ≠ '\n') (hbefore : hasPair isBreak isSpace cs = false)
    (hafter : hasPair isSpace isBreak cs = false) (hb : b.Fits fresh)
    (hcolumn : fresh = false → 0 < p.column)
    (hhead : ∀ c ∈ cs.head?, (fresh = true → isSpace c = false) ∧
      (isBreak c = true → fresh = false → b = .nothing)) :
    ∃ p', scanSingle (indented indent singleChar fresh cs ++
        ((if cs.getLast?.elim fresh isBreak then blanks indent else []) ++ '\'' :: '\n' :: rest))
      p b text = some (cs.reverse ++ b.onto text, ⟨'\n' :: rest, p'⟩) := by
  -- The reader keeps back what stands between words until the next one comes.
  induction cs generalizing fresh p b text with
  | nil =>
    cases b with
    | breaks first others =>
      obtain ⟨rfl, -⟩ := hb
      exact ⟨_, (scanSingle_blanks indent p).trans scanSingle_end⟩
    | nothing | blanks =>
      obtain rfl : fresh = false := hb
      exact ⟨_, scanSingle_end⟩
  | cons c cs ih =>
    obtain ⟨hprint, hnewline⟩ := hchars c List.mem_cons_self
    have hchars' : ∀ d ∈ cs, isPrintable d ∧ d ≠ '\n' :=
      fun d hd => hchars d (List.mem_cons_of_mem _ hd)
    obtain ⟨hbefore, hbefore'⟩ := hasPair_cons hbefore
    obtain ⟨hafter, hafter'⟩ := hasPair_cons hafter
    obtain ⟨hspace, hblank⟩ := hhead c rfl
    rw [getLast?_cons_elim, List.reverse_cons, List.append_assoc, indented]
    by_cases hbreak : isBreak c
    · -- A break is written as it is, and what comes next is indented.
      have hread := readBreak_eq hbreak hprint
      obtain ⟨hb', honto⟩ := hb.addBreak (hblank hbreak) (by rwa [hread]) text
      rw [if_pos hbreak, List.cons_append, scanSingle_break hbreak hprint, hbreak]
      obtain ⟨p', hp'⟩ := ih true (p.newline 1) (b.addBreak c) text hchars' hbefore' hafter' hb'
        (by simp) fun d hd => ⟨fun _ => hbefore d hd hbreak, by simp⟩
      exact ⟨p', hp'.trans (by rw [honto, hread]; rfl)⟩
    · rw [Bool.not_eq_true] at hbreak
      rw [if_neg (by simp [hbreak]), hbreak, List.append_assoc, List.append_assoc]
      by_cases hgap : isGap c
      · obtain rfl := eq_space_of_isGap hprint hgap
        obtain rfl : fresh = false := Bool.eq_false_iff.mpr fun h => absurd (hspace h) (by decide)
        -- A space never follows a break, so no break is kept back.
        have hb' : b.hasBreak = false := by
          cases b with
          | breaks first others => exact absurd hb.1 (by decide)
          | nothing | blanks => rfl
        obtain ⟨p', hp'⟩ := ih false (p.skip 1) (b.addBlank ' ') text hchars' hbefore' hafter'
          (by cases b <;> first | rfl | cases hb') (fun _ => by simp [Place.skip])
          fun d hd => ⟨by simp, fun hd' => absurd (hafter d hd rfl) (by simp [hd'])⟩
        exact ⟨p', scanSingle_space.trans (hp'.trans (by rw [b.addBlank_onto hb']; rfl))⟩
      · rw [Bool.not_eq_true] at hgap
        have hrest {q : Place} (hq : 0 < q.column) : ∃ p', scanSingle (singleChar c ++
            (indented indent singleChar false cs ++
              ((if cs.getLast?.elim false isBreak then blanks indent else []) ++
                '\'' :: '\n' :: rest))) q b text =
            some (cs.reverse ++ c :: b.onto text, ⟨'\n' :: rest, p'⟩) := by
          obtain ⟨n, hn⟩ := scanSingle_singleChar (b := b) text hbreak hgap hq
          obtain ⟨p', hp'⟩ := ih false (q.skip (n + 1)) .nothing (c :: b.onto text) hchars' hbefore'
            hafter' rfl (fun _ => by simp only [Place.skip]; omega) fun d _ => ⟨by simp, fun _ _ => rfl⟩
          exact ⟨p', hn.trans hp'⟩
        cases fresh with
        | false => exact hrest (hcolumn rfl)
        | true =>
          cases b with
          | nothing | blanks => cases hb
          | breaks first others =>
            obtain ⟨p', hp'⟩ := hrest (q := p.skip indent) (by simp only [Place.skip]; omega)
            exact ⟨p', (scanSingle_blanks indent p).trans hp'⟩

/-- A text that can be written in single quotes is read back as it is. -/
theorem scanSingle_singleQuoted {indent : Nat} {cs : List Char} (rest : List Char) {p : Place}
    (hindent : 0 < indent) (hcolumn : 0 < p.column) (hsingle : (Traits.of cs).single)
    (hline : '\n' ∉ cs) :
    ∃ p', scanSingle ((singleQuoted indent cs ++ '\n' :: rest).drop 1) p .nothing [] =
      some (cs.reverse, ⟨'\n' :: rest, p'⟩) := by
  simp only [Traits.single, Traits.of, Bool.not_eq_true', Bool.or_eq_false_iff] at hsingle
  obtain ⟨⟨hbefore, hafter⟩, hspecial⟩ := hsingle
  obtain ⟨p', hp'⟩ := scanSingle_indented rest hindent cs false p .nothing []
    (fun c hc => ⟨by simpa using List.any_eq_false.mp hspecial c hc, fun h => hline (h ▸ hc)⟩)
    hbefore hafter rfl (fun _ => hcolumn) fun c _ => ⟨by simp, fun _ _ => rfl⟩
  have hlast : cs.getLast?.elim false isBreak = cs.getLast?.any isBreak := by
    cases cs.getLast? <;> rfl
  rw [hlast] at hp'
  refine ⟨p', Eq.trans ?_ (hp'.trans (by simp [Between.onto]))⟩
  simp [singleQuoted_eq]

/-! ## Double quotes -/

/-- A character that cannot be half of a break or of an escape. -/
theorem scanDouble_cons {c : Char} {rest text : List Char} {p : Place} {b : Between}
    (hreturn : c ≠ '\r') (hslash : c ≠ '\\') : scanDouble (c :: rest) p none b text =
      if isBreak c then scanDouble rest (p.newline 1) none (b.addBreak c) text
      else if isGap c then scanDouble rest (p.skip 1) none (b.addBlank c) text
      else if p.column == 0 && atMarker (c :: rest) then none
      else if c == '"' then some (b.onto text, ⟨rest, p.skip 1⟩)
      else scanDouble rest (p.skip 1) none .nothing (c :: b.onto text) := by
  rw [scanDouble]
  · simp [hslash]
  · intro rest' hc
    exact absurd hc hreturn
  · intro rest' hc
    exact absurd hc hslash
  · intro e rest' hc
    exact absurd hc hslash

theorem scanDouble_char {c : Char} {rest text : List Char} {p : Place} {b : Between}
    (hbreak : isBreak c = false) (hgap : isGap c = false) (hquote : c ≠ '"') (hslash : c ≠ '\\')
    (hcolumn : 0 < p.column) : scanDouble (c :: rest) p none b text =
      scanDouble rest (p.skip 1) none .nothing (c :: b.onto text) := by
  have hzero : (p.column == 0) = false := by simp; omega
  rw [scanDouble_cons (ne_of_class hbreak rfl) hslash]
  simp [hbreak, hgap, hquote, hzero]

theorem scanDouble_space {rest text : List Char} {p : Place} {b : Between} :
    scanDouble (' ' :: rest) p none b text =
      scanDouble rest (p.skip 1) none (b.addBlank ' ') text := by
  rw [scanDouble_cons (by decide) (by decide)]
  simp [isBreak, isGap]

theorem scanDouble_end {rest text : List Char} {p : Place} {b : Between} :
    scanDouble ('"' :: rest) p none b text = some (b.onto text, ⟨rest, p.skip 1⟩) := by
  rw [scanDouble_cons (by decide) (by decide)]
  simp [isBreak, isGap, atMarker_of_ne]

theorem scanDouble_escape {e c : Char} {rest text : List Char} {p : Place} {b : Between}
    (hbreak : isBreak e = false) (he : escapedChar? e = some c) :
    scanDouble ('\\' :: e :: rest) p none b text =
      scanDouble rest (p.skip 2) none .nothing (c :: b.onto text) := by
  rw [scanDouble]
  · simp [hbreak, he]
  · intro rest' hreturn
    exact absurd hreturn (ne_of_class hbreak rfl)

theorem scanDouble_number {e : Char} {digits : Nat} {rest text : List Char} {p : Place}
    {b : Between} (hbreak : isBreak e = false) (hchar : escapedChar? e = none)
    (hdigits : escapedDigits? e = some digits) : scanDouble ('\\' :: e :: rest) p none b text =
      scanDouble rest (p.skip 2) (some (digits, 0)) .nothing (b.onto text) := by
  rw [scanDouble]
  · simp [hbreak, hchar, hdigits]
  · intro rest' hreturn
    exact absurd hreturn (ne_of_class hbreak rfl)

theorem hexDigits_succ (width n : Nat) : hexDigits (width + 1) n =
    (Nat.digitChar (n / Nat.pow 16 width % 16)).toUpper :: hexDigits width n := by
  simp only [hexDigits, List.range_succ_eq_map, List.map_cons, List.map_map]
  congr 1
  refine List.map_congr_left fun k _ => ?_
  simp only [Function.comp_apply]
  rw [show width + 1 - 1 - (k + 1) = width - 1 - k by omega]

theorem hexValue?_digit : ∀ d < 16, hexValue? (Nat.digitChar d).toUpper = some d := by decide

theorem charOfNumber?_toNat (c : Char) : charOfNumber? c.toNat = some c := by
  have hvalid : c.toNat.isValidChar := c.valid
  rw [charOfNumber?, dif_pos hvalid]
  congr 1

/-- The digits of a number are read as the number, after what was read before them. -/
theorem scanDouble_hexDigits {rest text : List Char} {b : Between} (width n value : Nat) (p : Place) :
    scanDouble (hexDigits (width + 1) n ++ rest) p (some (width + 1, value)) b text =
      (charOfNumber? (value * Nat.pow 16 (width + 1) + n % Nat.pow 16 (width + 1))).bind fun c =>
        scanDouble rest (p.skip (width + 1)) none b (c :: text) := by
  induction width generalizing value p with
  | zero =>
    rw [hexDigits_succ, List.cons_append, scanDouble, hexValue?_digit _ (Nat.mod_lt _ (by decide))]
    simp [hexDigits]
  | succ width ih =>
    have hvalue : (value * 16 + n / Nat.pow 16 (width + 1) % 16) * Nat.pow 16 (width + 1) +
        n % Nat.pow 16 (width + 1) =
          value * Nat.pow 16 (width + 2) + n % Nat.pow 16 (width + 2) := by
      have hmod : n % Nat.pow 16 (width + 2) = n % Nat.pow 16 (width + 1) +
          Nat.pow 16 (width + 1) * (n / Nat.pow 16 (width + 1) % 16) := Nat.mod_pow_succ
      have hpow : Nat.pow 16 (width + 2) = Nat.pow 16 (width + 1) * 16 := rfl
      rw [hmod, hpow]
      grind
    rw [hexDigits_succ, List.cons_append, scanDouble, hexValue?_digit _ (Nat.mod_lt _ (by decide)),
      ← hvalue]
    simp only [Option.bind_eq_bind, Option.bind_some]
    rw [if_neg (by omega), show width + 1 + 1 - 1 = width + 1 from rfl, ih, Place.skip_skip,
      Nat.add_comm 1]

/-- A character after a backslash is read as itself. -/
theorem scanDouble_escapeChar (c : Char) (rest text : List Char) (p : Place) (b : Between) :
    ∃ n, scanDouble ('\\' :: escapeChar c ++ rest) p none b text =
      scanDouble rest (p.skip n) none .nothing (c :: b.onto text) := by
  have hnumber {e : Char} {width : Nat} (hbreak : isBreak e = false) (hchar : escapedChar? e = none)
      (hdigits : escapedDigits? e = some (width + 1)) (hc : c.toNat < Nat.pow 16 (width + 1)) :
      ∃ n, scanDouble ('\\' :: (e :: hexDigits (width + 1) c.toNat) ++ rest) p none b text =
        scanDouble rest (p.skip n) none .nothing (c :: b.onto text) := by
    refine ⟨2 + (width + 1), ?_⟩
    rw [List.cons_append, List.cons_append, scanDouble_number hbreak hchar hdigits,
      scanDouble_hexDigits, Nat.zero_mul, Nat.zero_add, Nat.mod_eq_of_lt hc, charOfNumber?_toNat,
      Option.bind_some, Place.skip_skip]
  unfold escapeChar
  split
  case h_16 =>
    split
    next h => exact hnumber rfl rfl rfl (Nat.lt_succ_of_le h)
    next =>
      split
      next h => exact hnumber rfl rfl rfl (Nat.lt_succ_of_le h)
      next =>
        have hvalid : c.toNat.isValidChar := c.valid
        have hlt : c.toNat < 0x100000000 := by rcases hvalid with h | h <;> omega
        exact hnumber rfl rfl rfl hlt
  all_goals exact ⟨2, scanDouble_escape rfl rfl⟩

/-- A character of a text in double quotes. -/
def doubleChar (c : Char) : List Char :=
  if !isPrintable c || isBreak c || c == '"' || c == '\\' then '\\' :: escapeChar c else [c]

theorem doubleQuoted_eq (cs : List Char) :
    doubleQuoted cs = '"' :: cs.flatMap doubleChar ++ ['"'] := rfl

theorem scanDouble_doubleChars (rest cs : List Char) (p : Place) (b : Between)
    (text : List Char) (hcolumn : 0 < p.column) (hb : b.hasBreak = false) :
    ∃ p', scanDouble (cs.flatMap doubleChar ++ '"' :: rest) p none b text =
      some (cs.reverse ++ b.onto text, ⟨rest, p'⟩) := by
  induction cs generalizing p b text with
  | nil => exact ⟨_, scanDouble_end⟩
  | cons c cs ih =>
    have hskip (n : Nat) : 0 < (p.skip n).column := Nat.lt_of_lt_of_le hcolumn (Nat.le_add_right ..)
    rw [List.flatMap_cons, List.append_assoc, List.reverse_cons, List.append_assoc]
    by_cases hescaped : (!isPrintable c || isBreak c || c == '"' || c == '\\') = true
    · obtain ⟨n, hn⟩ := scanDouble_escapeChar c (cs.flatMap doubleChar ++ '"' :: rest) text p b
      obtain ⟨p', hp'⟩ := ih (p.skip n) .nothing (c :: b.onto text) (hskip n) rfl
      refine ⟨p', Eq.trans ?_ (hn.trans hp')⟩
      rw [doubleChar, if_pos hescaped]
    · rw [doubleChar, if_neg hescaped, List.singleton_append]
      simp only [Bool.not_eq_true, Bool.or_eq_false_iff, Bool.not_eq_false', beq_eq_false_iff_ne]
        at hescaped
      obtain ⟨⟨⟨hprint, hbreak⟩, hquote⟩, hslash⟩ := hescaped
      by_cases hgap : isGap c
      · obtain rfl := eq_space_of_isGap hprint hgap
        obtain ⟨p', hp'⟩ := ih (p.skip 1) (b.addBlank ' ') text (hskip 1)
          (b.addBlank_hasBreak ' ' ▸ hb)
        exact ⟨p', scanDouble_space.trans (hp'.trans (by rw [b.addBlank_onto hb]; rfl))⟩
      · obtain ⟨p', hp'⟩ := ih (p.skip 1) .nothing (c :: b.onto text) (hskip 1) rfl
        rw [Bool.not_eq_true] at hgap
        exact ⟨p', (scanDouble_char hbreak hgap hquote hslash hcolumn).trans hp'⟩

/-- A text in double quotes is read back as it is, whatever it holds. -/
theorem scanDouble_doubleQuoted (cs rest : List Char) {p : Place} (hcolumn : 0 < p.column) :
    ∃ p', scanDouble ((doubleQuoted cs ++ rest).drop 1) p none .nothing [] =
      some (cs.reverse, ⟨rest, p'⟩) := by
  obtain ⟨p', hp'⟩ := scanDouble_doubleChars rest cs p .nothing [] hcolumn rfl
  refine ⟨p', Eq.trans ?_ (hp'.trans (by simp [Between.onto]))⟩
  simp [doubleQuoted_eq]

end PoolKeeper.Yaml
