import PoolKeeper.Yaml.Render

/-!
# `PoolKeeper/Proofs/Yaml/Plain.lean` — plain scalars are read back

A text that the writer leaves without quotes is one that the reader takes as it stands: it neither
starts nor goes on in a way that means something else, and the line after it ends it. That line opens
with a word (`OpensLine`), which is all that the reader has to know of what follows any scalar.
-/

set_option autoImplicit false

namespace PoolKeeper.Yaml

/-! ## Characters -/

/-- Two characters differ where one class has only one of them. -/
theorem ne_of_class {p : Char → Bool} {b : Bool} {c d : Char} (hc : p c = b) (hd : p d = !b) :
    c ≠ d := by
  intro h
  rw [h, hd] at hc
  exact (Bool.not_eq_self b).mp hc

theorem not_isGap_of_isWord {c : Char} (h : isWord c) : isGap c = false := by
  rw [Bool.eq_false_iff]
  intro hc
  simp only [isGap, Bool.or_eq_true, beq_iff_eq] at hc
  rcases hc with rfl | rfl <;> exact absurd h (by decide)

theorem not_isBreak_of_isWord {c : Char} (h : isWord c) : isBreak c = false := by
  rw [Bool.eq_false_iff]
  intro hc
  simp only [isBreak, Bool.or_eq_true, beq_iff_eq] at hc
  rcases hc with (((rfl | rfl) | rfl) | rfl) | rfl <;> exact absurd h (by decide)

theorem eq_space_of_isGap {c : Char} (hp : isPrintable c) (h : isGap c) : c = ' ' := by
  simp only [isGap, Bool.or_eq_true, beq_iff_eq] at h
  rcases h with rfl | rfl
  · rfl
  · exact absurd hp (by decide)

/-- A break other than a line feed is read as it is. -/
theorem readBreak_eq {c : Char} (hbreak : isBreak c) (hprint : isPrintable c) :
    readBreak c = c := by
  simp only [isBreak, Bool.or_eq_true, beq_iff_eq] at hbreak
  rcases hbreak with (((rfl | rfl) | rfl) | rfl) | rfl <;>
    first | rfl | exact absurd hprint (by decide)

theorem getLast?_cons_elim {fresh : Bool} (c : Char) (cs : List Char) :
    (c :: cs).getLast?.elim fresh isBreak = cs.getLast?.elim (isBreak c) isBreak := by
  cases cs with
  | nil => rfl
  | cons d cs => rw [List.getLast?_cons_cons]; cases h : (d :: cs).getLast? <;> simp_all

/-! ## Places -/

theorem Place.skip_skip (p : Place) (m n : Nat) : (p.skip m).skip n = p.skip (m + n) := by
  simp [Place.skip, Nat.add_assoc]

/-- Outside brackets a colon strays nowhere. -/
theorem isStrayColon_block (cs : List Char) : isStrayColon false cs = false := by
  unfold isStrayColon
  split <;> rfl

/-- A character that cannot be half of a break. -/
theorem scanPlain_cons {flow : Bool} {indent : Nat} {c : Char} {rest text : List Char} {p : Place}
    {b : Between} (hreturn : c ≠ '\r') : scanPlain flow indent (c :: rest) p b text =
      if isBreak c then scanPlain flow indent rest (p.newline 1) (b.addBreak c) text
      else if isGap c then
        if c == '\t' && b.hasBreak && p.column < indent then none
        else scanPlain flow indent rest (p.skip 1) (b.addBlank c) text
      else if !b.isNothing && !flow && p.column < indent then some (text, ⟨c :: rest, p⟩, b.hasBreak)
      else if p.column == 0 && atMarker (c :: rest) then some (text, ⟨c :: rest, p⟩, b.hasBreak)
      else if !b.isNothing && c == '#' then some (text, ⟨c :: rest, p⟩, b.hasBreak)
      else if isStrayColon flow (c :: rest) then none
      else if plainEnds flow (c :: rest) then some (text, ⟨c :: rest, p⟩, b.hasBreak)
      else scanPlain flow indent rest (p.skip 1) .nothing (c :: b.onto text) := by
  rw [scanPlain]
  intro rest' hc
  exact absurd hc hreturn

/-- The text goes on in the same line, or in one that is indented enough. -/
theorem scanPlain_char {indent : Nat} {c : Char} {rest text : List Char} {p : Place} {b : Between}
    (hbreak : isBreak c = false) (hgap : isGap c = false) (hb : b.isNothing ∨ indent ≤ p.column)
    (hcolumn : 0 < p.column ∨ atMarker (c :: rest) = false) (hhash : b.isNothing ∨ c ≠ '#')
    (hcolon : c ≠ ':' ∨ atGap rest = false) :
    scanPlain false indent (c :: rest) p b text =
      scanPlain false indent rest (p.skip 1) .nothing (c :: b.onto text) := by
  have hfresh : (!b.isNothing && !false && decide (p.column < indent)) = false := by
    rcases hb with hb | hb <;> simp [hb]
  have hmarker : (p.column == 0 && atMarker (c :: rest)) = false := by
    rcases hcolumn with h | h <;> simp [h]
    omega
  have hcomment : (!b.isNothing && c == '#') = false := by
    rcases hhash with h | h <;> simp [h]
  have hends : plainEnds false (c :: rest) = false := by
    rcases hcolon with h | h <;> simp [plainEnds, h]
  rw [scanPlain_cons (ne_of_class hbreak rfl)]
  simp only [hbreak, hgap, hfresh, hmarker, hcomment, hends, isStrayColon_block, Bool.false_eq_true,
    if_false]

theorem scanPlain_space {indent : Nat} {rest text : List Char} {p : Place} {b : Between} :
    scanPlain false indent (' ' :: rest) p b text =
      scanPlain false indent rest (p.skip 1) (b.addBlank ' ') text := by
  rw [scanPlain_cons (by decide)]
  simp [isBreak, isGap]

theorem scanPlain_blanks {indent : Nat} {rest text others : List Char} {first : Option Char} :
    ∀ (n : Nat) (p : Place), scanPlain false indent (blanks n ++ rest) p (.breaks first others) text =
      scanPlain false indent rest (p.skip n) (.breaks first others) text
  | 0, p => rfl
  | n + 1, p => by
    rw [blanks, List.replicate_succ, List.cons_append, scanPlain_space]
    exact (scanPlain_blanks n (p.skip 1)).trans (by rw [Place.skip_skip, Nat.add_comm])

/-- Text that a line may go on with after its indentation, and that nothing before it can take for
a part of itself: the name of a field, a dash, or the end. -/
def OpensLine (cs : List Char) : Prop := ∀ c ∈ cs.head?, isWord c

/-- A line that is indented less ends a plain scalar. -/
theorem scanPlain_lineEnd {indent n : Nat} {rest text : List Char} {p : Place} (hn : n < indent)
    (hrest : OpensLine rest) : scanPlain false indent ('\n' :: (blanks n ++ rest)) p .nothing text =
      some (text, ⟨rest, (p.newline 1).skip n⟩, true) := by
  have hcolumn : ((p.newline 1).skip n).column < indent := by simpa [Place.skip, Place.newline]
  rw [scanPlain_cons (by decide), if_pos (by decide)]
  refine (scanPlain_blanks n _).trans ?_
  cases rest with
  | nil => rfl
  | cons c rest =>
    have hword := hrest c rfl
    rw [scanPlain_cons (ne_of_class hword rfl)]
    simp [not_isBreak_of_isWord hword, not_isGap_of_isWord hword, Between.isNothing, hcolumn,
      Between.hasBreak]

namespace Between

theorem addBlank_hasBreak (b : Between) (c : Char) : (b.addBlank c).hasBreak = b.hasBreak := by
  cases b <;> rfl

theorem addBlank_isNothing (b : Between) (c : Char) : (b.addBlank c).isNothing = false := by
  cases b <;> rfl

/-- A blank counts, unless it is next to a break. -/
theorem addBlank_onto {b : Between} (hb : b.hasBreak = false) (c : Char) (text : List Char) :
    (b.addBlank c).onto text = c :: b.onto text := by
  cases b with
  | nothing => rfl
  | blanks cs => rfl
  | breaks first others => cases hb

end Between

theorem atGap_append {cs next : List Char} (h : atGap cs = false) : atGap (cs ++ next) = false := by
  cases cs with
  | nil => cases h
  | cons c cs => exact h

/-- A plain scalar in one line takes in everything that does not look like something else. -/
theorem scanPlain_text {indent : Nat} {next : List Char} (cs : List Char) (p : Place) (b : Between)
    (text : List Char) (hindent : indent ≤ p.column) (hcolumn : 0 < p.column)
    (hchars : ∀ c ∈ cs, isPrintable c ∧ isBreak c = false)
    (hturns : turnsBadly (!b.isNothing) cs = false) (hb : b.hasBreak = false)
    (hlast : ∀ c ∈ cs.getLast?, c ≠ ' ') (hempty : cs = [] → b = .nothing) :
    scanPlain false indent (cs ++ '\n' :: next) p b text =
      scanPlain false indent ('\n' :: next) (p.skip cs.length) .nothing
        (cs.reverse ++ b.onto text) := by
  induction cs generalizing p b text with
  | nil =>
    rw [hempty rfl]
    rfl
  | cons c cs ih =>
    obtain ⟨hprint, hbreak⟩ := hchars c List.mem_cons_self
    have hlast' : ∀ d ∈ cs.getLast?, d ≠ ' ' := fun d hd => hlast d (by
      cases cs with
      | nil => cases hd
      | cons _ _ => simpa using hd)
    simp only [turnsBadly, Bool.or_eq_false_iff, Bool.and_eq_false_iff, hbreak, Bool.or_false]
      at hturns
    obtain ⟨⟨hcolon, hhash⟩, hturns⟩ := hturns
    have hcolumn' : indent ≤ (p.skip 1).column ∧ 0 < (p.skip 1).column := by
      simp only [Place.skip]
      omega
    have hplace : (p.skip 1).skip cs.length = p.skip (c :: cs).length := by
      rw [Place.skip_skip, List.length_cons, Nat.add_comm]
    rw [List.cons_append, List.reverse_cons, List.append_assoc, ← hplace]
    -- A space is kept back, as the scalar may end before it.
    by_cases hgap : isGap c
    · obtain rfl := eq_space_of_isGap hprint hgap
      rw [scanPlain_space, ih _ (b.addBlank ' ') text hcolumn'.1 hcolumn'.2
        (fun d hd => hchars d (List.mem_cons_of_mem _ hd)) ?_ (b.addBlank_hasBreak ' ' ▸ hb) hlast' ?_,
        b.addBlank_onto hb]
      · rfl
      · rwa [b.addBlank_isNothing]
      · rintro rfl
        exact absurd rfl (hlast ' ' rfl)
    · rw [Bool.not_eq_true] at hgap
      rw [scanPlain_char hbreak hgap (.inr hindent) (.inl hcolumn) ?_ ?_, ih _ .nothing
        (c :: b.onto text) hcolumn'.1 hcolumn'.2 (fun d hd => hchars d (List.mem_cons_of_mem _ hd)) ?_
        rfl hlast' (fun _ => rfl)]
      · rfl
      · rwa [hgap] at hturns
      · exact hhash.symm.imp (by simp) (by simp)
      · exact hcolon.imp (by simp) atGap_append

theorem turnsBadly_of_marks {cs : List Char} (h : (Traits.of cs).marks = false) :
    turnsBadly false cs = false := by
  cases cs with
  | nil => rfl
  | cons c cs =>
    simp only [Traits.of, opensBadly, Bool.or_eq_false_iff, Bool.and_eq_false_iff] at h
    simp only [turnsBadly, Bool.or_eq_false_iff, Bool.and_eq_false_iff, or_true, and_true]
    exact ⟨h.1.1.1.2.imp (fun h => h.1.2) fun h => h, h.2⟩

/-- A text that can be written plain is read back as it is. -/
theorem scanPlain_plain {indent n : Nat} {cs rest : List Char} {p : Place} (hcs : cs ≠ [])
    (hplain : (Traits.of cs).plain) (hindent : indent ≤ p.column) (hn : n < indent)
    (hrest : OpensLine rest) :
    scanPlain false indent (cs ++ '\n' :: (blanks n ++ rest)) p .nothing [] =
      some (cs.reverse, ⟨rest, ((p.skip cs.length).newline 1).skip n⟩, true) := by
  simp only [Traits.plain, Bool.not_eq_true', Bool.or_eq_false_iff] at hplain
  obtain ⟨⟨⟨hends, hbreaks⟩, hspecial⟩, hmarks⟩ := hplain
  simp only [Traits.of, Bool.or_eq_false_iff] at hends
  rw [scanPlain_text cs p .nothing [] hindent (by omega) ?_ (turnsBadly_of_marks hmarks) rfl ?_
    fun h => absurd h hcs, scanPlain_lineEnd hn hrest]
  · simp [Between.onto]
  · intro c hc
    have hprint := List.any_eq_false.mp hspecial c hc
    exact ⟨by simpa using hprint, by simpa using List.any_eq_false.mp hbreaks c hc⟩
  · rintro _ hc rfl
    rw [Option.mem_def.mp hc] at hends
    exact absurd hends.2 (by decide)

theorem atMarker_of_ne {c : Char} {rest : List Char} (hdash : c ≠ '-') (hdot : c ≠ '.') :
    atMarker (c :: rest) = false := by
  unfold atMarker
  split
  next heq =>
    cases heq
    simp [hdash, hdot]
  next => rfl

/-- A field's name is read up to its colon. -/
theorem scanPlain_name {indent : Nat} {cs rest text : List Char} {p : Place}
    (hcs : ∀ c ∈ cs, isWord c ∧ c ≠ '-') (hrest : atGap rest) :
    scanPlain false indent (cs ++ ':' :: rest) p .nothing text =
      some (cs.reverse ++ text, ⟨':' :: rest, p.skip cs.length⟩, false) := by
  induction cs generalizing p text with
  | nil =>
    rw [List.nil_append, scanPlain_cons (by decide)]
    simp [isBreak, isGap, Between.isNothing, atMarker_of_ne, isStrayColon_block, plainEnds, hrest,
      Between.hasBreak, Place.skip]
  | cons c cs ih =>
    obtain ⟨hword, hdash⟩ := hcs c List.mem_cons_self
    have hdot : c ≠ '.' := ne_of_class hword rfl
    have hcolon : c ≠ ':' := ne_of_class hword rfl
    rw [List.cons_append, scanPlain_char (not_isBreak_of_isWord hword) (not_isGap_of_isWord hword)
      (.inl rfl) (.inr (atMarker_of_ne hdash hdot)) (.inl rfl) (.inl hcolon),
      ih fun d hd => hcs d (List.mem_cons_of_mem _ hd)]
    simp [Between.onto, Place.skip_skip, Nat.add_comm]

end PoolKeeper.Yaml
