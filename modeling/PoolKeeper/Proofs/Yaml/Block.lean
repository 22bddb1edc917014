import PoolKeeper.Proofs.Yaml.Plain

/-!
# `PoolKeeper/Proofs/Yaml/Block.lean` — literal blocks are read back

The reader of a literal block collects lines and the breaks between them (`BlockState`), and decides
only at the end which of the last breaks belong to the text. What it has collected is the text as far
as it was written (`BlockState.read`), and the mark in the header makes it keep as many breaks as there
are (`At.chomped_eq`).
-/

set_option autoImplicit false

namespace PoolKeeper.Yaml

/-! ## Literal blocks -/

namespace BlockState

/-- What has been read, in reverse. -/
def read (s : BlockState) : List Char := s.emptyBreaks ++ s.lastBreak.toList ++ s.text

/-- The state agrees with where the text stands: inside a line, or at the start of one, with the
breaks before it noted. -/
def At : (fresh : Bool) → Place → BlockState → Prop
  | false, _, s => s.lastBreak = none ∧ s.emptyBreaks = []
  | true, p, s => p.column = 0 ∧ (∀ c ∈ s.lastBreak, isBreak c) ∧ (∀ c ∈ s.emptyBreaks, isBreak c) ∧
      (s.lastBreak = none → s.text = [])

end BlockState

/-- A character that cannot be half of a break. -/
theorem scanBlockLines_cons {indent : Nat} {c : Char} {rest : List Char} {p : Place} {inLine : Bool}
    {s : BlockState} (hreturn : c ≠ '\r') : scanBlockLines true indent (c :: rest) p inLine s =
      if inLine then
        if isBreak c then
          scanBlockLines true indent rest (p.newline 1) false
            { s with lastBreak := some (readBreak c) }
        else scanBlockLines true indent rest (p.skip 1) true { s with text := c :: s.text }
      else if p.column < indent && c == ' ' then scanBlockLines true indent rest (p.skip 1) false s
      else if p.column < indent && c == '\t' then none
      else if isBreak c then
        scanBlockLines true indent rest (p.newline 1) false
          { s with emptyBreaks := readBreak c :: s.emptyBreaks }
      else if p.column == indent then
        scanBlockLines true indent rest (p.skip 1) true
          { s.startLine true c with text := c :: (s.startLine true c).text }
      else some (s, ⟨c :: rest, p⟩) := by
  rw [scanBlockLines]
  intro rest' hc
  exact absurd hc hreturn

theorem scanBlockLines_blanks {indent : Nat} {rest : List Char} {s : BlockState} :
    ∀ (n : Nat) (p : Place), p.column + n ≤ indent →
      scanBlockLines true indent (blanks n ++ rest) p false s =
        scanBlockLines true indent rest (p.skip n) false s
  | 0, p, _ => rfl
  | n + 1, p, hn => by
    have hstep : scanBlockLines true indent (' ' :: (blanks n ++ rest)) p false s =
        scanBlockLines true indent (blanks n ++ rest) (p.skip 1) false s := by
      have hcolumn : p.column < indent := by omega
      rw [scanBlockLines_cons (by decide)]
      simp [hcolumn]
    rw [blanks, List.replicate_succ, List.cons_append]
    refine hstep.trans ((scanBlockLines_blanks n (p.skip 1) ?_).trans ?_)
    · simp only [Place.skip]
      omega
    · rw [Place.skip_skip, Nat.add_comm]

theorem scanBlockLines_start {indent : Nat} {c : Char} {rest : List Char} {p : Place}
    {s : BlockState} (hcolumn : p.column = indent) (hbreak : isBreak c = false) :
    scanBlockLines true indent (c :: rest) p false s =
      scanBlockLines true indent rest (p.skip 1) true
        { s.startLine true c with text := c :: (s.startLine true c).text } := by
  rw [scanBlockLines_cons (ne_of_class hbreak rfl)]
  simp [hcolumn, hbreak]

/-- The lines of a literal block are read as they are, up to whatever stands after them. -/
theorem scanBlockLines_indented (indent : Nat) (next cs : List Char) (fresh : Bool) (p : Place)
    (s : BlockState) (hchars : ∀ c ∈ cs, isPrintable c) (hs : s.At fresh p) :
    ∃ p' s', scanBlockLines true indent (indented indent (fun c => [c]) fresh cs ++ next) p (!fresh) s =
        scanBlockLines true indent next p' (!cs.getLast?.elim fresh isBreak) s' ∧
      s'.At (cs.getLast?.elim fresh isBreak) p' ∧ s'.read = cs.reverse ++ s.read := by
  induction cs generalizing fresh p s with
  | nil => exact ⟨p, s, rfl, hs, rfl⟩
  | cons c cs ih =>
    have hprint := hchars c List.mem_cons_self
    have hchars' : ∀ d ∈ cs, isPrintable d := fun d hd => hchars d (List.mem_cons_of_mem _ hd)
    have hreturn : c ≠ '\r' := ne_of_class hprint rfl
    rw [getLast?_cons_elim, List.reverse_cons, List.append_assoc, indented]
    by_cases hbreak : isBreak c
    · rw [if_pos hbreak, hbreak, List.cons_append, scanBlockLines_cons hreturn]
      cases fresh with
      | false =>
        -- The break ends a line that has something in it.
        obtain ⟨hlast, hempty⟩ := hs
        obtain ⟨p', s', hrun, hat, hread⟩ := ih true (p.newline 1)
          { s with lastBreak := some (readBreak c) } hchars'
          ⟨rfl, by simp [readBreak_eq hbreak hprint, hbreak], by simp [hempty], by simp⟩
        refine ⟨p', s', Eq.trans ?_ hrun, hat, hread.trans ?_⟩
        · simp [hbreak]
        · simp [BlockState.read, hlast, hempty, readBreak_eq hbreak hprint]
      | true =>
        -- The line is empty, and there is only its break to keep.
        obtain ⟨hcolumn, hlast, hempty, htext⟩ := hs
        obtain ⟨p', s', hrun, hat, hread⟩ := ih true (p.newline 1)
          { s with emptyBreaks := readBreak c :: s.emptyBreaks } hchars'
          ⟨rfl, hlast, by simpa [readBreak_eq hbreak hprint, hbreak] using hempty, htext⟩
        refine ⟨p', s', Eq.trans ?_ hrun, hat, hread.trans ?_⟩
        · have hspace : c ≠ ' ' := ne_of_class hbreak rfl
          have htab : c ≠ '\t' := ne_of_class hbreak rfl
          simp [hbreak, hspace, htab]
        · simp [BlockState.read, readBreak_eq hbreak hprint]
    · rw [Bool.not_eq_true] at hbreak
      rw [if_neg (by simp [hbreak]), hbreak]
      have hline {q : Place} {s : BlockState} (hs : s.At false q) :
          ∃ p' s', scanBlockLines true indent (indented indent (fun c => [c]) false cs ++ next) q true s =
            scanBlockLines true indent next p' (!cs.getLast?.elim false isBreak) s' ∧
          s'.At (cs.getLast?.elim false isBreak) p' ∧ s'.read = cs.reverse ++ s.read :=
        ih false q s hchars' hs
      cases fresh with
      | false =>
        obtain ⟨hlast, hempty⟩ := hs
        obtain ⟨p', s', hrun, hat, hread⟩ := hline (q := p.skip 1) (s := { s with text := c :: s.text })
          ⟨hlast, hempty⟩
        refine ⟨p', s', Eq.trans ?_ hrun, hat, hread.trans ?_⟩
        · rw [if_neg (by decide), List.nil_append, List.singleton_append, List.cons_append,
            scanBlockLines_cons hreturn]
          simp [hbreak]
        · simp [BlockState.read, hlast, hempty]
      | true =>
        -- The first character of a line brings in the breaks before it.
        obtain ⟨hcolumn, -⟩ := hs
        obtain ⟨p', s', hrun, hat, hread⟩ := hline (q := (p.skip indent).skip 1)
          (s := { s.startLine true c with text := c :: (s.startLine true c).text }) ⟨rfl, rfl⟩
        refine ⟨p', s', Eq.trans ?_ hrun, hat, hread.trans ?_⟩
        · rw [if_pos rfl, List.append_assoc, List.append_assoc]
          refine (scanBlockLines_blanks indent p (by omega)).trans ?_
          exact scanBlockLines_start (by simp [Place.skip, hcolumn]) hbreak
        · simp [BlockState.read, BlockState.startLine]

/-- A line that is indented less ends a literal block. -/
theorem scanBlockLines_lineEnd {indent n : Nat} {rest : List Char} {p : Place} {s : BlockState}
    (hcolumn : p.column = 0) (hn : n < indent) (hrest : OpensLine rest) :
    scanBlockLines true indent (blanks n ++ rest) p false s = some (s, ⟨rest, p.skip n⟩) := by
  rw [scanBlockLines_blanks n p (by omega)]
  cases rest with
  | nil => rfl
  | cons c rest =>
    have hword := hrest c rfl
    have hspace : c ≠ ' ' := ne_of_class hword rfl
    have htab : c ≠ '\t' := ne_of_class hword rfl
    have hplace : (p.skip n).column ≠ indent := by
      simp only [Place.skip]
      omega
    rw [scanBlockLines_cons (ne_of_class hword rfl)]
    simp [hspace, htab, not_isBreak_of_isWord hword, hplace]

/-- What becomes of the breaks at the end of a text in a literal block. -/
def chomping (cs : List Char) : Chomping :=
  match cs.reverse with
  | [] => .strip
  | c :: rest =>
    if !isBreak c then .strip
    else match rest with
      | [] => .keep
      | c :: _ => if isBreak c then .keep else .clip

namespace BlockState

theorem At.emptyBreaks_eq_nil {p : Place} {s : BlockState} (h : s.At true p) {x c : Char}
    {cs : List Char} (hread : s.read = x :: c :: cs) (hbreak : isBreak c = false) :
    s.emptyBreaks = [] := by
  obtain ⟨-, hlast, hempty, htext⟩ := h
  have hfirst : ∀ c, s.lastBreak = some c → isBreak c := hlast
  unfold read at hread
  rcases hes : s.emptyBreaks with _ | ⟨e, _ | ⟨e', es⟩⟩
  · rfl
  · rw [hes] at hread
    rcases hl : s.lastBreak with _ | l
    · simp [hl, htext hl] at hread
    · simp only [hl, Option.toList_some, List.cons_append, List.nil_append, List.cons.injEq] at hread
      exact absurd (hfirst l hl) (by simp [hread.2.1, hbreak])
  · rw [hes] at hread hempty
    simp only [List.cons_append, List.cons.injEq] at hread
    exact absurd (hempty e' (by simp)) (by simp [hread.2.1, hbreak])

/-- What is kept of what has been read. -/
def chomped (s : BlockState) (ch : Chomping) : List Char :=
  (if ch == .keep then s.emptyBreaks else []) ++ (if ch == .strip then [] else s.lastBreak.toList)
    ++ s.text

theorem chomped_keep (s : BlockState) : s.chomped .keep = s.read := rfl

theorem chomped_clip {s : BlockState} (h : s.emptyBreaks = []) : s.chomped .clip = s.read := by
  simp [chomped, read, h]

theorem At.chomped_strip {p : Place} {s : BlockState} {x : Char} {cs : List Char} (h : s.At true p)
    (hempty : s.emptyBreaks = []) (hread : s.read = x :: cs) : s.chomped .strip = cs := by
  obtain ⟨-, -, -, htext⟩ := h
  rcases hl : s.lastBreak with _ | l
  · simp [read, hempty, hl, htext hl] at hread
  · simp only [read, hempty, hl, Option.toList_some, List.nil_append, List.singleton_append,
      List.cons.injEq] at hread
    exact hread.2

/-- The text is kept, without the break that only ends its last line. -/
theorem At.chomped_eq {p : Place} {s : BlockState} {cs : List Char} (h : s.At true p) (hcs : cs ≠ [])
    (hread : s.read = (if cs.getLast?.any isBreak then [] else ['\n']) ++ cs.reverse) :
    s.chomped (chomping cs) = cs.reverse := by
  rw [← List.head?_reverse] at hread
  unfold chomping
  rcases hr : cs.reverse with _ | ⟨c, r⟩
  · simp [hcs] at hr
  rw [hr] at hread
  by_cases hc : isBreak c
  · rw [if_pos (by simpa using hc), List.nil_append] at hread
    simp only [hc, Bool.not_true, Bool.false_eq_true, if_false]
    split
    next => exact s.chomped_keep.trans hread
    next d r =>
      split
      next => exact s.chomped_keep.trans hread
      next hd => exact (chomped_clip (h.emptyBreaks_eq_nil hread (by simpa using hd))).trans hread
  · rw [Bool.not_eq_true] at hc
    rw [if_neg (by simp [hc])] at hread
    simp only [hc, Bool.not_false, if_true]
    exact h.chomped_strip (h.emptyBreaks_eq_nil hread hc) hread

end BlockState

/-- How the header of a block says what becomes of the breaks at the end. -/
def Chomping.mark : Chomping → List Char
  | .strip => ['-']
  | .clip => []
  | .keep => ['+']

/-- Whether the header of a block has to say how far its text is indented, because the text does not
show it. -/
def needsHint (cs : List Char) : Bool := cs.head?.any fun c => isSpace c || isBreak c

theorem literalHeader_eq (cs : List Char) :
    literalHeader cs = '|' :: (if needsHint cs then ['2'] else []) ++ (chomping cs).mark := by
  unfold literalHeader chomping needsHint
  dsimp only
  congr 1
  rcases cs.reverse with _ | ⟨c, _ | ⟨d, r⟩⟩
  · rfl
  · cases hc : isBreak c <;> simp [hc, Chomping.mark]
  · cases hc : isBreak c <;> cases hd : isBreak d <;> simp [hc, hd, Chomping.mark]

theorem scanBlockHeader_mark {p : Place} (body : List Char) (hint : Bool) (ch : Chomping) :
    ∃ p', p'.column = 0 ∧
      scanBlockHeader ⟨(if hint then ['2'] else []) ++ ch.mark ++ '\n' :: body, p⟩ =
        some (ch, if hint then some 2 else none, ⟨body, p'⟩) := by
  cases hint <;> cases ch <;> exact ⟨_, rfl, rfl⟩

theorem scanBlockIndent_blanks {least widest : Nat} {c : Char} {rest breaks : List Char}
    (hspace : c ≠ ' ') (htab : c ≠ '\t') (hbreak : isBreak c = false) : ∀ (n : Nat) (p : Place),
    scanBlockIndent least (blanks n ++ c :: rest) p widest breaks =
      some (breaks, max least (max widest (p.column + n)), ⟨c :: rest, p.skip n⟩)
  | 0, p => by
    rw [blanks, List.replicate_zero, List.nil_append, scanBlockIndent]
    · simp [hspace, htab, hbreak, Place.skip]
    · rintro _ rfl
      exact absurd hbreak (by decide)
  | n + 1, p => by
    have hstep : scanBlockIndent least (' ' :: (blanks n ++ c :: rest)) p widest breaks =
        scanBlockIndent least (blanks n ++ c :: rest) (p.skip 1) widest breaks := by
      rw [scanBlockIndent]
      · rfl
      · rintro _ ⟨⟩
    rw [blanks, List.replicate_succ, List.cons_append]
    refine hstep.trans ((scanBlockIndent_blanks hspace htab hbreak n (p.skip 1)).trans ?_)
    rw [Place.skip_skip]
    simp only [Place.skip, Nat.add_assoc, Nat.add_comm 1 n]

/-- The lines of a text in a literal block, with the line end that the text may need. -/
def literalLines (indent : Nat) (cs : List Char) : List Char :=
  indented indent (fun c => [c]) true cs ++ if cs.getLast?.any isBreak then [] else ['\n']

/-- What the lines of a text in a literal block are read as. -/
theorem scanBlockLines_literalLines {indent n : Nat} {cs rest : List Char} {p : Place}
    (hcs : cs ≠ []) (hchars : ∀ c ∈ cs, isPrintable c) (hcolumn : p.column = 0) (hn : n < indent)
    (hrest : OpensLine rest) :
    ∃ p' s, p'.column = n ∧
      scanBlockLines true indent (literalLines indent cs ++ (blanks n ++ rest)) p false {} =
        some (s, ⟨rest, p'⟩) ∧ s.chomped (chomping cs) = cs.reverse := by
  obtain ⟨p₁, s₁, hrun, hat, hread⟩ := scanBlockLines_indented indent
    ((if cs.getLast?.any isBreak then [] else ['\n']) ++ (blanks n ++ rest)) cs true p {} hchars
    ⟨hcolumn, by simp, by simp, fun _ => rfl⟩
  have hlast : cs.getLast?.elim true isBreak = cs.getLast?.any isBreak := by
    rcases hl : cs.getLast? with _ | c
    · exact absurd (List.getLast?_eq_none_iff.mp hl) hcs
    · rfl
  rw [hlast] at hrun hat
  rw [literalLines, List.append_assoc]
  cases hc : cs.getLast?.any isBreak with
  | true =>
    rw [hc] at hrun hat
    refine ⟨p₁.skip n, s₁, by simp [Place.skip, hat.1],
      hrun.trans (scanBlockLines_lineEnd hat.1 hn hrest), hat.chomped_eq hcs ?_⟩
    simpa [hc, BlockState.read] using hread
  | false =>
    rw [hc] at hrun hat
    obtain ⟨hnone, hempty⟩ := hat
    have hat' : BlockState.At true (p₁.newline 1) { s₁ with lastBreak := some '\n' } :=
      ⟨rfl, by simp [isBreak], by simp [hempty], by simp⟩
    refine ⟨(p₁.newline 1).skip n, { s₁ with lastBreak := some '\n' }, by simp [Place.skip, hat'.1],
      hrun.trans (Eq.trans ?_ (scanBlockLines_lineEnd hat'.1 hn hrest)), hat'.chomped_eq hcs ?_⟩
    · rw [if_neg Bool.false_ne_true, List.singleton_append, scanBlockLines_cons (by decide)]
      rfl
    · simpa [hc, BlockState.read, hnone, hempty] using hread

/-- A text in a literal block is read back as it is. -/
theorem scanBlock_literal (column : Nat) {n : Nat} {cs rest : List Char} {p : Place} (hcs : cs ≠ [])
    (hchars : ∀ c ∈ cs, isPrintable c) (hn : n < column + 2) (hrest : OpensLine rest) :
    ∃ p', p'.column = n ∧ scanBlock true (column + 1)
      ⟨(literalHeader cs ++ '\n' :: literalLines (column + 2) cs ++ (blanks n ++ rest)).drop 1, p⟩ =
        some (cs.reverse, ⟨rest, p'⟩) := by
  obtain ⟨p₁, hcolumn, hheader⟩ := scanBlockHeader_mark (p := p)
    (literalLines (column + 2) cs ++ (blanks n ++ rest)) (needsHint cs) (chomping cs)
  obtain ⟨p', s, hp', hrun, htext⟩ := scanBlockLines_literalLines hcs hchars hcolumn hn hrest
  refine ⟨p', hp', ?_⟩
  have hindent : max 1 (column + 1) - 1 + 2 = column + 2 := by omega
  have hcursor : (literalHeader cs ++ '\n' :: literalLines (column + 2) cs ++
      (blanks n ++ rest)).drop 1 = (if needsHint cs then ['2'] else []) ++ (chomping cs).mark ++
        '\n' :: (literalLines (column + 2) cs ++ (blanks n ++ rest)) := by
    simp [literalHeader_eq]
  have hfinish := congrArg some (congrArg (Prod.mk · (⟨rest, p'⟩ : Cursor)) htext)
  rw [scanBlock, hcursor, hheader]
  cases hneeds : needsHint cs with
  | true =>
    simp only [if_true, Option.bind_eq_bind, Option.bind_some, hindent, hrun]
    exact hfinish
  | false =>
    -- The first line of text shows the indentation that the hint would have told.
    obtain ⟨c, cs', rfl⟩ := List.exists_cons_of_ne_nil hcs
    simp only [needsHint, List.head?_cons, Option.any_some, Bool.or_eq_false_iff, isSpace,
      beq_eq_false_iff_ne] at hneeds
    obtain ⟨hspace, hbreak⟩ := hneeds
    have htab : c ≠ '\t' := by
      rintro rfl
      exact absurd (hchars _ List.mem_cons_self) (by decide)
    obtain ⟨more, hlines⟩ : ∃ more, literalLines (column + 2) (c :: cs') ++ (blanks n ++ rest) =
        blanks (column + 2) ++ c :: more := by
      simp only [literalLines, indented, hbreak, Bool.false_eq_true, if_false, if_true,
        List.append_assoc, List.singleton_append]
      exact ⟨_, rfl⟩
    rw [hlines, scanBlockLines_blanks _ p₁ (by omega)] at hrun
    have hwidest : max (max 1 (column + 1)) (max 0 (p₁.column + (column + 2))) = column + 2 := by omega
    simp only [Bool.false_eq_true, if_false, Option.bind_eq_bind, Option.bind_some, hlines,
      scanBlockIndent_blanks hspace htab hbreak, hwidest, hrun]
    exact hfinish

end PoolKeeper.Yaml
