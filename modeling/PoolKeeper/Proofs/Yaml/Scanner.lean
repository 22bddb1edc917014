import PoolKeeper.Proofs.Yaml.Block
import PoolKeeper.Proofs.Yaml.Quoted
import PoolKeeper.Yaml.Token

/-!
# `PoolKeeper/Proofs/Yaml/Scanner.lean` — the reader, line by line

The reader of tokens carries much more than a document of this program ever needs. `Scanner.inBlocks`
are the few states it is in between the pieces of such a document: some text is left, some blocks are
open (`Blocks`), and either a line has just begun or a value is expected. `Reads` and `Passes` lead from
one of them to the next, and there is one lemma for each piece that the writer puts down: a name with
its colon, the mark of an item, and every form of scalar.
-/

set_option autoImplicit false

namespace PoolKeeper.Yaml

/-! ## From token to token -/

namespace Scanner

/-- The state at the start of the next token, with the blocks closed that it is not part of. -/
def settle (s : Scanner) : Option Scanner := do
  let s ← s.toNextToken.dropStale
  some (s.closeBlocks (some s.column))

/-- All tokens from the start of one on. -/
def proceed (fuel : Nat) (s : Scanner) : Option Scanner :=
  match s.cursor.rest with
  | [] => s.scanEnd
  | c :: rest => (s.scanToken c rest).bind (run fuel)

theorem run_succ (fuel : Nat) (s : Scanner) : run (fuel + 1) s = s.settle.bind (proceed fuel) := by
  rw [run, settle]
  cases s.toNextToken.dropStale <;> rfl

/-- From the start of a token the scanner comes to the start of a later one, in no more rounds than it
passes characters. -/
def Passes (s t : Scanner) : Prop :=
  ∃ rounds, rounds + t.cursor.rest.length ≤ s.cursor.rest.length ∧
    ∀ fuel, proceed (fuel + rounds) s = proceed fuel t

theorem Passes.refl (s : Scanner) : Passes s s := ⟨0, by omega, fun _ => rfl⟩

theorem Passes.trans {s t u : Scanner} (h : Passes s t) (h' : Passes t u) : Passes s u := by
  obtain ⟨m, hm, hst⟩ := h
  obtain ⟨n, hn, htu⟩ := h'
  refine ⟨n + m, by omega, fun fuel => ?_⟩
  rw [← Nat.add_assoc, hst, htu]

/-- The scanner, wherever it is, comes to the start of a token. -/
def Reads (s t : Scanner) : Prop :=
  ∃ u, s.settle = some u ∧ u.cursor.rest.length ≤ s.cursor.rest.length ∧ Passes u t

theorem Reads.trans {s t u : Scanner} (h : Reads s t) (h' : Passes t u) : Reads s u := by
  obtain ⟨v, hv, hlength, hpasses⟩ := h
  exact ⟨v, hv, hlength, hpasses.trans h'⟩

/-- One token, and what comes after it. -/
theorem Passes.of_token {s t u : Scanner} {c : Char} {rest : List Char} (hs : s.cursor.rest = c :: rest)
    (htoken : s.scanToken c rest = some t) (hshorter : t.cursor.rest.length ≤ rest.length)
    (hreads : Reads t u) : Passes s u := by
  obtain ⟨v, hv, hlength, rounds, hrounds, hrun⟩ := hreads
  refine ⟨rounds + 1, ?_, fun fuel => ?_⟩
  · rw [hs, List.length_cons]
    omega
  · rw [← Nat.add_assoc, ← hrun, proceed, hs]
    simp only [htoken, Option.bind_some, run_succ, hv]

/-- The tokens of a whole text. -/
theorem run_of_reads {s t : Scanner} {fuel : Nat} (h : Reads s t) (ht : t.cursor.rest = [])
    (hfuel : s.cursor.rest.length ≤ fuel) : run (fuel + 1) s = t.scanEnd := by
  obtain ⟨u, hu, hlength, rounds, hrounds, hrun⟩ := h
  obtain ⟨more, rfl⟩ : ∃ more, fuel = more + rounds := ⟨fuel - rounds, by omega⟩
  rw [run_succ, hu, Option.bind_some, hrun, proceed, ht]

end Scanner

/-! ## Blocks -/

/-- The blocks that the scanner is in, with the tokens so far. -/
structure Blocks where
  /-- The last one first. -/
  tokens : List Token
  /-- One more than the column of the innermost block. -/
  indent : Nat
  outer : List Nat

namespace Blocks

def push (b : Blocks) (ts : List Token) : Blocks := { b with tokens := ts.reverse ++ b.tokens }

/-- With a mapping at the column, if there is none. -/
def enter (b : Blocks) (column : Nat) : Blocks :=
  if column + 1 ≤ b.indent then b
  else ⟨.blockMapping :: b.tokens, column + 1, b.indent :: b.outer⟩

/-- Without the blocks that are further in than the column. -/
def leave (b : Blocks) (column : Nat) : Blocks := go b b.outer
where
  /-- Leaves the innermost block while it is too far in. -/
  go (b : Blocks) : List Nat → Blocks
    | [] => b
    | outer :: rest =>
      if column + 1 < b.indent then go ⟨.blockEnd :: b.tokens, outer, rest⟩ rest else b

@[simp] theorem push_nil (b : Blocks) : b.push [] = b := rfl

theorem push_push (b : Blocks) (ts ts' : List Token) : (b.push ts).push ts' = b.push (ts ++ ts') := by
  simp [push]

theorem enter_indent {b : Blocks} {column : Nat} (h : b.indent ≤ column + 1) :
    (b.enter column).indent = column + 1 := by
  unfold enter
  split
  next h' => exact Nat.le_antisymm h h'
  next => rfl

theorem enter_of_eq {b : Blocks} {column : Nat} (h : b.indent = column + 1) : b.enter column = b :=
  if_pos (Nat.le_of_eq h.symm)

theorem leave_of_le {b : Blocks} {column : Nat} (h : b.indent ≤ column + 1) : b.leave column = b := by
  unfold leave
  cases b.outer with
  | nil => rfl
  | cons outer rest => exact if_neg (by omega)

/-- A block that is left comes to its end. -/
theorem leave_enter {b : Blocks} {column n : Nat} {ts : List Token} (hb : b.indent ≤ column)
    (hn : n < column) : ((b.enter column).push ts).leave n =
      (b.push (.blockMapping :: ts ++ [.blockEnd])).leave n := by
  rw [enter, if_neg (by omega)]
  unfold leave
  simp only [push, leave.go]
  rw [if_pos (by omega)]
  simp

end Blocks

/-- The scanner in blocks, with no name of a field in sight. -/
def Scanner.inBlocks (keyAllowed : Bool) (rest : List Char) (p : Place) (b : Blocks) : Scanner where
  cursor := ⟨rest, p⟩
  tokens := b.tokens
  count := b.tokens.length
  indent := b.indent
  outer := b.outer
  keyAllowed := keyAllowed

namespace Scanner

theorem closeBlocks_inBlocks (k : Bool) (rest : List Char) (p : Place) (b : Blocks) (column : Nat) :
    (inBlocks k rest p b).closeBlocks (some column) = inBlocks k rest p (b.leave column) := by
  obtain ⟨tokens, indent, outer⟩ := b
  change closeBlocks.go (some column) (inBlocks k rest p ⟨tokens, indent, outer⟩) outer =
    inBlocks k rest p (Blocks.leave.go column ⟨tokens, indent, outer⟩ outer)
  induction outer generalizing tokens indent with
  | nil => rfl
  | cons outer more ih =>
    rw [closeBlocks.go, Blocks.leave.go]
    by_cases h : column + 1 < indent
    · exact (if_pos h).trans ((ih _ _).trans (congrArg _ (if_pos h).symm))
    · exact (if_neg h).trans (congrArg _ (if_neg h).symm)

theorem settle_inBlocks {k k' : Bool} {rest rest' : List Char} {p p' : Place} {b : Blocks}
    (hmark : rest.head? ≠ some '\uFEFF')
    (hskip : skipGaps false false k rest p = (k', ⟨rest', p'⟩)) :
    (inBlocks k rest p b).settle = some (inBlocks k' rest' p' (b.leave p'.column)) := by
  have hnext : (inBlocks k rest p b).toNextToken = inBlocks k' rest' p' b := by
    unfold toNextToken
    rw [if_neg (by simp [inBlocks, hmark])]
    simp only [inBlocks, inFlow, List.isEmpty_nil, Bool.not_true, hskip]
  rw [settle, hnext, ← closeBlocks_inBlocks]
  rfl

theorem skipGaps_space {flow k : Bool} {rest : List Char} {p : Place} :
    skipGaps flow false k (' ' :: rest) p = skipGaps flow false k rest (p.skip 1) := by
  rw [skipGaps]
  · rfl
  · rintro _ ⟨⟩

theorem skipGaps_newline {k : Bool} {rest : List Char} {p : Place} :
    skipGaps false false k ('\n' :: rest) p = skipGaps false false true rest (p.newline 1) := by
  rw [skipGaps]
  · simp [isBreak]
  · rintro _ ⟨⟩

theorem skipGaps_blanks {flow k : Bool} {rest : List Char} : ∀ (n : Nat) (p : Place),
    skipGaps flow false k (blanks n ++ rest) p = skipGaps flow false k rest (p.skip n)
  | 0, p => rfl
  | n + 1, p => by
    rw [blanks, List.replicate_succ, List.cons_append, skipGaps_space]
    exact (skipGaps_blanks n (p.skip 1)).trans (by rw [Place.skip_skip, Nat.add_comm])

theorem skipGaps_stop {flow k : Bool} {c : Char} {rest : List Char} {p : Place}
    (hbreak : isBreak c = false) (hgap : isGap c = false) (hhash : c ≠ '#') :
    skipGaps flow false k (c :: rest) p = (k, ⟨c :: rest, p⟩) := by
  simp only [isGap, Bool.or_eq_false_iff, beq_eq_false_iff_ne] at hgap
  rw [skipGaps]
  · simp [hbreak, hgap, hhash]
  · rintro _ rfl
    exact absurd hbreak (by decide)

theorem skipGaps_opensLine {flow k : Bool} {rest : List Char} {p : Place} (hrest : OpensLine rest) :
    skipGaps flow false k rest p = (k, ⟨rest, p⟩) := by
  cases rest with
  | nil => rw [skipGaps]
  | cons c rest =>
    have hword := hrest c rfl
    exact skipGaps_stop (not_isBreak_of_isWord hword) (not_isGap_of_isWord hword)
      (ne_of_class hword rfl)

/-! ## Lines -/

/-- From between two tokens the scanner comes to the next one. -/
theorem reads_of_skipGaps {k k' : Bool} {rest rest' : List Char} {p p' : Place} {b : Blocks}
    (hmark : rest.head? ≠ some '\uFEFF') (hskip : skipGaps false false k rest p = (k', ⟨rest', p'⟩))
    (hlength : rest'.length ≤ rest.length) :
    Reads (inBlocks k rest p b) (inBlocks k' rest' p' (b.leave p'.column)) :=
  ⟨_, settle_inBlocks hmark hskip, hlength, .refl _⟩

theorem reads_line {k : Bool} {rest : List Char} {n : Nat} {p : Place} {b : Blocks}
    (hrest : OpensLine rest) : ∃ p', p'.column = n ∧
      Reads (inBlocks k ('\n' :: (blanks n ++ rest)) p b) (inBlocks true rest p' (b.leave n)) := by
  have hcolumn : ((p.newline 1).skip n).column = n := by simp [Place.skip, Place.newline]
  have hskip : skipGaps false false k ('\n' :: (blanks n ++ rest)) p =
      (true, ⟨rest, (p.newline 1).skip n⟩) := by
    rw [skipGaps_newline, skipGaps_blanks, skipGaps_opensLine hrest]
  have hreads := reads_of_skipGaps (b := b) (by simp) hskip (by simp; omega)
  rw [hcolumn] at hreads
  exact ⟨_, hcolumn, hreads⟩

/-- The scanner is at the start of a line already. -/
theorem reads_here {rest : List Char} {p : Place} {b : Blocks} (hrest : OpensLine rest) :
    Reads (inBlocks true rest p b) (inBlocks true rest p (b.leave p.column)) :=
  reads_of_skipGaps (fun h => absurd (hrest _ h) (by decide)) (skipGaps_opensLine hrest) (Nat.le_refl _)

/-- A token that does not look like anything else is a plain scalar. -/
theorem scanToken_plain {s : Scanner} {c : Char} {rest : List Char} (hflow : s.inFlow = false)
    (hcolumn : 0 < s.column ∨ c ≠ '%' ∧ atMarker (c :: rest) = false) (hgap : isGap c = false)
    (hc : ['#', ',', '[', ']', '{', '}', '&', '*', '!', '|', '>', '\'', '"', '%', '@',
      '\x60'].contains c = false)
    (hrest : atGap rest = false ∨ (c == '?' || c == ':' || c == '-') = false) :
    s.scanToken c rest = s.scanPlainScalar := by
  simp only [List.contains_cons, List.contains_nil, Bool.or_eq_false_iff, Bool.or_false] at hc
  have hmarker : (s.column == 0 && atMarker (c :: rest)) = false := by
    rcases hcolumn with h | h <;> simp [h]
    omega
  have hdash : (c == '-' && atGap rest) = false := by rcases hrest with h | h <;> simp_all
  have hquestion : (c == '?' && atGap rest) = false := by rcases hrest with h | h <;> simp_all
  have hcolon : (c == ':' && atGap rest) = false := by rcases hrest with h | h <;> simp_all
  have hstarts : startsPlain false c rest = true := by
    simp only [startsPlain, List.contains_cons, List.contains_nil, hc, hgap, Bool.or_false]
    cases rest with
    | nil => grind [atGap]
    | cons d rest => grind [atGap]
  simp only [scanToken, hflow, hmarker, hdash, hquestion, hcolon, hstarts, hc,
    Bool.false_or, Bool.not_false, Bool.false_and, Bool.and_false, Bool.false_eq_true, if_false,
    if_true]

/-! ### Names of fields -/

/-- The scanner at the colon after the name of a field that starts at `start`. -/
def atColon (cs after : List Char) (start : Place) (b : Blocks) : Scanner :=
  { inBlocks false (':' :: after) (start.skip cs.length) (b.push [.scalar .plain cs]) with
    candidate := some ⟨b.tokens.length, start, b.indent == start.column + 1⟩ }

theorem scanPlainScalar_name {cs after : List Char} {p : Place} {b : Blocks}
    (hcs : ∀ c ∈ cs, isWord c ∧ c ≠ '-') (hafter : atGap after) :
    (inBlocks true (cs ++ ':' :: after) p b).scanPlainScalar = some (atColon cs after p b) := by
  simp [scanPlainScalar, saveCandidate, dropCandidate, inBlocks, inFlow, emit, column,
    scanPlain_name hcs hafter, atColon, Blocks.push]

theorem settle_atColon {cs after : List Char} {p : Place} {b : Blocks} (hlength : cs.length ≤ 1024)
    (hb : b.indent ≤ p.column + 1) : (atColon cs after p b).settle = some (atColon cs after p b) := by
  have hnext : (atColon cs after p b).toNextToken = atColon cs after p b := by
    unfold toNextToken
    rw [if_neg (by simp [atColon, inBlocks])]
    simp only [atColon, inBlocks, inFlow, List.isEmpty_nil, Bool.not_true]
    rw [skipGaps_stop (by decide) (by decide) (by decide)]
  have hstale : isStale (p.skip cs.length) ⟨b.tokens.length, p, b.indent == p.column + 1⟩ = false := by
    simp [isStale, Place.skip]
    omega
  have hdrop : (atColon cs after p b).dropStale = some (atColon cs after p b) := by
    simp [dropStale, atColon, inBlocks, refresh, hstale]
  have hclose : (atColon cs after p b).closeBlocks (some (p.column + cs.length)) =
      atColon cs after p b := by
    unfold closeBlocks
    rw [if_neg (by simp [atColon, inBlocks, inFlow])]
    cases houter : (atColon cs after p b).outer with
    | nil => rfl
    | cons outer rest =>
      refine if_neg ?_
      simp only [Option.elim_some, atColon, inBlocks, Blocks.push]
      omega
  rw [settle, hnext, hdrop]
  exact congrArg some hclose

theorem scanToken_colon {cs after : List Char} {p : Place} {b : Blocks}
    (hafter : atGap after) : (atColon cs after p b).scanToken ':' after =
      some (inBlocks false after (p.skip (cs.length + 1))
        ((b.enter p.column).push [.key, .scalar .plain cs, .value])) := by
  have hvalue : (atColon cs after p b).scanToken ':' after = (atColon cs after p b).scanValue := by
    simp [scanToken, hafter, atMarker_of_ne]
  rw [hvalue]
  unfold scanValue
  simp only [atColon, inBlocks, insert, openBlock, inFlow, take, emit, Blocks.push, Cursor.skip]
  by_cases hb : p.column + 1 ≤ b.indent
  · simp [Blocks.enter, hb, Place.skip_skip]
  · simp [Blocks.enter, hb, Place.skip_skip]
    rw [show b.tokens.length + 1 + 1 - b.tokens.length = 2 by omega]
    rfl

theorem not_contains_of_isWord {c : Char} (ds : List Char) (hc : isWord c)
    (hds : ds.any isWord = false) : ds.contains c = false := by
  rw [Bool.eq_false_iff]
  intro h
  exact absurd hc (List.any_eq_false.mp hds c (List.contains_iff_mem.mp h))

/-- What can be the name of a field in a document. -/
def IsName (name : String) : Prop :=
  name ≠ "" ∧ name.length ≤ 1024 ∧ ∀ c ∈ name.toList, isWord c ∧ c ≠ '-'

/-- A name and its colon. -/
theorem passes_name {name : String} {after : List Char} {p : Place} {b : Blocks}
    (hname : IsName name) (hafter : atGap after) (hb : b.indent ≤ p.column + 1) :
    ∃ q, p.column < q.column ∧ ∀ t, Reads (inBlocks false after q
        ((b.enter p.column).push [.key, .scalar .plain name.toList, .value])) t →
      Passes (inBlocks true (name.toList ++ ':' :: after) p b) t := by
  obtain ⟨hne, hlength, hchars⟩ := hname
  obtain ⟨c, cs, hcs⟩ := List.exists_cons_of_ne_nil
    (show name.toList ≠ [] from fun h => hne (String.toList_injective h))
  have hlength : name.toList.length ≤ 1024 := String.length_toList ▸ hlength
  obtain ⟨hword, hdash⟩ := hchars c (by simp [hcs])
  have hplain : (inBlocks true (name.toList ++ ':' :: after) p b).scanToken c (cs ++ ':' :: after) =
      some (atColon name.toList after p b) := by
    rw [scanToken_plain rfl (.inr ⟨ne_of_class hword rfl, atMarker_of_ne hdash (ne_of_class hword rfl)⟩)
      (not_isGap_of_isWord hword) (not_contains_of_isWord _ hword rfl) (.inr ?_),
      scanPlainScalar_name hchars hafter]
    have hquestion : c ≠ '?' := ne_of_class hword rfl
    have hcolon : c ≠ ':' := ne_of_class hword rfl
    simp [hdash, hquestion, hcolon]
  refine ⟨p.skip (name.toList.length + 1), by simp [Place.skip], fun t hreads => ?_⟩
  refine .of_token (by simp [inBlocks, hcs]) hplain (by simp [atColon, inBlocks])
    ⟨_, settle_atColon hlength hb, Nat.le_refl _, .of_token rfl (scanToken_colon hafter) ?_ hreads⟩
  simp [inBlocks]

/-! ### Values in the line of their name -/

/-- A value that is one token, and what comes after it. -/
theorem reads_token {k : Bool} {c : Char} {cs rest : List Char} {q p' : Place} {b b' : Blocks}
    {t : Scanner} (hbreak : isBreak c = false) (hgap : isGap c = false) (hhash : c ≠ '#')
    (hb : b.indent ≤ q.column + 2) (hlength : rest.length ≤ cs.length)
    (htoken : (inBlocks false (c :: cs) (q.skip 1) b).scanToken c cs = some (inBlocks k rest p' b'))
    (hreads : Reads (inBlocks k rest p' b') t) : Reads (inBlocks false (' ' :: c :: cs) q b) t := by
  have hskip : skipGaps false false false (' ' :: c :: cs) q = (false, ⟨c :: cs, q.skip 1⟩) := by
    rw [skipGaps_space, skipGaps_stop hbreak hgap hhash]
  have hstart := reads_of_skipGaps (b := b) (by simp) hskip (by simp)
  rw [Blocks.leave_of_le (show b.indent ≤ (q.skip 1).column + 1 from hb)] at hstart
  exact hstart.trans (.of_token rfl htoken hlength hreads)

theorem reads_plain {cs rest : List Char} {n : Nat} {q : Place} {b : Blocks} (hcs : cs ≠ [])
    (hplain : (Traits.of cs).plain) (hb : b.indent ≤ q.column + 1) (hn : n < b.indent)
    (hrest : OpensLine rest) :
    ∃ p', p'.column = n ∧ Reads (inBlocks false (' ' :: (cs ++ '\n' :: (blanks n ++ rest))) q b)
      (inBlocks true rest p' ((b.push [.scalar .plain cs]).leave n)) := by
  have hscan := scanPlain_plain (p := q.skip 1) hcs hplain hb hn hrest
  have hcolumn : ((((q.skip 1).skip cs.length).newline 1).skip n).column = n := by
    simp [Place.skip, Place.newline]
  generalize (((q.skip 1).skip cs.length).newline 1).skip n = p' at hscan hcolumn
  obtain ⟨c, cs, rfl⟩ := List.exists_cons_of_ne_nil hcs
  simp only [Traits.plain, Traits.of, Bool.not_eq_true', Bool.or_eq_false_iff, List.any_cons,
    List.head?_cons, Option.any_some] at hplain
  obtain ⟨⟨⟨⟨⟨hspace, -⟩, -⟩, hbreak, -⟩, hprint, -⟩, hopens, -⟩ := hplain
  have hgap : isGap c = false := by
    rw [Bool.eq_false_iff]
    intro h
    rw [eq_space_of_isGap (by simpa using hprint) h] at hspace
    exact absurd hspace (by decide)
  simp only [opensBadly, Bool.or_eq_false_iff, Bool.and_eq_false_iff] at hopens
  obtain ⟨⟨⟨hindicator, hmark⟩, -⟩, -⟩ := hopens
  refine ⟨p', hcolumn, ?_⟩
  have hhere := reads_here (p := p') (b := b.push [.scalar .plain (c :: cs)]) hrest
  rw [hcolumn] at hhere
  refine reads_token hbreak hgap ?_ (Nat.le_succ_of_le hb) ?_ ?_ hhere
  · rintro rfl
    exact absurd hindicator (by decide)
  · simp
    omega
  · rw [scanToken_plain rfl (.inl (by simp [column, inBlocks, Place.skip])) hgap hindicator ?_]
    · have hrun : scanPlain false b.indent (c :: (cs ++ '\n' :: (blanks n ++ rest))) (q.skip 1)
          .nothing [] = some ((c :: cs).reverse, ⟨rest, p'⟩, true) := hscan
      simp [scanPlainScalar, saveCandidate, inBlocks, inFlow, hrun, emit, Blocks.push]
    · exact hmark.symm.imp atGap_append (by simp)

/-- The mark of a quoted scalar, and its form. -/
def quoteMark (single : Bool) : Char := if single then '\'' else '"'
@[inherit_doc quoteMark]
def quoteStyle (single : Bool) : Style := if single then .singleQuoted else .doubleQuoted

theorem reads_quoted (single : Bool) {cs tail rest : List Char} {n : Nat} {p' q : Place} {b : Blocks}
    (hb : b.indent ≤ q.column + 1) (hrest : OpensLine rest)
    (hlength : (blanks n ++ rest).length < tail.length)
    (hscan : (if single then scanSingle tail ((q.skip 1).skip 1) .nothing []
      else scanDouble tail ((q.skip 1).skip 1) none .nothing []) =
        some (cs.reverse, ⟨'\n' :: (blanks n ++ rest), p'⟩)) :
    ∃ p', p'.column = n ∧ Reads (inBlocks false (' ' :: quoteMark single :: tail) q b)
      (inBlocks true rest p' ((b.push [.scalar (quoteStyle single) cs]).leave n)) := by
  obtain ⟨p'', hcolumn, hline⟩ := reads_line (k := false) (n := n) (p := p')
    (b := b.push [.scalar (quoteStyle single) cs]) hrest
  have htoken : (inBlocks false (quoteMark single :: tail) (q.skip 1) b).scanToken (quoteMark single)
      tail = (inBlocks false (quoteMark single :: tail) (q.skip 1) b).scanQuoted single := by
    cases single <;> simp [scanToken, quoteMark, atMarker_of_ne, inFlow, inBlocks]
  have hquoted : (inBlocks false (quoteMark single :: tail) (q.skip 1) b).scanQuoted single =
      some (inBlocks false ('\n' :: (blanks n ++ rest)) p' (b.push [.scalar (quoteStyle single) cs])) := by
    cases single <;> simp only [Bool.false_eq_true, if_false, if_true] at hscan <;>
      simp [scanQuoted, saveCandidate, inBlocks, Cursor.skip, hscan, emit, Blocks.push, quoteStyle]
  refine ⟨p'', hcolumn, reads_token ?_ ?_ ?_ (Nat.le_succ_of_le hb)
    (by simp only [List.length_cons]; omega) (htoken.trans hquoted) hline⟩
  · cases single <;> rfl
  · cases single <;> rfl
  · cases single <;> decide

theorem reads_literal {cs tail rest : List Char} {p' q : Place} {b : Blocks}
    (hb : b.indent ≤ q.column + 1) (hrest : OpensLine rest) (hlength : rest.length ≤ tail.length)
    (hscan : scanBlock true b.indent ⟨tail, (q.skip 1).skip 1⟩ = some (cs.reverse, ⟨rest, p'⟩)) :
    Reads (inBlocks false (' ' :: '|' :: tail) q b)
      (inBlocks true rest p' ((b.push [.scalar .literal cs]).leave p'.column)) := by
  have htoken : (inBlocks false ('|' :: tail) (q.skip 1) b).scanToken '|' tail =
      (inBlocks false ('|' :: tail) (q.skip 1) b).scanBlockScalar true := by
    simp [scanToken, atMarker_of_ne, inFlow, inBlocks]
  have hblock : (inBlocks false ('|' :: tail) (q.skip 1) b).scanBlockScalar true =
      some (inBlocks true rest p' (b.push [.scalar .literal cs])) := by
    simp [scanBlockScalar, dropCandidate, inBlocks, Cursor.skip, hscan, emit, Blocks.push]
  exact reads_token rfl rfl (by decide) (Nat.le_succ_of_le hb) hlength (htoken.trans hblock)
    (reads_here hrest)

theorem styleOf_cases (s : String) :
    (styleOf s = .plain ∧ s.toList ≠ [] ∧ (Traits.of s.toList).plain) ∨
    (styleOf s = .singleQuoted ∧ '\n' ∉ s.toList ∧ (Traits.of s.toList).single) ∨
    (styleOf s = .literal ∧ s.toList ≠ [] ∧ ∀ c ∈ s.toList, isPrintable c) ∨
    styleOf s = .doubleQuoted := by
  unfold styleOf
  dsimp only
  split
  next hline =>
    have hmem : '\n' ∈ s.toList := by simpa using hline
    split
    next hliteral =>
      simp only [Traits.literal, Traits.of, Bool.not_eq_true', Bool.or_eq_false_iff] at hliteral
      exact .inr (.inr (.inl ⟨rfl, List.ne_nil_of_mem hmem,
        fun c hc => by simpa using List.any_eq_false.mp hliteral.2 c hc⟩))
    next => exact .inr (.inr (.inr rfl))
  next hline =>
    split
    next hplain =>
      simp only [Bool.and_eq_true, decide_eq_true_eq] at hplain
      refine .inl ⟨rfl, fun h => ?_, hplain.2⟩
      rw [String.toList_injective (h.trans String.toList_empty.symm)] at hplain
      exact absurd hplain.1.1 (by decide)
    next =>
      split
      next hsingle => exact .inr (.inl ⟨rfl, by simpa using hline, hsingle⟩)
      next => exact .inr (.inr (.inr rfl))

theorem literalBlock_eq (indent : Nat) (cs : List Char) :
    literalHeader cs ++ '\n' :: literalLines indent cs =
      let block := literalHeader cs ++ '\n' :: indented indent (fun c => [c]) true cs
      if cs.getLast?.any isBreak then block else block ++ ['\n'] := by
  unfold literalLines
  cases cs.getLast?.any isBreak <;> simp

/-- A text after its name is read as that text, in the form it was written in. -/
theorem reads_text {s : String} {rest : List Char} {column n : Nat} {q : Place} {b : Blocks}
    (hindent : b.indent = column + 1) (hq : column < q.column) (hn : n ≤ column)
    (hrest : OpensLine rest) :
    ∃ p', p'.column = n ∧ Reads (inBlocks false (' ' :: (textLine column s ++ (blanks n ++ rest))) q b)
      (inBlocks true rest p' ((b.push [.scalar (styleOf s) s.toList]).leave n)) := by
  have hb : b.indent ≤ q.column + 1 := by omega
  have hplace : 0 < ((q.skip 1).skip 1).column := by simp [Place.skip]
  unfold textLine
  rcases styleOf_cases s with ⟨hstyle, hne, hplain⟩ | ⟨hstyle, hline, hsingle⟩ |
    ⟨hstyle, hne, hprint⟩ | hstyle
  · rw [hstyle]
    simp only [List.append_assoc, List.singleton_append]
    exact reads_plain hne hplain hb (by omega) hrest
  · obtain ⟨p', hscan⟩ := scanSingle_singleQuoted (blanks n ++ rest)
      (show 0 < column + 2 by omega) hplace hsingle hline
    obtain ⟨p'', hcolumn, hreads⟩ := reads_quoted true hb hrest (by
      simp [singleQuoted_eq]; omega) hscan
    refine ⟨p'', hcolumn, ?_⟩
    have htext : singleQuoted (column + 2) s.toList ++ ['\n'] ++ (blanks n ++ rest) = quoteMark true ::
        (singleQuoted (column + 2) s.toList ++ '\n' :: (blanks n ++ rest)).drop 1 := by
      simp [singleQuoted_eq, quoteMark]
    rw [hstyle]
    simp only [htext]
    exact hreads
  · obtain ⟨p', rfl, hscan⟩ := scanBlock_literal column (p := (q.skip 1).skip 1) hne hprint
      (show n < column + 2 by omega) hrest
    have htext : literalHeader s.toList ++ '\n' :: literalLines (column + 2) s.toList ++
        (blanks p'.column ++ rest) = '|' :: (literalHeader s.toList ++
          '\n' :: literalLines (column + 2) s.toList ++ (blanks p'.column ++ rest)).drop 1 := by
      simp [literalHeader_eq]
    have hreads := reads_literal hb hrest (by simp [literalHeader_eq]; omega) (hindent ▸ hscan)
    have hblock := literalBlock_eq (column + 2) s.toList
    refine ⟨p', rfl, ?_⟩
    rw [hstyle]
    simp only at hblock ⊢
    rw [← hblock, htext]
    exact hreads
  · obtain ⟨p', hscan⟩ := scanDouble_doubleQuoted s.toList ('\n' :: (blanks n ++ rest))
      hplace
    obtain ⟨p'', hcolumn, hreads⟩ := reads_quoted false hb hrest (by
      simp [doubleQuoted_eq]; omega) hscan
    refine ⟨p'', hcolumn, ?_⟩
    have htext : doubleQuoted s.toList ++ ['\n'] ++ (blanks n ++ rest) = quoteMark false ::
        (doubleQuoted s.toList ++ '\n' :: (blanks n ++ rest)).drop 1 := by
      simp [doubleQuoted_eq, quoteMark]
    rw [hstyle]
    simp only [htext]
    exact hreads

/-- The marks and the tokens of an empty list, or of an empty mapping. -/
def emptyMarks (mapping : Bool) : Char × Char := if mapping then ('{', '}') else ('[', ']')
@[inherit_doc emptyMarks]
def emptyTokens (mapping : Bool) : Token × Token :=
  if mapping then (.openBrace, .closeBrace) else (.openBracket, .closeBracket)

theorem reads_empty (mapping : Bool) {rest : List Char} {n : Nat} {q : Place} {b : Blocks}
    (hb : b.indent ≤ q.column + 1) (hrest : OpensLine rest) :
    ∃ p', p'.column = n ∧ Reads (inBlocks false (' ' :: (emptyMarks mapping).1 ::
        (emptyMarks mapping).2 :: '\n' :: (blanks n ++ rest)) q b)
      (inBlocks true rest p'
        ((b.push [(emptyTokens mapping).1, (emptyTokens mapping).2]).leave n)) := by
  obtain ⟨p', hcolumn, hline⟩ := reads_line (k := false) (n := n) (p := ((q.skip 1).skip 1).skip 1)
    (b := b.push [(emptyTokens mapping).1, (emptyTokens mapping).2]) hrest
  have hskip : skipGaps false false false (' ' :: (emptyMarks mapping).1 :: (emptyMarks mapping).2 ::
      '\n' :: (blanks n ++ rest)) q = (false, ⟨(emptyMarks mapping).1 :: (emptyMarks mapping).2 ::
      '\n' :: (blanks n ++ rest), q.skip 1⟩) := by
    cases mapping <;> rfl
  have hstart := reads_of_skipGaps (b := b) (by simp) hskip (by simp)
  rw [Blocks.leave_of_le (show b.indent ≤ (q.skip 1).column + 1 from Nat.le_succ_of_le hb)] at hstart
  let inside : Scanner := { inBlocks true ((emptyMarks mapping).2 :: '\n' :: (blanks n ++ rest))
    ((q.skip 1).skip 1) (b.push [(emptyTokens mapping).1]) with suspended := [none] }
  have hopen : (inBlocks false ((emptyMarks mapping).1 :: (emptyMarks mapping).2 :: '\n' ::
      (blanks n ++ rest)) (q.skip 1) b).scanToken (emptyMarks mapping).1 ((emptyMarks mapping).2 ::
      '\n' :: (blanks n ++ rest)) = some inside := by
    cases mapping <;> rfl
  have hinside : inside.settle = some inside := by cases mapping <;> rfl
  have hclose : inside.scanToken (emptyMarks mapping).2 ('\n' :: (blanks n ++ rest)) =
      some (inBlocks false ('\n' :: (blanks n ++ rest)) (((q.skip 1).skip 1).skip 1)
        (b.push [(emptyTokens mapping).1, (emptyTokens mapping).2])) := by
    cases mapping <;> rfl
  exact ⟨p', hcolumn, hstart.trans (.of_token rfl hopen (Nat.le_refl _)
    ⟨inside, hinside, Nat.le_refl _, .of_token rfl hclose (Nat.le_refl _) hline⟩)⟩

/-! ### Numbers and truth values -/

theorem isPrintable_of_isWord {c : Char} (h : isWord c) : isPrintable c := by
  have hrange : 0x20 ≤ c.toNat ∧ c.toNat ≤ 0x7E := by
    simp only [isWord, Bool.or_eq_true, Bool.and_eq_true, decide_eq_true_eq, beq_iff_eq] at h
    rcases h with (((⟨h, h'⟩ | ⟨h, h'⟩) | ⟨h, h'⟩) | rfl) | rfl
    · exact ⟨Nat.le_trans (by decide) (Char.le_def.mp h), Nat.le_trans (Char.le_def.mp h') (by decide)⟩
    · exact ⟨Nat.le_trans (by decide) (Char.le_def.mp h), Nat.le_trans (Char.le_def.mp h') (by decide)⟩
    · exact ⟨Nat.le_trans (by decide) (Char.le_def.mp h), Nat.le_trans (Char.le_def.mp h') (by decide)⟩
    · decide
    · decide
  simp [isPrintable, hrange]

theorem turnsBadly_of_isWord (afterGap : Bool) {cs : List Char} (h : ∀ c ∈ cs, isWord c) :
    turnsBadly afterGap cs = false := by
  induction cs generalizing afterGap with
  | nil => rfl
  | cons c cs ih =>
    have hcolon : c ≠ ':' := by
      rintro rfl
      exact absurd (h _ List.mem_cons_self) (by decide)
    have hhash : c ≠ '#' := by
      rintro rfl
      exact absurd (h _ List.mem_cons_self) (by decide)
    rw [turnsBadly, ih _ fun d hd => h d (List.mem_cons_of_mem _ hd)]
    simp [hcolon, hhash]

/-- Text of letters and digits, with a dash in front at most, can be written plain. -/
theorem plain_of_isWord {sign cs : List Char} (hsign : sign = [] ∨ sign = ['-']) (hne : cs ≠ [])
    (hcs : ∀ c ∈ cs, isWord c ∧ c ≠ '-') : (Traits.of (sign ++ cs)).plain := by
  have hall : ∀ c ∈ sign ++ cs, isWord c := by
    intro c hc
    rcases List.mem_append.mp hc with hc | hc
    · rcases hsign with rfl | rfl
      · cases hc
      · rw [List.mem_singleton.mp hc]
        rfl
    · exact (hcs c hc).1
  have hsolid : ∀ c ∈ sign ++ cs, isSpace c = false ∧ isBreak c = false := by
    intro c hc
    have hspace : c ≠ ' ' := by
      rintro rfl
      exact absurd (hall _ hc) (by decide)
    exact ⟨by simp [isSpace, hspace], not_isBreak_of_isWord (hall c hc)⟩
  have hends : (Traits.of (sign ++ cs)).looseEnds = false := by
    simp only [Traits.of, Bool.or_eq_false_iff, Option.any_eq_false]
    exact ⟨fun c hc => hsolid c (List.mem_of_head? hc),
      fun c hc => hsolid c (List.mem_of_getLast? hc)⟩
  have hbreaks : (Traits.of (sign ++ cs)).breaks = false :=
    List.any_eq_false.mpr fun c hc => by simp [not_isBreak_of_isWord (hall c hc)]
  have hspecial : (Traits.of (sign ++ cs)).special = false :=
    List.any_eq_false.mpr fun c hc => by simp [isPrintable_of_isWord (hall c hc)]
  -- Letters and digits give no marks; a dash in front could, but one of them follows it.
  have hmarks : (Traits.of (sign ++ cs)).marks = false := by
    obtain ⟨d, ds, rfl⟩ := List.exists_cons_of_ne_nil hne
    obtain ⟨hword, hdash⟩ := hcs d List.mem_cons_self
    have hgap : isGap d = false := not_isGap_of_isWord hword
    have hbreak : isBreak d = false := not_isBreak_of_isWord hword
    rcases hsign with rfl | rfl
    · have hturns := turnsBadly_of_isWord (isGap d || isBreak d)
        fun c hc => hall c (List.mem_cons_of_mem _ hc)
      have hquestion : d ≠ '?' := ne_of_class hword rfl
      have hcolon : d ≠ ':' := ne_of_class hword rfl
      have hdot : d ≠ '.' := ne_of_class hword rfl
      simp only [Traits.of, opensBadly, not_contains_of_isWord ['#', ',', '[', ']', '{', '}', '&', '*',
        '!', '|', '>', '\'', '"', '%', '@', '\x60'] hword rfl, List.nil_append, hturns]
      simp [hdash, hquestion, hcolon, hdot]
    · have hturns := turnsBadly_of_isWord false fun c hc => (hcs c hc).1
      have htake : ((d :: ds).take 2 == ['-', '-']) = false := by
        cases ds <;> simp [hdash]
      simp only [Traits.of, opensBadly, List.singleton_append, htake, atGap, hgap, hbreak]
      simp [show (isGap '-' || isBreak '-') = false by decide, hturns]
  simp [Traits.plain, hmarks, hends, hbreaks, hspecial]

theorem isWord_of_isDigit {c : Char} (h : c.isDigit) : isWord c ∧ c ≠ '-' := by
  refine ⟨?_, ne_of_class h rfl⟩
  simp only [Char.isDigit, Bool.and_eq_true, decide_eq_true_eq] at h
  have hrange : '0' ≤ c ∧ c ≤ '9' := h
  simp [isWord, hrange]

theorem numberChars_plain (n : Int) : numberChars n ≠ [] ∧ (Traits.of (numberChars n)).plain := by
  have hdigits : ∀ c ∈ Text.decimal n.natAbs, isWord c ∧ c ≠ '-' := fun c hc =>
    isWord_of_isDigit (Nat.isDigit_of_mem_toDigits (by decide) (by decide) hc)
  have hne : Text.decimal n.natAbs ≠ [] := Nat.toDigits_ne_nil
  refine ⟨by simp [numberChars, hne], plain_of_isWord ?_ hne hdigits⟩
  split
  next => exact .inr rfl
  next => exact .inl rfl

/-- A truth value as it is written. -/
def flagChars (b : Bool) : List Char := if b then ['t', 'r', 'u', 'e'] else ['f', 'a', 'l', 's', 'e']

theorem flagChars_plain (b : Bool) : flagChars b ≠ [] ∧ (Traits.of (flagChars b)).plain := by
  cases b <;> decide

end Scanner

end PoolKeeper.Yaml
