import PoolKeeper.Proofs.Yaml.Scanner

/-!
# `PoolKeeper/Proofs/Yaml/Lines.lean` — documents as tokens

`valueTokens` are the tokens of some data, and `Token.scan` finds just these in the text that is written
for it (`scan_yaml`). The induction is on the data, and what it carries is the indentation: the lines of a
value are read in blocks that are all less indented than the value, and afterwards just these are open.
-/

set_option autoImplicit false

namespace PoolKeeper

mutual

/-- The data can be written as a document: its fields have proper names, and what stands in a list is
a mapping with something in it. -/
def Form.WellNamed : Form → Prop
  | .flag _ | .number _ | .text _ => True
  | .list items => Form.ItemsWellNamed items
  | .fields entries => Form.EntriesWellNamed entries

@[inherit_doc Form.WellNamed]
def Form.EntriesWellNamed : List (String × Form) → Prop
  | [] => True
  | (name, f) :: es => Yaml.Scanner.IsName name ∧ f.WellNamed ∧ Form.EntriesWellNamed es

@[inherit_doc Form.WellNamed]
def Form.ItemsWellNamed : List Form → Prop
  | [] => True
  | i :: is => (∃ e es, i = .fields (e :: es)) ∧ i.WellNamed ∧ Form.ItemsWellNamed is

end

namespace Yaml

mutual

/-- The tokens of data after its name. -/
def valueTokens : Form → List Token
  | .flag b => [.scalar .plain (Scanner.flagChars b)]
  | .number n => [.scalar .plain (numberChars n)]
  | .text s => [.scalar (styleOf s) s.toList]
  | .list [] => [.openBracket, .closeBracket]
  | .list (i :: is) => itemTokens (i :: is)
  | .fields [] => [.openBrace, .closeBrace]
  | .fields (e :: es) => .blockMapping :: entryTokens (e :: es) ++ [.blockEnd]

def entryTokens : List (String × Form) → List Token
  | [] => []
  | (name, f) :: es => .key :: .scalar .plain name.toList :: .value :: (valueTokens f ++ entryTokens es)

def itemTokens : List Form → List Token
  | [] => []
  | i :: is => .entry :: (valueTokens i ++ itemTokens is)

end

namespace Scanner

theorem entryLines_eq {column : Nat} {es : List (String × Form)} (h : es ≠ []) :
    entryLines column es = blanks column ++ (entryLines column es).drop column := by
  obtain ⟨⟨name, f⟩, es, rfl⟩ := List.exists_cons_of_ne_nil h
  simp [entryLines, blanks, List.append_assoc]

theorem listItems_eq {column : Nat} {is : List Form} (h : is ≠ []) :
    listItems column is = blanks column ++ (listItems column is).drop column := by
  obtain ⟨i, is, rfl⟩ := List.exists_cons_of_ne_nil h
  unfold listItems
  split
  next heq => cases heq
  all_goals simp [blanks, List.append_assoc]

theorem drop_entryLines {column : Nat} {name : String} {f : Form} {es : List (String × Form)} :
    (entryLines column ((name, f) :: es)).drop column =
      name.toList ++ ':' :: (afterName column f ++ entryLines column es) := by
  simp [entryLines, blanks, List.append_assoc]

theorem drop_listItems {column : Nat} {e : String × Form} {es : List (String × Form)}
    {is : List Form} : (listItems column (.fields (e :: es) :: is)).drop column =
      '-' :: ' ' :: ((entryLines (column + 2) (e :: es)).drop (column + 2) ++ listItems column is) := by
  simp [listItems, blanks, List.append_assoc]

/-- The dash of an item. -/
theorem passes_dash {rest : List Char} {p : Place} {b : Blocks} {t : Scanner}
    (hindent : b.indent = p.column + 1) (hrest : OpensLine rest)
    (hnext : Passes (inBlocks true rest (p.skip 2) (b.push [.entry])) t) :
    Passes (inBlocks true ('-' :: ' ' :: rest) p b) t := by
  have hmarker : atMarker ('-' :: ' ' :: rest) = false := by cases rest <;> rfl
  have hentry : (inBlocks true ('-' :: ' ' :: rest) p b).scanToken '-' (' ' :: rest) =
      (inBlocks true ('-' :: ' ' :: rest) p b).scanEntry := by
    simp [scanToken, hmarker, atGap, isGap]
  have hopen : (inBlocks true ('-' :: ' ' :: rest) p b).openBlock p.column b.tokens.length
      .blockSequence = inBlocks true ('-' :: ' ' :: rest) p b :=
    if_pos (by simp [inBlocks, hindent])
  have htoken : (inBlocks true ('-' :: ' ' :: rest) p b).scanEntry =
      some (inBlocks true (' ' :: rest) (p.skip 1) (b.push [.entry])) := by
    rw [scanEntry, if_neg (by simp [inBlocks])]
    change (((inBlocks true ('-' :: ' ' :: rest) p b).openBlock p.column b.tokens.length
      .blockSequence).dropCandidate.bind _) = _
    rw [hopen]
    rfl
  have hskip : skipGaps false false true (' ' :: rest) (p.skip 1) = (true, ⟨rest, p.skip 2⟩) := by
    rw [skipGaps_space, skipGaps_opensLine hrest, Place.skip_skip]
  have hreads := reads_of_skipGaps (b := b.push [.entry]) (by simp) hskip (by simp)
  rw [Blocks.leave_of_le (show (b.push [.entry]).indent ≤ (p.skip 2).column + 1 by
    simp [Place.skip, Blocks.push]; omega)] at hreads
  exact .of_token rfl (hentry.trans htoken) (Nat.le_refl _) (hreads.trans hnext)

theorem atGap_afterName (column : Nat) (f : Form) (next : List Char) :
    atGap (afterName column f ++ next) := by
  unfold afterName
  split <;> rfl

theorem opensLine_entries (column : Nat) {es : List (String × Form)} (next : List Char)
    (hes : es ≠ []) (hnamed : Form.EntriesWellNamed es) :
    OpensLine ((entryLines column es).drop column ++ next) := by
  obtain ⟨⟨name, f⟩, es, rfl⟩ := List.exists_cons_of_ne_nil hes
  obtain ⟨⟨hne, -, hchars⟩, -⟩ := hnamed
  obtain ⟨c, cs, hcs⟩ := List.exists_cons_of_ne_nil
    (show name.toList ≠ [] from fun h => hne (String.toList_injective h))
  rw [drop_entryLines, hcs]
  intro d hd
  obtain rfl : c = d := by simpa using hd
  exact (hchars c (by simp [hcs])).1

theorem opensLine_items (column : Nat) {is : List Form} (next : List Char) (his : is ≠ [])
    (hnamed : Form.ItemsWellNamed is) : OpensLine ((listItems column is).drop column ++ next) := by
  obtain ⟨i, is, rfl⟩ := List.exists_cons_of_ne_nil his
  obtain ⟨⟨e, es, rfl⟩, -⟩ := hnamed
  rw [drop_listItems]
  intro d hd
  obtain rfl : '-' = d := by simpa using hd
  rfl

mutual

/-- Data after its name is read as its tokens, up to the line after it. -/
theorem reads_value {rest : List Char} {n : Nat} (hrest : OpensLine rest) (f : Form) (column : Nat)
    (q : Place) (b : Blocks) (hnamed : f.WellNamed) (hindent : b.indent = column + 1)
    (hq : column < q.column) (hn : n ≤ column) :
    ∃ p', p'.column = n ∧ Reads (inBlocks false (afterName column f ++ (blanks n ++ rest)) q b)
      (inBlocks true rest p' ((b.push (valueTokens f)).leave n)) := by
  -- This and the next two recurse on the data together, as the writer does.
  match f with
  | .flag v =>
    obtain ⟨hne, hplain⟩ := flagChars_plain v
    have htext : afterName column (.flag v) ++ (blanks n ++ rest) =
        ' ' :: (flagChars v ++ '\n' :: (blanks n ++ rest)) := by
      simp [afterName, flagChars]
    rw [htext]
    exact reads_plain hne hplain (by omega) (by omega) hrest
  | .number v =>
    obtain ⟨hne, hplain⟩ := numberChars_plain v
    have htext : afterName column (.number v) ++ (blanks n ++ rest) =
        ' ' :: (numberChars v ++ '\n' :: (blanks n ++ rest)) := by
      simp [afterName]
    rw [htext]
    exact reads_plain hne hplain (by omega) (by omega) hrest
  | .text s =>
    have htext : afterName column (.text s) ++ (blanks n ++ rest) =
        ' ' :: (textLine column s ++ (blanks n ++ rest)) := by
      simp [afterName]
    rw [htext]
    exact reads_text hindent hq hn hrest
  | .list [] => exact reads_empty false (by omega) hrest
  | .fields [] => exact reads_empty true (by omega) hrest
  | .list (i :: is) =>
    have htext : afterName column (.list (i :: is)) ++ (blanks n ++ rest) = '\n' :: (blanks column ++
        ((listItems column (i :: is)).drop column ++ (blanks n ++ rest))) := by
      rw [← List.append_assoc (blanks column), ← listItems_eq (by simp)]
      simp [afterName]
    obtain ⟨q', hq', hline⟩ := reads_line (k := false) (n := column) (p := q) (b := b)
      (opensLine_items column (blanks n ++ rest) (List.cons_ne_nil i is) hnamed)
    rw [Blocks.leave_of_le (by omega)] at hline
    obtain ⟨p', hp', hitems⟩ := passes_items hrest (i :: is) column q' b (by simp) hnamed hindent hq' hn
    exact ⟨p', hp', htext ▸ hline.trans hitems⟩
  | .fields (e :: es) =>
    have htext : afterName column (.fields (e :: es)) ++ (blanks n ++ rest) =
        '\n' :: (blanks (column + 2) ++ ((entryLines (column + 2) (e :: es)).drop (column + 2) ++
          (blanks n ++ rest))) := by
      rw [← List.append_assoc (blanks (column + 2)), ← entryLines_eq (by simp)]
      simp [afterName]
    obtain ⟨q', hq', hline⟩ := reads_line (k := false) (n := column + 2) (p := q) (b := b)
      (opensLine_entries (column + 2) (blanks n ++ rest) (List.cons_ne_nil e es) hnamed)
    rw [Blocks.leave_of_le (by omega)] at hline
    obtain ⟨p', hp', hentries⟩ := passes_entries hrest (e :: es) (column + 2) q' b (by simp) hnamed
      (by omega) hq' (show n ≤ column + 2 by omega)
    rw [Blocks.leave_enter (by omega) (by omega)] at hentries
    exact ⟨p', hp', htext ▸ hline.trans hentries⟩

theorem passes_entries {rest : List Char} {n : Nat} (hrest : OpensLine rest)
    (es : List (String × Form)) (column : Nat) (p : Place) (b : Blocks) (hes : es ≠ [])
    (hnamed : Form.EntriesWellNamed es) (hb : b.indent ≤ column + 1) (hp : p.column = column)
    (hn : n ≤ column) :
    ∃ p', p'.column = n ∧
      Passes (inBlocks true ((entryLines column es).drop column ++ (blanks n ++ rest)) p b)
        (inBlocks true rest p' (((b.enter column).push (entryTokens es)).leave n)) := by
  match es with
  | [] => exact absurd rfl hes
  | (name, f) :: es =>
    obtain ⟨hname, hf, hmore⟩ := hnamed
    have hindent (ts : List Token) : ((b.enter column).push ts).indent = column + 1 :=
      Blocks.enter_indent hb
    rw [drop_entryLines]
    match es with
    | [] =>
      have htext : name.toList ++ ':' :: (afterName column f ++ entryLines column []) ++
          (blanks n ++ rest) = name.toList ++ ':' :: (afterName column f ++ (blanks n ++ rest)) := by
        simp [entryLines]
      obtain ⟨q, hq, hcolon⟩ := passes_name hname (atGap_afterName column f (blanks n ++ rest))
        (b := b) (p := p) (by omega)
      obtain ⟨p', hp', hvalue⟩ := reads_value hrest f column q _ hf (hindent _) (by omega) hn
      have htokens : [.key, .scalar .plain name.toList, .value] ++ valueTokens f =
          entryTokens [(name, f)] := by simp [entryTokens]
      rw [hp] at hcolon
      rw [Blocks.push_push, htokens] at hvalue
      exact ⟨p', hp', htext ▸ hcolon _ hvalue⟩
    -- The value ends at the next entry, which stands at the same column.
    | e :: es =>
      have htext : name.toList ++ ':' :: (afterName column f ++ entryLines column (e :: es)) ++
          (blanks n ++ rest) = name.toList ++ ':' :: (afterName column f ++ (blanks column ++
            ((entryLines column (e :: es)).drop column ++ (blanks n ++ rest)))) := by
        rw [← List.append_assoc (blanks column), ← entryLines_eq (by simp)]
        simp
      obtain ⟨q, hq, hcolon⟩ := passes_name hname (atGap_afterName column f (blanks column ++
        ((entryLines column (e :: es)).drop column ++ (blanks n ++ rest)))) (b := b) (p := p) (by omega)
      obtain ⟨q', hq', hvalue⟩ := reads_value (n := column) (opensLine_entries column (blanks n ++ rest)
        (List.cons_ne_nil e es) hmore) f column q _ hf (hindent _)
        (by omega) (Nat.le_refl _)
      rw [hp] at hcolon
      rw [Blocks.push_push, Blocks.leave_of_le (Nat.le_of_eq (hindent _))] at hvalue
      obtain ⟨p', hp', hentries⟩ := passes_entries hrest (e :: es) column q'
        ((b.enter column).push ([.key, .scalar .plain name.toList, .value] ++ valueTokens f)) (by simp)
        hmore (Nat.le_of_eq (hindent _)) hq' hn
      have htokens : [.key, .scalar .plain name.toList, .value] ++ valueTokens f ++
          entryTokens (e :: es) = entryTokens ((name, f) :: e :: es) := by simp [entryTokens]
      rw [Blocks.enter_of_eq (hindent _), Blocks.push_push, htokens] at hentries
      exact ⟨p', hp', htext ▸ hcolon _ (hvalue.trans hentries)⟩

theorem passes_items {rest : List Char} {n : Nat} (hrest : OpensLine rest) (is : List Form)
    (column : Nat) (p : Place) (b : Blocks) (his : is ≠ []) (hnamed : Form.ItemsWellNamed is)
    (hindent : b.indent = column + 1) (hp : p.column = column) (hn : n ≤ column) :
    ∃ p', p'.column = n ∧
      Passes (inBlocks true ((listItems column is).drop column ++ (blanks n ++ rest)) p b)
        (inBlocks true rest p' ((b.push (itemTokens is)).leave n)) := by
  match is with
  | [] => exact absurd rfl his
  | .fields [] :: _ | .flag _ :: _ | .number _ :: _ | .text _ :: _ | .list _ :: _ =>
    obtain ⟨⟨e, es, ⟨⟩⟩, -⟩ := hnamed
  | .fields (e :: es) :: is =>
    obtain ⟨-, hnamed, hmore⟩ := hnamed
    rw [drop_listItems]
    match is with
    | [] =>
      have htext : '-' :: ' ' :: ((entryLines (column + 2) (e :: es)).drop (column + 2) ++
          listItems column []) ++ (blanks n ++ rest) = '-' :: ' ' ::
          ((entryLines (column + 2) (e :: es)).drop (column + 2) ++ (blanks n ++ rest)) := by
        simp [listItems]
      have htokens : [.entry] ++ (.blockMapping :: entryTokens (e :: es) ++ [.blockEnd]) =
          itemTokens [.fields (e :: es)] := by simp [itemTokens, valueTokens]
      obtain ⟨p', hp', hentries⟩ := passes_entries hrest (e :: es) (column + 2) (p.skip 2)
        (b.push [.entry]) (by simp) hnamed (by simp only [Blocks.push]; omega)
        (by simp only [Place.skip]; omega) (show n ≤ column + 2 by omega)
      rw [Blocks.leave_enter (by simp only [Blocks.push]; omega) (by omega), Blocks.push_push, htokens]
        at hentries
      exact ⟨p', hp', htext ▸ passes_dash (by omega) (opensLine_entries _ _ (by simp) hnamed) hentries⟩
    -- The next dash closes the mapping but not the list.
    | i :: is =>
      have htext : '-' :: ' ' :: ((entryLines (column + 2) (e :: es)).drop (column + 2) ++
          listItems column (i :: is)) ++ (blanks n ++ rest) = '-' :: ' ' ::
          ((entryLines (column + 2) (e :: es)).drop (column + 2) ++ (blanks column ++
            ((listItems column (i :: is)).drop column ++ (blanks n ++ rest)))) := by
        rw [← List.append_assoc (blanks column), ← listItems_eq (by simp)]
        simp
      have htokens : [.entry] ++ (.blockMapping :: entryTokens (e :: es) ++ [.blockEnd]) ++
          itemTokens (i :: is) = itemTokens (.fields (e :: es) :: i :: is) := by
        simp [itemTokens, valueTokens]
      obtain ⟨q', hq', hentries⟩ := passes_entries (n := column) (opensLine_items column (blanks n ++ rest)
        (List.cons_ne_nil i is) hmore) (e :: es) (column + 2) (p.skip 2)
        (b.push [.entry]) (by simp) hnamed (by simp only [Blocks.push]; omega)
        (by simp only [Place.skip]; omega) (by omega)
      rw [Blocks.leave_enter (by simp only [Blocks.push]; omega) (by omega), Blocks.push_push,
        Blocks.leave_of_le (by simp only [Blocks.push]; omega)] at hentries
      obtain ⟨p', hp', hitems⟩ := passes_items hrest (i :: is) column q' (b.push ([.entry] ++
        (.blockMapping :: entryTokens (e :: es) ++ [.blockEnd]))) (by simp) hmore hindent hq' hn
      rw [Blocks.push_push, htokens] at hitems
      exact ⟨p', hp', htext ▸ passes_dash (by omega) (opensLine_entries _ _ (by simp) hnamed)
        (hentries.trans hitems)⟩

end

/-! ## Whole documents -/

theorem isAllowed_of_isPrintable {c : Char} (h : isPrintable c) : isAllowed c := by
  simp only [isPrintable, Bool.or_eq_true, Bool.and_eq_true, decide_eq_true_eq, beq_iff_eq] at h
  simp only [isAllowed, Bool.or_eq_true, Bool.and_eq_true, decide_eq_true_eq, beq_iff_eq]
  omega

theorem all_isAllowed {cs : List Char} (h : ∀ c ∈ cs, isPrintable c) : cs.all isAllowed :=
  List.all_eq_true.mpr fun c hc => isAllowed_of_isPrintable (h c hc)

@[simp] theorem all_blanks (n : Nat) : (blanks n).all isAllowed :=
  List.all_eq_true.mpr fun c hc => by rw [(List.mem_replicate.mp hc).2]; rfl

theorem all_indented {indent : Nat} {write : Char → List Char} {cs : List Char} {fresh : Bool}
    (hcs : cs.all isAllowed) (hwrite : ∀ c, isAllowed c → (write c).all isAllowed) :
    (indented indent write fresh cs).all isAllowed := by
  induction cs generalizing fresh with
  | nil => rfl
  | cons c cs ih =>
    simp only [List.all_cons, Bool.and_eq_true] at hcs
    rw [indented]
    split
    · simp [hcs.1, ih hcs.2]
    · cases fresh <;> simp [hwrite c hcs.1, ih hcs.2]

theorem all_escapeChar (c : Char) : (escapeChar c).all isAllowed := by
  have hdigit : ∀ n < 16, isAllowed (Nat.digitChar n).toUpper := by decide
  have hhex (width n : Nat) : (hexDigits width n).all isAllowed := by
    refine List.all_eq_true.mpr fun d hd => ?_
    obtain ⟨k, -, rfl⟩ := List.mem_map.mp hd
    exact hdigit _ (Nat.mod_lt _ (by decide))
  unfold escapeChar
  split
  case h_16 =>
    split
    next => simp [hhex]; rfl
    next =>
      split
      next => simp [hhex]; rfl
      next => simp [hhex]; rfl
  all_goals rfl

theorem all_textLine (indent : Nat) (s : String) : (textLine indent s).all isAllowed := by
  have hprintable (h : (Traits.of s.toList).special = false) : ∀ c ∈ s.toList, isPrintable c :=
    fun c hc => by simpa using List.any_eq_false.mp h c hc
  have hnewline : isAllowed '\n' := rfl
  unfold textLine
  rcases styleOf_cases s with ⟨hstyle, -, hplain⟩ | ⟨hstyle, -, hsingle⟩ | ⟨hstyle, -, hprint⟩ | hstyle
  · rw [hstyle]
    simp only [Traits.plain, Bool.not_eq_true', Bool.or_eq_false_iff] at hplain
    simp [List.all_append, all_isAllowed (hprintable hplain.1.2), hnewline]
  · rw [hstyle]
    simp only [Traits.single, Bool.not_eq_true', Bool.or_eq_false_iff] at hsingle
    have hquote (c : Char) (hc : isAllowed c) : (singleChar c).all isAllowed := by
      unfold singleChar
      split
      · rfl
      · simp [hc]
    have hmark : isAllowed '\'' := rfl
    cases hlast : s.toList.getLast?.any isBreak <;>
      simp [singleQuoted_eq, List.all_append, hnewline, hmark, hlast,
        all_indented (all_isAllowed (hprintable hsingle.2)) hquote]
  · rw [hstyle]
    have hlines : (indented (indent + 2) (fun c => [c]) true s.toList).all isAllowed :=
      all_indented (all_isAllowed hprint) fun c hc => by simp [hc]
    have hheader : (literalHeader s.toList).all isAllowed := by
      rw [literalHeader_eq]
      cases needsHint s.toList <;> cases chomping s.toList <;> rfl
    cases hlast : s.toList.getLast?.any isBreak <;>
      simp [List.all_append, hlines, hheader, hnewline, hlast]
  · rw [hstyle]
    have hescaped : (s.toList.flatMap doubleChar).all isAllowed := by
      rw [List.all_flatMap]
      refine List.all_eq_true.mpr fun c _ => ?_
      unfold doubleChar
      split
      next => simp [all_escapeChar]; rfl
      next h =>
        simp only [Bool.not_eq_true, Bool.or_eq_false_iff, Bool.not_eq_false'] at h
        simp [isAllowed_of_isPrintable h.1.1.1]
    have hmark : isAllowed '"' := rfl
    simp [doubleQuoted_eq, List.all_append, hescaped, hnewline, hmark]

mutual

theorem all_afterName (column : Nat) (f : Form) (hnamed : f.WellNamed) :
    (afterName column f).all isAllowed := by
  have hnewline : isAllowed '\n' := rfl
  have hspace : isAllowed ' ' := rfl
  match f with
  | .flag v => cases v <;> rfl
  | .number v =>
    have hchars : (numberChars v).all isAllowed :=
      all_isAllowed fun c hc => by
        have hplain := (numberChars_plain v).2
        simp only [Traits.plain, Bool.not_eq_true', Bool.or_eq_false_iff] at hplain
        simpa using List.any_eq_false.mp hplain.1.2 c hc
    simp [afterName, List.all_append, hchars, hnewline, hspace]
  | .text s => simp [afterName, all_textLine, hspace]
  | .list [] | .fields [] => rfl
  | .list (i :: is) =>
    have his := all_listItems column (i :: is) hnamed
    simp only [afterName, List.all_cons, hnewline, his, Bool.and_self]
  | .fields (e :: es) =>
    have hes := all_entryLines (column + 2) (e :: es) hnamed
    simp only [afterName, List.all_cons, hnewline, hes, Bool.and_self]

theorem all_entryLines (column : Nat) (es : List (String × Form))
    (hnamed : Form.EntriesWellNamed es) : (entryLines column es).all isAllowed := by
  match es with
  | [] => rfl
  | (name, f) :: es =>
    obtain ⟨⟨-, -, hchars⟩, hf, hmore⟩ := hnamed
    have hname : name.toList.all isAllowed :=
      all_isAllowed fun c hc => isPrintable_of_isWord (hchars c hc).1
    have hcolon : isAllowed ':' := rfl
    simp only [entryLines, List.all_append, List.all_cons, all_blanks, hname, hcolon,
      all_afterName column f hf, all_entryLines column es hmore, Bool.and_self]

theorem all_listItems (column : Nat) (is : List Form) (hnamed : Form.ItemsWellNamed is) :
    (listItems column is).all isAllowed := by
  match is with
  | [] => rfl
  | .fields [] :: _ | .flag _ :: _ | .number _ :: _ | .text _ :: _ | .list _ :: _ =>
    obtain ⟨⟨e, es, ⟨⟩⟩, -⟩ := hnamed
  | .fields (e :: es) :: is =>
    obtain ⟨-, hnamed, hmore⟩ := hnamed
    have hentries := all_entryLines (column + 2) (e :: es) hnamed
    have hdash : isAllowed '-' := rfl
    have hspace : isAllowed ' ' := rfl
    rw [entryLines_eq (by simp), List.all_append, Bool.and_eq_true] at hentries
    rw [listItems_eq (by simp), drop_listItems]
    simp only [List.all_append, List.all_cons, all_blanks, hdash, hspace, hentries.2,
      all_listItems column is hmore, Bool.and_self]

end

end Scanner

/-- The tokens of a document that holds some data. -/
theorem scan_yaml {e : String × Form} {es : List (String × Form)}
    (hnamed : (Form.fields (e :: es)).WellNamed) :
    Token.scan (Form.fields (e :: es)).yaml.toList =
      some (valueTokens (.fields (e :: es)) ++ [.streamEnd]) := by
  have hlines : (entryLines 0 (e :: es)).drop 0 ++ (blanks 0 ++ []) = entryLines 0 (e :: es) := by
    simp [blanks]
  have hopens : OpensLine (entryLines 0 (e :: es)) := by
    have h := Scanner.opensLine_entries 0 [] (List.cons_ne_nil e es) hnamed
    simpa using h
  have hnothing : OpensLine [] := by rintro _ ⟨⟩
  obtain ⟨p, -, hpasses⟩ := Scanner.passes_entries (n := 0) hnothing (e :: es) 0 {} ⟨[], 0, []⟩
    (by simp) hnamed (by simp) rfl (by simp)
  rw [hlines, Blocks.leave_of_le (b := (Blocks.enter ⟨[], 0, []⟩ 0).push _) (Nat.le_refl 1)] at hpasses
  have hreads := (Scanner.reads_here (p := {}) (b := ⟨[], 0, []⟩) hopens).trans hpasses
  have hrun := Scanner.run_of_reads hreads rfl (Nat.le_refl _)
  have hall := Scanner.all_entryLines 0 (e :: es) hnamed
  rw [Form.yaml, String.toList_ofList, Token.scan, if_pos hall]
  refine (congrArg (Option.map _) hrun).trans ?_
  simp [Scanner.scanEnd, Scanner.closeBlocks, Scanner.closeBlocks.go, Scanner.inBlocks,
    Scanner.inFlow, Blocks.push, Blocks.enter, Scanner.dropCandidate, Scanner.emit, valueTokens]

end Yaml

end PoolKeeper
