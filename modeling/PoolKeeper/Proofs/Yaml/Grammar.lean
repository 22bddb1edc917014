import PoolKeeper.Proofs.Yaml.Lines
import PoolKeeper.Yaml.Node

/-!
# `PoolKeeper/Proofs/Yaml/Grammar.lean` — tokens as nodes

`formNode` is the node of some data, and the tokens of the data build it (`ofText?_yaml`). The builder has
fuel, and the tokens that are left are more than enough of it.
-/

set_option autoImplicit false

namespace PoolKeeper.Yaml

mutual

/-- The node of data in a document. -/
def formNode : Form → Node
  | .flag b => .scalar none .plain (String.ofList (Scanner.flagChars b))
  | .number n => .scalar none .plain (String.ofList (numberChars n))
  | .text s => .scalar none (styleOf s) s
  | .list items => .sequence none (itemNodes items)
  | .fields entries => .mapping none (entryNodes entries)

def entryNodes : List (String × Form) → List (Node × Node)
  | [] => []
  | (name, f) :: es => (.scalar none .plain name, formNode f) :: entryNodes es

def itemNodes : List Form → List Node
  | [] => []
  | i :: is => formNode i :: itemNodes is

end

/-- The draft with these tokens still to come, and so many starts and ends of nodes. -/
def Draft.at (d : Draft) (tokens : List Token) (size : Nat) : Draft := { d with tokens, size }

namespace Build

variable {α β : Type} {d : Draft} {ts : List Token} {n : Nat}

theorem run_bind (x : Build α) (f : α → Build β) (d : Draft) :
    (x >>= f).run d = (x.run d).bind fun p => (f p.1).run p.2 := rfl

@[simp] theorem run_peek : peek.run (d.at ts n) = some (ts.head?, d.at ts n) := rfl

@[simp] theorem run_next : next.run (d.at ts n) = some ((), d.at (ts.drop 1) n) := rfl

@[simp] theorem run_count (k : Nat) : (count k).run (d.at ts n) = some ((), d.at ts (n + k)) := rfl

@[simp] theorem run_atOne (stops : List Token) :
    (atOne stops).run (d.at ts n) = some (ts.head?.any stops.contains, d.at ts n) := rfl

/-- A token before which no anchor and no tag can stand. -/
def IsBare : Token → Prop
  | .anchor _ | .tag .. | .alias _ => False
  | _ => True

theorem run_properties {t : Token} (ht : IsBare t) :
    properties.run (d.at (t :: ts) n) = some ((none, none), d.at (t :: ts) n) := by
  cases t <;> first | exact ht.elim | rfl

@[simp] theorem run_tagText : (tagText none).run d = some (none, d) := rfl

@[simp] theorem run_startAnchor : (startAnchor none).run d = some (none, d) := rfl

@[simp] theorem endAnchor_none (node : Node) : endAnchor none node = pure node := rfl

theorem node_scalar {fuel : Nat} {block bare : Bool} {style : Style} {text : List Char} :
    (node (fuel + 1) block bare).run (d.at (.scalar style text :: ts) n) =
      some (.scalar none style (String.ofList text), d.at ts (n + 1)) := by
  rw [node, run_bind, run_peek]
  simp only [List.head?_cons, Option.bind_some]
  rw [run_bind, run_properties (by trivial)]
  simp

/-- No value starts as if its place were empty. -/
theorem exists_valueTokens (f : Form) :
    ∃ t ts, valueTokens f = t :: ts ∧ t ∉ blockStops := by
  unfold valueTokens
  split
  case h_5 i is => exact ⟨_, _, rfl, by simp [blockStops]⟩
  all_goals exact ⟨_, _, rfl, by simp [blockStops]⟩

theorem node_empty {fuel : Nat} {bare : Bool} (mapping : Bool) :
    (node (fuel + 2) true bare).run (d.at ((Scanner.emptyTokens mapping).1 ::
        (Scanner.emptyTokens mapping).2 :: ts) n) =
      some (if mapping then .mapping none [] else .sequence none [], d.at ts (n + 1 + 1)) := by
  rw [node, run_bind, run_peek]
  cases mapping
  all_goals
    simp only [Scanner.emptyTokens, Bool.false_eq_true, if_false, if_true, List.head?_cons,
      Option.bind_some]
    rw [run_bind, run_properties (by trivial)]
    simp [bracketItems, braceEntries]

mutual

/-- The tokens of data are put together to its node. -/
theorem node_value (f : Form) (fuel n : Nat) (bare : Bool) (ts : List Token) (hnamed : f.WellNamed)
    (hfuel : 2 * (valueTokens f).length ≤ fuel)
    (hbare : bare = true ∧ ts.head? ≠ some .entry ∨ ∃ es, f = .fields es) :
    ∃ n', (node fuel true bare).run (d.at (valueTokens f ++ ts) n) =
      some (formNode f, d.at ts n') := by
  -- Data has at least one token, and there are two rounds of fuel for each.
  obtain ⟨fuel, rfl⟩ : ∃ more, fuel = more + 2 := by
    obtain ⟨t, more, hvalue, -⟩ := exists_valueTokens f
    rw [hvalue, List.length_cons] at hfuel
    exact ⟨fuel - 2, by omega⟩
  match f with
  | .flag v => exact ⟨_, node_scalar⟩
  | .number v => exact ⟨_, node_scalar⟩
  | .text s =>
    have hs : (node (fuel + 1 + 1) true bare).run (d.at (.scalar (styleOf s) s.toList :: ts) n) = _ :=
      node_scalar
    rw [String.ofList_toList] at hs
    exact ⟨_, hs⟩
  | .list [] => exact ⟨_, node_empty false⟩
  | .fields [] => exact ⟨_, node_empty true⟩
  | .list (i :: is) =>
    obtain ⟨rfl, hnext⟩ := hbare.resolve_right (by rintro ⟨es, ⟨⟩⟩)
    obtain ⟨n', hitems⟩ := bareItems_items (i :: is) (fuel + 1) (n + 1) ts hnamed
      (by simp only [valueTokens] at hfuel; omega) (by omega) hnext
    refine ⟨n' + 1, ?_⟩
    rw [valueTokens, node, run_bind, run_peek]
    simp only [itemTokens, List.cons_append, List.append_assoc, List.head?_cons, Option.bind_some]
      at hitems ⊢
    rw [run_bind, run_properties (by trivial)]
    simp [hitems, formNode]
  | .fields (e :: es) =>
    obtain ⟨n', hentries⟩ := blockEntries_entries (e :: es) (fuel + 1) (n + 1) ts hnamed
      (by simp [valueTokens] at hfuel; omega)
    refine ⟨n' + 1, ?_⟩
    rw [valueTokens, node, run_bind, run_peek]
    simp only [List.cons_append, List.head?_cons, Option.bind_some, List.append_assoc, List.nil_append]
    rw [run_bind, run_properties (by trivial)]
    simp [hentries, formNode]

theorem blockEntries_entries (es : List (String × Form)) (fuel n : Nat) (ts : List Token)
    (hnamed : Form.EntriesWellNamed es) (hfuel : 2 * (entryTokens es).length + 1 ≤ fuel) :
    ∃ n', (blockEntries fuel).run (d.at (entryTokens es ++ .blockEnd :: ts) n) =
      some (entryNodes es, d.at ts n') := by
  match es with
  | [] =>
    obtain ⟨fuel, rfl⟩ : ∃ more, fuel = more + 1 := ⟨fuel - 1, by omega⟩
    refine ⟨n, ?_⟩
    rw [blockEntries, run_bind, run_peek]
    rfl
  | (name, f) :: es =>
    obtain ⟨-, hf, hmore⟩ := hnamed
    simp only [entryTokens, List.length_cons, List.length_append] at hfuel
    obtain ⟨fuel, rfl⟩ : ∃ more, fuel = more + 1 + 1 := ⟨fuel - 2, by omega⟩
    have hnext : (entryTokens es ++ .blockEnd :: ts).head? ≠ some .entry := by
      cases es <;> simp [entryTokens]
    have hkey : (node (fuel + 1) true true).run (d.at (.scalar .plain name.toList :: .value ::
      (valueTokens f ++ (entryTokens es ++ .blockEnd :: ts))) n) = _ := node_scalar
    obtain ⟨n₁, hvalue⟩ := node_value f (fuel + 1) (n + 1) true (entryTokens es ++ .blockEnd :: ts) hf
      (by omega) (.inl ⟨rfl, hnext⟩)
    obtain ⟨n₂, hentries⟩ := blockEntries_entries es (fuel + 1) n₁ ts hmore (by omega)
    obtain ⟨t, more, hstart, hstop⟩ := exists_valueTokens f
    refine ⟨n₂, ?_⟩
    rw [hstart] at hkey hvalue
    simp only [List.cons_append] at hkey hvalue
    rw [entryTokens, blockEntries, run_bind, run_peek, hstart]
    have hname : .scalar .plain name.toList ∉ blockStops := by simp [blockStops]
    simp [hname, hkey, hvalue, hentries, hstop, entryNodes]

theorem bareItems_items (is : List Form) (fuel n : Nat) (ts : List Token)
    (hnamed : Form.ItemsWellNamed is) (hfuel : 2 * (itemTokens is).length ≤ fuel + 1)
    (hpos : 0 < fuel) (hnext : ts.head? ≠ some .entry) :
    ∃ n', (bareItems fuel).run (d.at (itemTokens is ++ ts) n) =
      some (itemNodes is, d.at ts n') := by
  obtain ⟨fuel, rfl⟩ : ∃ more, fuel = more + 1 := ⟨fuel - 1, by omega⟩
  match is with
  | [] =>
    refine ⟨n, ?_⟩
    rw [bareItems, run_bind, run_peek, itemTokens, List.nil_append, Option.bind_some]
    dsimp only
    split
    next heq => exact absurd heq hnext
    next => rfl
  | .fields [] :: _ | .flag _ :: _ | .number _ :: _ | .text _ :: _ | .list _ :: _ =>
    obtain ⟨⟨e, es, ⟨⟩⟩, -⟩ := hnamed
  | .fields (e :: es) :: is =>
    obtain ⟨-, hf, hmore⟩ := hnamed
    have hstart : valueTokens (.fields (e :: es)) = .blockMapping :: (entryTokens (e :: es) ++
        [.blockEnd]) := rfl
    have hmapping : .blockMapping ∉ Token.entry :: blockStops := by simp [blockStops]
    have hpositive : 2 ≤ (valueTokens (.fields (e :: es))).length := by simp [hstart]
    simp only [itemTokens, List.length_cons, List.length_append] at hfuel
    obtain ⟨n₁, hitem⟩ := node_value (.fields (e :: es)) fuel n false (itemTokens is ++ ts) hf
      (by omega) (.inr ⟨_, rfl⟩)
    obtain ⟨n₂, hitems⟩ := bareItems_items is fuel n₁ ts hmore (by omega) (by omega) hnext
    refine ⟨n₂, ?_⟩
    rw [hstart] at hitem
    rw [itemTokens, bareItems, run_bind, run_peek, hstart]
    simp only [List.cons_append, List.append_assoc, List.nil_append] at hitem
    simp [hmapping, hitem, hitems, itemNodes]

end

end Build

/-- The document that holds some data. -/
theorem ofText?_yaml {e : String × Form} {es : List (String × Form)}
    (hnamed : (Form.fields (e :: es)).WellNamed) :
    ∃ size, Document.ofText? (Form.fields (e :: es)).yaml =
      some { root := some (formNode (.fields (e :: es))), size } := by
  let tokens := valueTokens (.fields (e :: es)) ++ [.streamEnd]
  let d : Draft := { tokens, handles := Build.standardHandles }
  obtain ⟨size, hnode⟩ := Build.node_value (d := d) (.fields (e :: es)) (2 * tokens.length + 2) 0 false
    [.streamEnd] hnamed (by simp [tokens]; omega) (.inr ⟨_, rfl⟩)
  refine ⟨size, ?_⟩
  have hfirst : (Build.firstDocument (2 * tokens.length + 2)).run { tokens } =
      some (some (formNode (.fields (e :: es))), d.at [.streamEnd] size) := by
    change (some <$> Build.node (2 * tokens.length + 2) true false).run d = _
    rw [StateT.run_map]
    exact congrArg (Option.map fun p => (some p.1, p.2)) hnode
  rw [Document.ofText?, scan_yaml hnamed]
  simp only [Option.bind_eq_bind, Option.bind_some, Document.ofTokens?]
  rw [hfirst]
  rfl

end PoolKeeper.Yaml
