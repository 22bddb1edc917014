import PoolKeeper.Proofs.ConfigForm
import PoolKeeper.Yaml.Value

/-!
# `PoolKeeper/Proofs/Yaml/Standing.lean` — what written data stands for by itself

A reader that does not know what is wanted takes a document for what it stands for. Data that was written
stands for itself (`Value.ofNode_formNode`): a text is written plain only if it does not look like anything
else, so a text that looks like a number, a truth value or null comes back as a text. It has to be within
what such a reader takes in (`Form.Modest`), which is as deep as collections may stand inside each other
and as large as numbers may be.

The values hold the data (`Value.holds_ofForm`), so whatever is read from such a source is read from them.
-/

set_option autoImplicit false

namespace PoolKeeper

open Text

mutual

/-- Collections stand at most so deep inside each other, numbers are counts of at most 64 bits, and names
look like texts. There are no lists in what is handed over in this way. -/
def Form.Modest : (depth : Nat) → Form → Prop
  | _, .flag _ | _, .text _ => True
  | _, .number n => 0 ≤ n ∧ n < Word.size 64
  | _, .list _ => False
  | 0, .fields _ => False
  | depth + 1, .fields entries => Form.EntriesModest depth entries

@[inherit_doc Form.Modest]
def Form.EntriesModest : (depth : Nat) → List (String × Form) → Prop
  | _, [] => True
  | depth, (name, f) :: es =>
    Yaml.PlainKind.ofText name = .text ∧ f.Modest depth ∧ Form.EntriesModest depth es

end

namespace Yaml

/-! ## Plain scalars -/

theorem plainKind_decimal {n : Nat} (hn : Word.holds 128 n) :
    PlainKind.ofText (String.ofList (decimal n)) = .natural n := by
  have hflag : flagOfText? (String.ofList (decimal n)) = none := by
    have hother {s : String} (c : Char) (hc : c ∈ s.toList) (hdigit : c.isDigit = false) :
        String.ofList (decimal n) ≠ s := decimal_ne n (.inl ⟨c, hc, hdigit⟩)
    simp only [flagOfText?, Bool.or_eq_true, decide_eq_true_eq]
    rw [if_neg, if_neg]
    · rintro ((h | h) | h)
      · exact hother 'f' (by decide) rfl h
      · exact hother 'F' (by decide) rfl h
      · exact hother 'F' (by decide) rfl h
    · rintro ((h | h) | h)
      · exact hother 't' (by decide) rfl h
      · exact hother 'T' (by decide) rfl h
      · exact hother 'T' (by decide) rfl h
  unfold PlainKind.ofText
  rw [decimal_not_null n, if_neg Bool.false_ne_true, hflag, naturalOfText?_decimal]
  exact if_pos hn

namespace Value

theorem ofScalar?_name {s : String} (h : PlainKind.ofText s = .text) :
    ofScalar? none .plain s = some (.text s) := by
  change ofPlain? s = _
  rw [ofPlain?, h]

theorem ofScalar?_flag (b : Bool) :
    ofScalar? none .plain (String.ofList (Scanner.flagChars b)) = some (.flag b) := by
  cases b <;> rfl

theorem ofScalar?_decimal {n : Nat} (hn : n < Word.size 64) :
    ofScalar? none .plain (String.ofList (decimal n)) = some (.natural n) := by
  have hsize : Word.size 64 ≤ Word.size 128 := by decide
  change ofPlain? _ = _
  rw [ofPlain?, plainKind_decimal (decide_eq_true (Nat.lt_of_lt_of_le hn hsize))]
  exact if_pos (decide_eq_true hn)

/-- However a text is written, it stands for itself. -/
theorem ofScalar?_text (s : String) : ofScalar? none (styleOf s) s = some (.text s) := by
  cases hstyle : styleOf s with
  | plain => exact ofScalar?_name (styleOf_plain hstyle)
  | _ => rfl

/-! ## Data -/

mutual

/-- What data stands for. -/
def ofForm : Form → Value
  | .flag b => .flag b
  | .number n => if n < 0 then .negative n else .natural n.toNat
  | .text s => .text s
  | .list items => .list (ofItems items)
  | .fields entries => .mapping (ofEntries entries)

def ofEntries : List (String × Form) → List (Value × Value)
  | [] => []
  | (name, f) :: es => (.text name, ofForm f) :: ofEntries es

def ofItems : List Form → List Value
  | [] => []
  | i :: is => ofForm i :: ofItems is

end

variable {d : Document}

theorem ofNode_scalar {tag : Option String} {style : Style} {s : String} {v : Value}
    (h : ofScalar? tag style s = some v) (depth left : Nat) :
    (ofNode d depth (.scalar tag style s)).run left = some (v, left) := by
  cases depth <;> simp [ofNode, follow, h]

mutual

/-- The node of data that was written stands for the data, and follows no alias. -/
theorem ofNode_formNode (f : Form) (depth left : Nat) (h : f.Modest depth) :
    (ofNode d depth (formNode f)).run left = some (ofForm f, left) := by
  match f, depth with
  | .flag b, depth => exact ofNode_scalar (ofScalar?_flag b) depth left
  | .text s, depth => exact ofNode_scalar (ofScalar?_text s) depth left
  | .number n, depth =>
    obtain ⟨hpos, hsize⟩ := h
    obtain ⟨k, rfl⟩ := Int.eq_ofNat_of_zero_le hpos
    have hchars : numberChars (k : Int) = decimal k := by simp [numberChars]
    have hvalue : ofForm (.number k) = .natural k := by simp [ofForm]
    rw [formNode, hchars, hvalue]
    exact ofNode_scalar (ofScalar?_decimal (by exact_mod_cast hsize)) depth left
  | .fields entries, depth + 1 =>
    have hentries := mapM_entryNodes entries depth left h
    rw [formNode, ofNode, StateT.run_bind]
    change (_ >>= fun values => pure (Value.mapping values) : StateT Nat Option Value).run left = _
    rw [StateT.run_bind, hentries]
    rfl

theorem mapM_entryNodes (es : List (String × Form)) (depth left : Nat) (h : Form.EntriesModest depth es) :
    ((entryNodes es).mapM fun (key, value) => do
      return (← ofNode d depth key, ← ofNode d depth value)).run left = some (ofEntries es, left) := by
  match es with
  | [] => rfl
  | (name, f) :: es =>
    obtain ⟨hname, hf, hmore⟩ := h
    have hkey : (ofNode d depth (.scalar none .plain name)).run left = some (.text name, left) :=
      ofNode_scalar (ofScalar?_name hname) depth left
    have hvalue := ofNode_formNode f depth left hf
    have hrest := mapM_entryNodes es depth left hmore
    have hentry : (do
        return (← ofNode d depth (.scalar none .plain name), ← ofNode d depth (formNode f)) :
        StateT Nat Option (Value × Value)).run left = some ((.text name, ofForm f), left) := by
      simp only [StateT.run_bind, hkey, hvalue, Option.bind_eq_bind, Option.bind_some]
      rfl
    rw [entryNodes, List.mapM_cons, StateT.run_bind, hentry, Option.bind_eq_bind, Option.bind_some,
      StateT.run_bind, hrest]
    rfl

end

theorem fields?_ofEntries (names : List String) (es : List (String × Form)) :
    fields? names (.mapping (ofEntries es)) = some (Source.entriesOf ofForm es) := by
  have hnamed {name? : Value × Value → Option (Option (String × Value))}
      (h : ∀ name f, name? (.text name, ofForm f) = some (some (name, ofForm f))) :
      (ofEntries es).mapM name? = some ((Source.entriesOf ofForm es).map some) := by
    induction es with
    | nil => rfl
    | cons e es ih =>
      rw [ofEntries, List.mapM_cons, ih, h]
      rfl
  rw [fields?, hnamed fun _ _ => rfl]
  simp

theorem holds_ofForm : Source.Holds ofForm where
  text _ := rfl
  flag _ := rfl
  natural {n} _ := by
    have hvalue : ofForm (.number n) = .natural n := by simp [ofForm]
    rw [hvalue]
    rfl
  fields := fields?_ofEntries
  textThere _ := rfl
  numberThere n := by
    have hvalue : ofForm (.number n) = .natural n := by simp [ofForm]
    rw [hvalue]
    rfl
  fieldsThere _ := rfl

/-! ## The kind and the rest -/

/-- The field that gives the kind is the first, and none of the others has its name. -/
theorem splitKind_entryNodes {name kind : String} {es : List (String × Form)}
    (hname : PlainKind.ofText name = .text) (hes : Form.EntriesModest (maxDepth - 1) es)
    (hothers : ∀ e ∈ es, e.1 ≠ name) (left : Nat) :
    (splitKind d name (entryNodes ((name, .text kind) :: es))).run left =
      some ((some kind, ofEntries es), left) := by
  have hrest : (splitKind d name (entryNodes es)).run left = some ((none, ofEntries es), left) := by
    induction es with
    | nil => rfl
    | cons e es ih =>
      obtain ⟨other, f⟩ := e
      obtain ⟨hother, hf, hmore⟩ := hes
      rw [List.forall_mem_cons] at hothers
      have hkey := ofNode_scalar (d := d) (ofScalar?_name hother) (maxDepth - 1) left
      have hvalue := ofNode_formNode (d := d) f (maxDepth - 1) left hf
      have hne : other ≠ name := hothers.1
      rw [entryNodes, splitKind, StateT.run_bind, hkey]
      simp only [Option.bind_eq_bind, Option.bind_some, if_neg hne, StateT.run_bind, hvalue,
        ih hmore hothers.2, StateT.run_pure]
      rfl
  have hkey := ofNode_scalar (d := d) (ofScalar?_name hname) (maxDepth - 1) left
  have hkind : (kindText d (.scalar none (styleOf kind) kind)).run left = some (kind, left) := rfl
  rw [entryNodes, formNode, splitKind, StateT.run_bind, hkey]
  simp only [Option.bind_eq_bind, Option.bind_some, if_true, StateT.run_bind, hkind, hrest]
  rfl

/-- A mapping in which no field has the name gives no kind. -/
theorem splitKind_other {name : String} {es : List (String × Form)}
    (hes : ∀ e ∈ es, PlainKind.ofText e.1 = .text ∧ e.1 ≠ name) {left left' : Nat}
    {kind : Option String} {rest : List (Value × Value)}
    (h : (splitKind d name (entryNodes es)).run left = some ((kind, rest), left')) : kind = none := by
  induction es generalizing left left' kind rest with
  | nil =>
    cases h
    rfl
  | cons e es ih =>
    obtain ⟨other, f⟩ := e
    rw [List.forall_mem_cons] at hes
    obtain ⟨⟨hother, hne⟩, hmore⟩ := hes
    have hkey := ofNode_scalar (d := d) (ofScalar?_name hother) (maxDepth - 1) left
    have hne' : other ≠ name := hne
    rw [entryNodes, splitKind, StateT.run_bind, hkey] at h
    simp only [Option.bind_eq_bind, Option.bind_some, if_neg hne', StateT.run_bind,
      Option.bind_eq_some_iff] at h
    obtain ⟨⟨value, left₁⟩, -, ⟨⟨found, more⟩, left₂⟩, hsplit, hresult⟩ := h
    cases hresult
    exact ih hmore hsplit

/-- The kind is read back, and so is what the other fields stand for. -/
theorem readKinded?_yaml {name kind : String} {es : List (String × Form)}
    (hnamed : (Form.fields ((name, .text kind) :: es)).WellNamed) (hname : PlainKind.ofText name = .text)
    (hes : Form.EntriesModest (maxDepth - 1) es) (hothers : ∀ e ∈ es, e.1 ≠ name) :
    readKinded? name (Form.fields ((name, .text kind) :: es)).yaml =
      some (kind, .mapping (ofEntries es)) := by
  obtain ⟨size, hdocument⟩ := ofText?_yaml hnamed
  let d : Document := { root := some (formNode (.fields ((name, .text kind) :: es))), size }
  have hsplit : (splitKind d name (entryNodes ((name, .text kind) :: es))).run (100 * size) =
      some ((some kind, ofEntries es), 100 * size) := splitKind_entryNodes hname hes hothers _
  have hkinded : (kinded d name).run (100 * size) =
      some ((kind, .mapping (ofEntries es)), 100 * size) := by
    change (splitKind d name _ >>= _).run (100 * size) = _
    rw [StateT.run_bind, hsplit]
    rfl
  rw [readKinded?, hdocument, Option.bind_eq_bind, Option.bind_some, hkinded]
  rfl

/-- What has no kind is refused. -/
theorem readKinded?_other {name : String} {e : String × Form} {es : List (String × Form)}
    (hnamed : (Form.fields (e :: es)).WellNamed)
    (hes : ∀ e' ∈ e :: es, PlainKind.ofText e'.1 = .text ∧ e'.1 ≠ name) :
    readKinded? name (Form.fields (e :: es)).yaml = none := by
  obtain ⟨size, hdocument⟩ := ofText?_yaml hnamed
  let d : Document := { root := some (formNode (.fields (e :: es))), size }
  have hkinded : (kinded d name).run (100 * size) = none := by
    change (splitKind d name (entryNodes (e :: es)) >>= _).run (100 * size) = _
    rw [StateT.run_bind]
    rcases hsplit : (splitKind d name (entryNodes (e :: es))).run (100 * size) with
      _ | ⟨⟨kind, rest⟩, left⟩
    · rfl
    · cases splitKind_other hes hsplit
      rfl
  rw [readKinded?, hdocument, Option.bind_eq_bind, Option.bind_some, hkinded]
  rfl

end Value

end Yaml

end PoolKeeper
