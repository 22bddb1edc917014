import PoolKeeper.Proofs.Yaml.Values
import PoolKeeper.Record.File

/-!
# `PoolKeeper/Proofs/RecordFile.lean` — the record in its file and back

Every record can be written: its fields have proper names, and its list of snapshots holds mappings.
Whoever takes the text of the file for a record finds the slot and the progress as they were
(`Record.ofYaml?_yaml`), whatever texts stand around them.
-/

set_option autoImplicit false

namespace PoolKeeper

/-! ## What is written has proper names -/

namespace Form

theorem EntriesWellNamed.append {es es' : List (String × Form)} (h : EntriesWellNamed es)
    (h' : EntriesWellNamed es') : EntriesWellNamed (es ++ es') := by
  induction es with
  | nil => exact h'
  | cons e es ih => exact ⟨h.1, h.2.1, ih h.2.2⟩

theorem optional_wellNamed {β : Type} {name : String} {write : β → Form} (o : Option β)
    (hname : Yaml.Scanner.IsName name) (hwrite : ∀ b, (write b).WellNamed) :
    EntriesWellNamed (Form.optional name write o) := by
  cases o with
  | none => trivial
  | some b => exact ⟨hname, hwrite b, trivial⟩

theorem unlessEmpty_wellNamed {name : String} (s : String) (hname : Yaml.Scanner.IsName name) :
    EntriesWellNamed (Form.unlessEmpty name s) := by
  unfold Form.unlessEmpty
  split
  · trivial
  · exact ⟨hname, trivial, trivial⟩

end Form

instance (name : String) : Decidable (Yaml.Scanner.IsName name) :=
  decidable_of_iff ((name != "" && decide (name.length ≤ 1024) &&
    name.toList.all fun c => Yaml.isWord c && c != '-') = true)
    (by simp [Yaml.Scanner.IsName, and_assoc])

theorem Retention.form_wellNamed (p : Retention) : p.form.WellNamed := by
  refine .append (.append (.append (.append (.append ?_ ?_) ?_) ?_) ?_) ?_
  all_goals exact Form.optional_wellNamed _ (by decide) fun _ => trivial

theorem ObjectStore.form_wellNamed (o : ObjectStore) : o.form.WellNamed := by
  refine .append (.append ?_ (Form.optional_wellNamed _ (by decide) fun _ => trivial)) ?_
  · exact ⟨by decide, trivial, by decide, trivial, by decide, trivial, by decide, trivial, trivial⟩
  · split
    · exact ⟨by decide, trivial, trivial⟩
    · trivial

theorem Backend.form_wellNamed (b : Backend) : b.form.WellNamed :=
  ⟨by decide, trivial, Form.optional_wellNamed _ (by decide) ObjectStore.form_wellNamed⟩

theorem Config.form_wellNamed (c : Config) : c.form.WellNamed := by
  refine .append (.append ?_ (Form.unlessEmpty_wellNamed _ (by decide)))
    (Form.unlessEmpty_wellNamed _ (by decide))
  exact ⟨by decide, trivial, by decide, trivial, by decide, c.backend.form_wellNamed, by decide,
    c.retention.form_wellNamed, trivial⟩

theorem Snapshot.form_wellNamed (s : Snapshot) : s.form.WellNamed := by
  refine .append ?_ (Form.unlessEmpty_wellNamed _ (by decide))
  exact ⟨by decide, trivial, by decide, trivial, by decide, trivial, by decide, trivial, trivial⟩

theorem Status.form_wellNamed (s : Status) : s.form.WellNamed := by
  have hsnapshots : ∀ ss : List Snapshot, Form.ItemsWellNamed (ss.map Snapshot.form) := by
    intro ss
    induction ss with
    | nil => trivial
    | cons s ss ih => exact ⟨⟨_, _, rfl⟩, s.form_wellNamed, ih⟩
  refine .append (.append (.append (.append ?_ (Form.optional_wellNamed _ (by decide) fun _ => trivial))
    (Form.optional_wellNamed _ (by decide) fun _ => trivial)) ?_) ?_
  · exact ⟨by decide, trivial, trivial⟩
  · exact ⟨by decide, trivial, by decide, trivial, by decide, trivial, trivial⟩
  · split
    · trivial
    · exact ⟨by decide, hsnapshots _, trivial⟩

theorem Record.form_wellNamed (r : Record) : r.form.WellNamed :=
  ⟨by decide, r.config.form_wellNamed, by decide, r.status.form_wellNamed, trivial⟩

/-! ## What comes back -/

theorem Source.orElse_of_filter {α β : Type} [Source α] {fields : List (String × α)} {name : String}
    {a : α} (missing : β) (read : α → Option β) (h : fields.filter (·.1 == name) = [(name, a)]) :
    Source.orElse fields name missing read = read a := by
  rw [Source.orElse, Source.field?, h]
  rfl

theorem Form.filter_optional {α β : Type} {name name' : String} (hname : (name' == name) = false)
    (write : β → Form) (hold : Form → α) (o : Option β) :
    ((Form.optional name' write o).map fun e => (e.1, hold e.2)).filter (·.1 == name) = [] := by
  cases o with
  | none => rfl
  | some b => simpa [Form.optional] using hname

namespace Status

/-- The fields that say who holds the slot, and how far that cycle has come. -/
def slotFields (s : Status) : List (String × Form) :=
  [("in_progress", .flag s.inProgress), ("progress", .number s.progress.toNat)]

/-- The names of the other fields. -/
def otherNames : List String :=
  ["repository_connected", "last_backup", "last_backup_window", "last_status", "available_snapshots"]

theorem filter_form {α : Type} {name : String} (hname : ∀ n ∈ otherNames, (n == name) = false)
    (s : Status) (hold : Form → α) {entries : List (String × Form)} (h : s.form = .fields entries) :
    (entries.map fun e => (e.1, hold e.2)).filter (·.1 == name) =
      (s.slotFields.map fun e => (e.1, hold e.2)).filter (·.1 == name) := by
  cases h
  simp only [otherNames, List.forall_mem_cons, List.not_mem_nil, false_implies, implies_true,
    and_true] at hname
  obtain ⟨hconnected, hbackup, hwindow, hstatus, hsnapshots⟩ := hname
  simp only [List.map_append, List.filter_append, Form.filter_optional hbackup,
    Form.filter_optional hwindow]
  have hlist : ((if s.snapshots.isEmpty then [] else
      [("available_snapshots", Form.list (s.snapshots.map Snapshot.form))]).map
        fun e => (e.1, hold e.2)).filter (·.1 == name) = [] := by
    cases s.snapshots <;> simp [hsnapshots]
  rw [hlist]
  simp [slotFields, hconnected, hstatus, List.filter_cons]

open Yaml in
/-- What was written about the slot is read back. -/
theorem ofSource?_form {d : Document} {s s' : Status}
    (h : ofSource? (Piece.ofForm d s.form) = some s') :
    s'.inProgress = s.inProgress ∧ s'.progress = s.progress := by
  have hfields : Source.fields? names (Piece.ofForm d s.form) = some _ := Piece.fields?_ofForm _
  simp only [ofSource?, hfields, Option.bind_eq_bind, Option.bind_some, Option.bind_eq_some_iff] at h
  obtain ⟨_, -, _, -, _, -, _, -, busy, hbusy, progress, hprogress, _, -, h⟩ := h
  cases h
  rw [Source.orElse_of_filter _ _ (filter_form (by decide) s _ rfl), Piece.flag?_ofForm] at hbusy
  rw [Source.orElse_of_filter _ _ (filter_form (by decide) s _ rfl)] at hprogress
  have hword : Source.word? 8 (Piece.ofForm d (.number s.progress.toNat)) = some s.progress.toNat := by
    have hlt : s.progress.toNat < Word.size 8 := s.progress.toNat_lt
    have hnatural : Source.natural? (Piece.ofForm d (.number s.progress.toNat)) =
        some s.progress.toNat :=
      Piece.natural?_ofForm (decide_eq_true (Nat.lt_trans hlt (by decide)))
    rw [Source.word?, hnatural, Option.bind_eq_bind, Option.bind_some]
    exact if_pos (decide_eq_true hlt)
  rw [hword] at hprogress
  cases hbusy
  cases hprogress
  exact ⟨rfl, by simp⟩

end Status

/-- Whoever reads a state file that was written finds who holds the slot and how far that cycle has
come. -/
theorem Record.ofYaml?_yaml {r r' : Record} (h : Record.ofYaml? r.yaml = some r') :
    r'.status.inProgress = r.status.inProgress ∧ r'.status.progress = r.status.progress := by
  have hnamed : (Form.fields (("config", r.config.form) :: [("state", r.status.form)])).WellNamed :=
    r.form_wellNamed
  obtain ⟨d, hread⟩ := Yaml.read?_yaml hnamed Record.ofSource?
  rw [Record.ofYaml?, Record.yaml, Record.form, hread] at h
  have hfields : Source.fields? ["config", "state"] (Yaml.Piece.ofForm d (.fields
      [("config", r.config.form), ("state", r.status.form)])) = some _ := Yaml.Piece.fields?_ofForm _
  simp only [Record.ofSource?, hfields, Option.bind_eq_bind, Option.bind_some,
    Option.bind_eq_some_iff] at h
  obtain ⟨_, -, status, hstatus, h⟩ := h
  cases h
  exact Status.ofSource?_form ((Source.orElse_of_filter (a := Yaml.Piece.ofForm d r.status.form) _ _
    (by simp)).symm.trans hstatus)

end PoolKeeper
