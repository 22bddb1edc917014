import PoolKeeper.Proofs.ConfigForm
import PoolKeeper.Proofs.Stamp

/-!
# `PoolKeeper/Proofs/RecordText.lean` — the whole record in its file and back

A record whose instants can be written down is read back whole from the text it was saved as
(`Record.ofYaml?_yaml_eq`). What is left out of the file is what the reader puts in its place: an absent
value, an empty text, an empty list.

The pieces of a document that was written hold what was written (`Yaml.Piece.holds_ofForm`), which is all
that the configuration needs.
-/

set_option autoImplicit false

namespace PoolKeeper

open Text

/-! ## Pieces of a document that was written -/

namespace Yaml.Piece

variable {d : Document}

/-- A plain scalar is there unless it is empty or spells null. -/
theorem optional?_plain {p : Piece} {s : String}
    (hresolved : p.resolved? = some (some (.scalar none .plain s)))
    (hnull : (s = "" || isNullText s) = false) : Source.optional? p = some (some p) := by
  change p.optional? = _
  simp only [Piece.optional?, hresolved, Option.bind_eq_bind, Option.bind_some, hnull,
    Bool.false_eq_true, if_false]

/-- A text that was written is there. -/
theorem optional?_text (s : String) :
    Source.optional? (ofForm d (.text s)) = some (some (ofForm d (.text s))) := by
  have hresolved : (ofForm d (.text s)).resolved? = some (some (.scalar none (styleOf s) s)) := rfl
  cases hstyle : styleOf s with
  | plain =>
    have hnull : (s = "" || isNullText s) = false := by
      have hkind := styleOf_plain hstyle
      unfold PlainKind.ofText at hkind
      split at hkind
      next => cases hkind
      next h => simpa using h
    exact optional?_plain (hstyle ▸ hresolved) hnull
  | _ =>
    change Piece.optional? _ = _
    rw [Piece.optional?, hresolved, hstyle]
    rfl

/-- A number that was written is there. -/
theorem optional?_number (n : Nat) :
    Source.optional? (ofForm d (.number n)) = some (some (ofForm d (.number n))) := by
  have hchars : numberChars (n : Int) = decimal n := by simp [numberChars]
  have hresolved : (ofForm d (.number n)).resolved? =
      some (some (.scalar none .plain (String.ofList (decimal n)))) := by
    rw [← hchars]
    rfl
  exact optional?_plain hresolved (decimal_not_null n)

theorem integerOfText?_numberChars (n : Int) :
    integerOfText? (String.ofList (numberChars n)) = some n := by
  have hdecimal := naturalOfText?_decimal n.natAbs
  by_cases hn : n < 0
  · have hchars : numberChars n = '-' :: decimal n.natAbs := by rw [numberChars, if_pos hn]; rfl
    rw [integerOfText?, hchars, String.toList_ofList]
    change Option.map _ (magnitude? (decimal n.natAbs) >>= fun k => pure (k : Int)) = _
    rw [magnitude?_decimal]
    change some (-(n.natAbs : Int)) = some n
    rw [show -(n.natAbs : Int) = n by omega]
  · have hchars : numberChars n = decimal n.natAbs := by rw [numberChars, if_neg hn]; rfl
    rw [integerOfText?, hchars, String.toList_ofList]
    split
    next h =>
      have hdigit : '-'.isDigit := isDigit_decimal (h ▸ List.mem_cons_self)
      exact absurd hdigit (by decide)
    next =>
      rw [hdecimal, Option.map_some]
      change some (n.natAbs : Int) = some n
      rw [show (n.natAbs : Int) = n by omega]

theorem integer?_ofForm {n : Int} (hn : Word.holdsSigned 64 n) :
    Source.integer? (ofForm d (.number n)) = some n := by
  have hmeaning : (ofForm d (.number n)).meaning? "int" = some (String.ofList (numberChars n)) := rfl
  change Piece.integer? _ = _
  rw [Piece.integer?, hmeaning, Option.bind_eq_bind, Option.bind_some, integerOfText?_numberChars,
    Option.bind_eq_bind, Option.bind_some]
  exact if_pos hn

theorem list?_ofForm (items : List Form) :
    Source.list? (ofForm d (.list items)) = some (items.map (ofForm d)) := by
  have hitems : ∀ is : List Form, (itemNodes is).map (ofForm d (.list items)).sibling =
      is.map (ofForm d) := by
    intro is
    induction is with
    | nil => rfl
    | cons i is ih => rw [itemNodes, List.map_cons, ih]; rfl
  exact congrArg some (hitems items)

theorem holds_ofForm (d : Document) : Source.Holds (ofForm d) where
  text := text?_ofForm
  flag := flag?_ofForm
  natural := natural?_ofForm
  fields _ := fields?_ofForm
  textThere := optional?_text
  numberThere := optional?_number
  fieldsThere _ := rfl

end Yaml.Piece

/-! ## The parts of the record -/

open Source Yaml Piece

variable {d : Document}

theorem Instant.optional?_form (t : Instant) :
    Source.optional? (ofForm d t.form) = some (some (ofForm d t.form)) := optional?_text t.exactText

theorem Instant.ofSource?_form {t : Instant} (h : t.isRepresentable) :
    ofSource? (ofForm d t.form) = some t := by
  rw [ofSource?, form, (holds_ofForm d).text, Option.bind_eq_bind, Option.bind_some,
    ofText?_exactText h]

theorem Snapshot.ofSource?_form {s : Snapshot} (h : s.time.isRepresentable) :
    ofSource? (ofForm d s.form) = some s := by
  obtain ⟨entries, hform⟩ : ∃ entries, s.form = .fields entries := ⟨_, rfl⟩
  have hid : Source.required (entriesOf (ofForm d) entries) "id" Source.text? = some s.id :=
    required_entriesOf "id" ((holds_ofForm d).text s.id)
      (by cases hform; simp [Form.filter_unlessEmpty_eq])
  have htime : Source.required (entriesOf (ofForm d) entries) "time" Instant.ofSource? = some s.time :=
    required_entriesOf "time" (Instant.ofSource?_form h)
      (by cases hform; simp [Form.filter_unlessEmpty_eq])
  have hsize : Source.required (entriesOf (ofForm d) entries) "size" Source.integer? = some s.size.toInt := by
    refine required_entriesOf "size" (integer?_ofForm ?_)
      (by cases hform; simp [Form.filter_unlessEmpty_eq])
    have hlow : -(Word.size 63 : Int) ≤ s.size.toInt := s.size.le_toInt
    have hhigh : s.size.toInt < (Word.size 63 : Int) := s.size.toInt_lt
    simp [Word.holdsSigned, hlow, hhigh]
  have hsource : Source.required (entriesOf (ofForm d) entries) "source" Source.text? = some s.source :=
    required_entriesOf "source" ((holds_ofForm d).text s.source)
      (by cases hform; simp [Form.filter_unlessEmpty_eq])
  have hdescription : Source.orElse (entriesOf (ofForm d) entries) "description" "" Source.text? =
      some s.description :=
    (holds_ofForm d).unlessEmpty _ (by cases hform; simp [Form.filter_unlessEmpty_eq])
  simp only [ofSource?, hform, (holds_ofForm d).fields, hid, htime, hsize, hsource, hdescription,
    Option.bind_eq_bind, Option.bind_some, Int64.ofInt_toInt]

/-- Every instant in the status can be written down. -/
structure Status.Timely (s : Status) : Prop where
  backup : ∀ t, s.lastBackup = some t → t.isRepresentable
  listed : ∀ snapshot ∈ s.snapshots, snapshot.time.isRepresentable

/-- A status with no instants has none that could not be written down. -/
theorem Status.Timely.of_none {s : Status} (hbackup : s.lastBackup = none)
    (hlisted : s.snapshots = []) : s.Timely :=
  ⟨by simp [hbackup], by simp [hlisted]⟩

theorem Status.ofSource?_eq {s : Status} (h : s.Timely) : ofSource? (ofForm d s.form) = some s := by
  obtain ⟨entries, hform⟩ : ∃ entries, s.form = .fields entries := ⟨_, rfl⟩
  have hlist : ∀ ss : List Snapshot, (∀ snapshot ∈ ss, snapshot.time.isRepresentable) →
      ((ss.map Snapshot.form).map (ofForm d)).mapM Snapshot.ofSource? = some ss := by
    intro ss
    induction ss with
    | nil => intro _; rfl
    | cons s ss ih =>
      intro hss
      rw [List.forall_mem_cons] at hss
      rw [List.map_cons, List.map_cons, List.mapM_cons, Snapshot.ofSource?_form hss.1, ih hss.2]
      rfl
  have hconnected : Source.orElse (entriesOf (ofForm d) entries) "repository_connected" false Source.flag? =
      some s.connected := orElse_entriesOf "repository_connected" (flag?_ofForm s.connected)
    (by cases hform; cases s.snapshots <;> simp [Form.filter_optional_eq])
  have hbackup : Source.optional (entriesOf (ofForm d) entries) "last_backup" Instant.ofSource? =
      some s.lastBackup := optional_entriesOf "last_backup" Instant.optional?_form
    (fun t ht => Instant.ofSource?_form (h.backup t ht))
    (by cases hform; cases s.snapshots <;> simp [Form.filter_optional_eq])
  have hwindow : Source.optional (entriesOf (ofForm d) entries) "last_backup_window" Source.text? =
      some s.lastWindow := optional_entriesOf "last_backup_window" optional?_text
    (fun s _ => (holds_ofForm d).text s)
    (by cases hform; cases s.snapshots <;> simp [Form.filter_optional_eq])
  have hstatus : Source.orElse (entriesOf (ofForm d) entries) "last_status" "" Source.text? =
      some s.lastStatus := orElse_entriesOf "last_status" ((holds_ofForm d).text s.lastStatus)
    (by cases hform; cases s.snapshots <;> simp [Form.filter_optional_eq])
  have hbusy : Source.orElse (entriesOf (ofForm d) entries) "in_progress" false Source.flag? =
      some s.inProgress := orElse_entriesOf "in_progress" (flag?_ofForm s.inProgress)
    (by cases hform; cases s.snapshots <;> simp [Form.filter_optional_eq])
  have hprogress : Source.orElse (entriesOf (ofForm d) entries) "progress" 0 (Source.word? 8) =
      some s.progress.toNat :=
    orElse_entriesOf "progress" ((holds_ofForm d).word (by decide) s.progress.toNat_lt)
      (by cases hform; cases s.snapshots <;> simp [Form.filter_optional_eq])
  have hsnapshots : Source.orElse (entriesOf (ofForm d) entries) "available_snapshots" []
      (Source.listOf Snapshot.ofSource?) = some s.snapshots := by
    -- The list is written unless it is what the reader takes for a missing one.
    by_cases hempty : s.snapshots = []
    · rw [hempty]
      exact orElse_entriesOf_nil _ (by cases hform; simp [Form.filter_optional_eq, hempty])
    · refine orElse_entriesOf (f := .list (s.snapshots.map Snapshot.form)) _ ?_
        (by cases hform; simp [Form.filter_optional_eq, hempty])
      rw [Source.listOf, list?_ofForm, Option.bind_eq_bind, Option.bind_some]
      exact hlist s.snapshots h.listed
  simp only [ofSource?, hform, (holds_ofForm d).fields, hconnected, hbackup, hwindow, hstatus, hbusy,
    hprogress, hsnapshots, Option.bind_eq_bind, Option.bind_some, UInt8.ofNat_toNat]

/-- Of a record that was saved the configuration is read back in any case, and the status as far as it
can be made out. -/
theorem Record.exists_ofYaml?_yaml (r : Record) : ∃ d, Record.ofYaml? r.yaml =
    (Status.ofSource? (ofForm d r.status.form)).map fun status => { config := r.config, status } := by
  have hnamed : (Form.fields (("config", r.config.form) :: [("state", r.status.form)])).WellNamed :=
    r.form_wellNamed
  obtain ⟨d, hread⟩ := Yaml.read?_yaml hnamed Record.ofSource?
  have hconfig : Source.orElse (entriesOf (ofForm d) [("config", r.config.form), ("state", r.status.form)])
      "config" {} Config.ofSource? = some r.config :=
    orElse_entriesOf "config" (r.config.ofSource?_form (holds_ofForm d)) (by simp)
  have hstatus : Source.orElse (entriesOf (ofForm d) [("config", r.config.form), ("state", r.status.form)])
      "state" {} Status.ofSource? = Status.ofSource? (ofForm d r.status.form) :=
    Source.orElse_of_filter _ _ rfl
  refine ⟨d, ?_⟩
  rw [Record.ofYaml?, Record.yaml, Record.form, hread]
  simp only [Record.ofSource?, (holds_ofForm d).fields, hconfig, hstatus, Option.bind_eq_bind,
    Option.bind_some]
  exact Option.map_eq_bind.symm

/-- What was saved is read back. -/
theorem Record.ofYaml?_yaml_eq {r : Record} (h : r.status.Timely) : Record.ofYaml? r.yaml = some r := by
  obtain ⟨d, hread⟩ := r.exists_ofYaml?_yaml
  rw [hread, Status.ofSource?_eq h]
  rfl

end PoolKeeper
