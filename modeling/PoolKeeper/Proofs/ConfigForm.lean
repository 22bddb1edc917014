import PoolKeeper.Proofs.RecordFile

/-!
# `PoolKeeper/Proofs/ConfigForm.lean` — the configuration is read back from whatever holds it

A source holds data if each piece answers what the data would answer (`Source.Holds`). Two sources are
used: the pieces of a document, which are asked for what is wanted, and the values that a document stands
for by itself. Neither is named here, so the readers of the configuration are gone through once.

The fields of one mapping have different names. So what a reader gets by a name depends on the entries of
that name alone (`Source.filter_entriesOf`), and there is one lemma for each way to write a field: always,
if there is a value, and unless it is empty.
-/

set_option autoImplicit false

namespace PoolKeeper

/-! ## Fields found by their names -/

namespace Form

variable {β : Type} {other : String}

theorem filter_optional_eq (name : String) (write : β → Form) (o : Option β) :
    (Form.optional other write o).filter (·.1 == name) =
      if other == name then Form.optional other write o else [] := by
  cases o <;> simp [Form.optional, List.filter_cons]

theorem filter_unlessEmpty_eq (name s : String) : (Form.unlessEmpty other s).filter (·.1 == name) =
    if other == name then Form.unlessEmpty other s else [] := by
  unfold Form.unlessEmpty
  split <;> simp [List.filter_cons]

end Form

namespace Source

variable {α β : Type} {hold : Form → α} {entries : List (String × Form)}

def entriesOf (hold : Form → α) (entries : List (String × Form)) : List (String × α) :=
  entries.map fun e => (e.1, hold e.2)

theorem filter_entriesOf (name : String) : (entriesOf hold entries).filter (·.1 == name) =
    entriesOf hold (entries.filter (·.1 == name)) := by
  rw [entriesOf, List.filter_map]
  rfl

theorem required_entriesOf (name : String) {f : Form} {b : β} {read : α → Option β}
    (hread : read (hold f) = some b) (h : entries.filter (·.1 == name) = [(name, f)]) :
    required (entriesOf hold entries) name read = some b := by
  rw [required, field?, filter_entriesOf, h]
  exact hread

/-- A field that is left out when it has the value that the reader takes for a missing one. -/
theorem orElse_entriesOf_nil (name : String) {missing : β} {read : α → Option β}
    (h : entries.filter (·.1 == name) = []) :
    orElse (entriesOf hold entries) name missing read = some missing := by
  rw [orElse, field?, filter_entriesOf, h]
  rfl

variable [Source α]

/-- A field that is always written. -/
theorem orElse_entriesOf (name : String) {f : Form} {missing b : β} {read : α → Option β}
    (hread : read (hold f) = some b) (h : entries.filter (·.1 == name) = [(name, f)]) :
    orElse (entriesOf hold entries) name missing read = some b := by
  have hfilter : (entriesOf hold entries).filter (·.1 == name) = [(name, hold f)] := by
    rw [filter_entriesOf, h]
    rfl
  rw [orElse_of_filter missing read hfilter]
  exact hread

/-- A field that is written if there is a value. -/
theorem optional_entriesOf (name : String) {write : β → Form} {read : α → Option β} {o : Option β}
    (hthere : ∀ b, optional? (hold (write b)) = some (some (hold (write b))))
    (hread : ∀ b, o = some b → read (hold (write b)) = some b)
    (h : entries.filter (·.1 == name) = Form.optional name write o) :
    optional (entriesOf hold entries) name read = some o := by
  rw [optional, field?, filter_entriesOf, h]
  cases o with
  | none => rfl
  | some b =>
    have hentry : entriesOf hold (Form.optional name write (some b)) = [(name, hold (write b))] := rfl
    rw [hentry]
    simp only [Option.bind_eq_bind, Option.bind_some, hthere b, hread b rfl, Option.map_some]

/-! ## Sources that hold data -/

/-- What holds data answers as the data would. -/
structure Holds (hold : Form → α) : Prop where
  text (s : String) : text? (hold (.text s)) = some s
  flag (b : Bool) : flag? (hold (.flag b)) = some b
  natural {n : Nat} (hn : Word.holds 64 n) : natural? (hold (.number n)) = some n
  fields (names : List String) (entries : List (String × Form)) :
    fields? names (hold (.fields entries)) = some (entriesOf hold entries)
  /-- What was written does not stand for something missing. -/
  textThere (s : String) : optional? (hold (.text s)) = some (some (hold (.text s)))
  numberThere (n : Nat) : optional? (hold (.number n)) = some (some (hold (.number n)))
  fieldsThere (entries : List (String × Form)) :
    optional? (hold (.fields entries)) = some (some (hold (.fields entries)))

namespace Holds

variable (h : Holds hold)

include h

theorem word {bits n : Nat} (hbits : bits ≤ 64) (hn : n < Word.size bits) :
    word? bits (hold (.number n)) = some n := by
  have hsize : Word.size bits ≤ Word.size 64 := Nat.pow_le_pow_right (by decide) hbits
  have hnatural : natural? (hold (.number n)) = some n :=
    h.natural (decide_eq_true (Nat.lt_of_lt_of_le hn hsize))
  rw [word?, hnatural, Option.bind_eq_bind, Option.bind_some]
  exact if_pos (decide_eq_true hn)

/-- A text that is left out when it is empty. -/
theorem unlessEmpty (name : String) {s : String}
    (hfilter : entries.filter (·.1 == name) = Form.unlessEmpty name s) :
    orElse (entriesOf hold entries) name "" text? = some s := by
  unfold Form.unlessEmpty at hfilter
  split at hfilter
  next hempty => rw [orElse_entriesOf_nil name hfilter, hempty]
  next => exact orElse_entriesOf name (h.text s) hfilter

end Holds

end Source

/-! ## The configuration -/

open Source

variable {α : Type} [Source α] {hold : Form → α}

theorem Retention.ofSource?_form (hholds : Holds hold) (p : Retention) :
    ofSource? (hold p.form) = some p := by
  obtain ⟨entries, hform⟩ : ∃ entries, p.form = .fields entries := ⟨_, rfl⟩
  have hcount (name : String) (o : Option UInt32) (h : entries.filter (·.1 == name) =
      Form.optional name (fun n => .number n.toNat) o) :
      Source.optional (entriesOf hold entries) name
        (fun a => (Source.word? 32 a).map UInt32.ofNat) = some o := by
    refine optional_entriesOf name (fun n => hholds.numberThere n.toNat) (fun n _ => ?_) h
    rw [hholds.word (by decide) n.toNat_lt]
    simp
  have hlatest := hcount "keep_latest" p.keepLatest (by cases hform; simp [Form.filter_optional_eq])
  have hhourly := hcount "keep_hourly" p.keepHourly (by cases hform; simp [Form.filter_optional_eq])
  have hdaily := hcount "keep_daily" p.keepDaily (by cases hform; simp [Form.filter_optional_eq])
  have hweekly := hcount "keep_weekly" p.keepWeekly (by cases hform; simp [Form.filter_optional_eq])
  have hmonthly := hcount "keep_monthly" p.keepMonthly (by cases hform; simp [Form.filter_optional_eq])
  have hannual := hcount "keep_annual" p.keepAnnual (by cases hform; simp [Form.filter_optional_eq])
  simp only [ofSource?, hform, hholds.fields, hlatest, hhourly, hdaily, hweekly, hmonthly, hannual,
    Option.bind_eq_bind, Option.bind_some]

theorem ObjectStore.ofSource?_form (hholds : Holds hold) (o : ObjectStore) :
    ofSource? (hold o.form) = some o := by
  obtain ⟨entries, hform⟩ : ∃ entries, o.form = .fields entries := ⟨_, rfl⟩
  have htext (name s : String) (h : entries.filter (·.1 == name) = [(name, .text s)]) :
      Source.orElse (entriesOf hold entries) name "" Source.text? = some s :=
    orElse_entriesOf name (hholds.text s) h
  have hendpoint := htext "endpoint" o.endpoint
    (by cases hform; cases o.disableTls <;> simp [Form.filter_optional_eq])
  have hbucket := htext "bucket" o.bucket
    (by cases hform; cases o.disableTls <;> simp [Form.filter_optional_eq])
  have haccess := htext "access_key" o.accessKey
    (by cases hform; cases o.disableTls <;> simp [Form.filter_optional_eq])
  have hsecret := htext "secret_key" o.secretKey
    (by cases hform; cases o.disableTls <;> simp [Form.filter_optional_eq])
  have hregion : Source.optional (entriesOf hold entries) "region" Source.text? = some o.region :=
    optional_entriesOf "region" hholds.textThere (fun s _ => hholds.text s)
      (by cases hform; cases o.disableTls <;> simp [Form.filter_optional_eq])
  have htls : Source.orElse (entriesOf hold entries) "disable_tls" false Source.flag? =
      some o.disableTls := by
    cases hset : o.disableTls with
    | false => exact orElse_entriesOf_nil _ (by cases hform; simp [Form.filter_optional_eq, hset])
    | true =>
      exact orElse_entriesOf _ (hholds.flag true)
        (by cases hform; simp [Form.filter_optional_eq, hset])
  simp only [ofSource?, hform, hholds.fields, hendpoint, hbucket, haccess, hsecret, hregion, htls,
    Option.bind_eq_bind, Option.bind_some]

theorem Backend.ofSource?_form (hholds : Holds hold) (b : Backend) :
    ofSource? (hold b.form) = some b := by
  obtain ⟨entries, hform⟩ : ∃ entries, b.form = .fields entries := ⟨_, rfl⟩
  have hkind : Source.orElse (entriesOf hold entries) "type" "" Source.text? = some b.kind :=
    orElse_entriesOf "type" (hholds.text b.kind)
      (by cases hform; simp [Form.filter_optional_eq])
  have hthere : ∀ o : ObjectStore,
      Source.optional? (hold o.form) = some (some (hold o.form)) :=
    fun o => hholds.fieldsThere _
  have hstore : Source.optional (entriesOf hold entries) "s3" ObjectStore.ofSource? = some b.s3 :=
    optional_entriesOf "s3" hthere (fun o _ => o.ofSource?_form hholds)
      (by cases hform; simp [Form.filter_optional_eq])
  simp only [ofSource?, hform, hholds.fields, hkind, hstore, Option.bind_eq_bind,
    Option.bind_some]

theorem Config.ofSource?_form (hholds : Holds hold) (c : Config) :
    ofSource? (hold c.form) = some c := by
  obtain ⟨entries, hform⟩ : ∃ entries, c.form = .fields entries := ⟨_, rfl⟩
  have henabled : Source.orElse (entriesOf hold entries) "enabled" false Source.flag? = some c.enabled :=
    orElse_entriesOf "enabled" (hholds.flag c.enabled)
      (by cases hform; simp [Form.filter_unlessEmpty_eq])
  have hpassword : Source.orElse (entriesOf hold entries) "repository_password" "" Source.text? =
      some c.password := orElse_entriesOf "repository_password" (hholds.text c.password)
    (by cases hform; simp [Form.filter_unlessEmpty_eq])
  have hbackend : Source.orElse (entriesOf hold entries) "backend" {} Backend.ofSource? =
      some c.backend := orElse_entriesOf "backend" (c.backend.ofSource?_form hholds)
    (by cases hform; simp [Form.filter_unlessEmpty_eq])
  have hretention : Source.orElse (entriesOf hold entries) "retention" {} Retention.ofSource? =
      some c.retention := orElse_entriesOf "retention" (c.retention.ofSource?_form hholds)
    (by cases hform; simp [Form.filter_unlessEmpty_eq])
  have hfrequency : Source.orElse (entriesOf hold entries) "backup_frequency" "" Source.text? =
      some c.frequency :=
    hholds.unlessEmpty _ (by cases hform; simp [Form.filter_unlessEmpty_eq])
  have htrigger : Source.orElse (entriesOf hold entries) "restore_snapshot_id" "" Source.text? =
      some c.restoreTrigger :=
    hholds.unlessEmpty _ (by cases hform; simp [Form.filter_unlessEmpty_eq])
  simp only [ofSource?, hform, hholds.fields, henabled, hpassword, hbackend, hretention, hfrequency,
    htrigger, Option.bind_eq_bind, Option.bind_some]

end PoolKeeper
