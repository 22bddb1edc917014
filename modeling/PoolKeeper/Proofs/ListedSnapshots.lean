import Mathlib.Data.List.Nodup
import PoolKeeper.Proofs.SaveLoad
import PoolKeeper.Tools.Host

/-!
# `PoolKeeper/Proofs/ListedSnapshots.lean` — the list of snapshots, whole or not at all

Who reads the record of a service in a session has the engine asked for its snapshots, and gets the record
with the new list, or as it was. Which of the two is decided by what the engine wrote and how it ended, and
there is nothing in between: one element of the list that cannot be read spoils it.

`Lists` says what the engine has to write for a list of snapshots, element by element and field by field.
It is a relation between a JSON value and what is read from it, and knows nothing of how the reader goes
about it (`Engine.readList_ok_iff`). A field that may be missing is `Defaulted`, and where the fields of a
value come from, which may be an object or a list, is `Json.HasFields`.
-/

set_option autoImplicit false

namespace PoolKeeper

/-! ## Fields -/

namespace Source

variable {α β : Type} {fields : List (String × α)} {name : String}

/-- A field that stands at most once has the value that is looked up. -/
theorem field?_eq_some_iff {o : Option α} : field? fields name = some o ↔
    (fields.filter (·.1 == name)).length ≤ 1 ∧ fields.lookup name = o := by
  have hlookup : fields.lookup name = ((fields.filter (·.1 == name)).head?).map Prod.snd := by
    induction fields with
    | nil => rfl
    | cons field fields ih =>
      obtain ⟨key, a⟩ := field
      by_cases hname : key = name
      · simp [hname]
      · have hname' : (name == key) = false := by simpa using Ne.symm hname
        rw [List.lookup_cons, hname', List.filter_cons_of_neg (by simpa using hname), ih]
  rw [hlookup, field?]
  generalize fields.filter (·.1 == name) = found
  rcases found with _ | ⟨⟨_, a⟩, _ | ⟨_, _⟩⟩ <;> simp

theorem required_eq_some_iff {read : α → Option β} {b : β} : required fields name read = some b ↔
    ∃ a, field? fields name = some (some a) ∧ read a = some b := by
  simp [required, Option.bind_eq_some_iff]

theorem orElse_eq_some_iff {missing b : β} {read : α → Option β} :
    orElse fields name missing read = some b ↔
      ∃ o, field? fields name = some o ∧ o.elim (some missing) read = some b := by
  rw [orElse, Option.bind_eq_bind, Option.bind_eq_some_iff]
  refine exists_congr fun o => and_congr_right fun _ => ?_
  cases o <;> rfl

theorem required_iff {o : Option α} {read : α → Option β} {b : β} (ho : field? fields name = some o) :
    required fields name read = some b ↔ ∃ a, o = some a ∧ read a = some b := by
  rw [required_eq_some_iff, ho]
  simp

/-- What is known of a field by whoever read it. -/
abbrev Found (fields : List (String × α)) (name : String) : Prop := ∃ o, field? fields name = some o

theorem Found.of_required {read : α → Option β} {b : β} (h : required fields name read = some b) :
    Found fields name := by
  obtain ⟨a, ha, -⟩ := required_eq_some_iff.mp h
  exact ⟨some a, ha⟩

theorem Found.of_orElse {read : α → Option β} {missing b : β}
    (h : orElse fields name missing read = some b) : Found fields name := by
  obtain ⟨o, ho, -⟩ := orElse_eq_some_iff.mp h
  exact ⟨o, ho⟩

end Source

namespace Json

/-- A JSON value has these fields: it is an object whose keys are texts, with none of the names twice; or
a list that is not longer than the names, whose items belong to the names in order. -/
inductive HasFields (names : List String) : Json → (String → Option Json) → Prop
  | object {members : List (String × Json)}
      (honce : ∀ name ∈ names, (members.filter (·.1 == name)).length ≤ 1) :
      HasFields names (.object (members.map fun member => (some member.1, member.2)))
        fun name => members.lookup name
  | list {items : List Json} (hfits : items.length ≤ names.length) :
      HasFields names (.list items) fun name => items[names.idxOf name]?

/-- What is read of a field that may be missing. -/
def Defaulted {α : Type} (missing : α) (read : Json → α → Prop) : Option Json → α → Prop
  | none, a => a = missing
  | some j, a => read j a

/-- The value is this text. -/
def IsText (j : Json) (s : String) : Prop := j = .text (some s)

/-- The value is this number, which is one of 64 bits. -/
def IsSize (j : Json) (n : Int64) : Prop := j = .integer n.toInt

theorem keys_eq_some_iff {members : List (Option String × Json)} {fields : List (String × Json)} :
    (members.mapM fun (name, v) => do some (← name, v)) = some fields ↔
      members = fields.map fun field => (some field.1, field.2) := by
  induction members generalizing fields with
  | nil => cases fields <;> simp
  | cons member members ih =>
    obtain ⟨_ | key, v⟩ := member
    · cases fields <;> simp
    · cases fields with
      | nil => simp [Option.bind_eq_some_iff]
      | cons field fields =>
        obtain ⟨key', v'⟩ := field
        simp only [List.mapM_cons, Option.bind_eq_bind, Option.bind_some, Option.bind_eq_some_iff,
          Option.pure_def, Option.some.injEq, List.cons.injEq, List.map_cons, Prod.mk.injEq, ← ih]
        simp [and_comm]

theorem lookup_zip (names : List String) (items : List Json) (name : String) :
    (names.zip items).lookup name = if name ∈ names then items[names.idxOf name]? else none := by
  induction names generalizing items with
  | nil => simp
  | cons key names ih =>
    cases items with
    | nil => simp
    | cons item items =>
      by_cases hname : name = key
      · simp [hname]
      · have hname' : (name == key) = false := by simpa using hname
        simp [List.lookup_cons, hname', ih, hname, List.idxOf_cons_ne _ (Ne.symm hname)]

theorem keys_zip_sublist : ∀ (names : List String) (items : List Json),
    ((names.zip items).map Prod.fst).Sublist names
  | [], _ => .slnil
  | name :: names, [] => List.nil_sublist (name :: names)
  | name :: names, _ :: items => (keys_zip_sublist names items).cons_cons name

theorem filter_zip_le {names : List String} (hnodup : names.Nodup) (items : List Json) (name : String) :
    ((names.zip items).filter (·.1 == name)).length ≤ 1 := by
  have hkeys : ((names.zip items).map Prod.fst).Nodup :=
    hnodup.sublist (keys_zip_sublist names items)
  have hcount : ((names.zip items).map Prod.fst).count name ≤ 1 := List.nodup_iff_count_le_one.mp hkeys name
  rwa [List.count, List.countP_map, List.countP_eq_length_filter] at hcount

/-- The fields that a reader finds. -/
theorem hasFields_of_fields? {names : List String} {j : Json} {fields : List (String × Json)}
    (h : Source.fields? names j = some fields)
    (hfound : ∀ name ∈ names, Source.Found fields name) :
    ∃ get, HasFields names j get ∧ ∀ name ∈ names, Source.field? fields name = some (get name) := by
  have hlookup (name : String) (hname : name ∈ names) :
      (fields.filter (·.1 == name)).length ≤ 1 ∧
        Source.field? fields name = some (fields.lookup name) := by
    obtain ⟨o, ho⟩ := hfound name hname
    obtain ⟨honce, rfl⟩ := Source.field?_eq_some_iff.mp ho
    exact ⟨honce, ho⟩
  cases j with
  | object members =>
    obtain rfl := keys_eq_some_iff.mp h
    exact ⟨_, .object fun name hname => (hlookup name hname).1,
      fun name hname => (hlookup name hname).2⟩
  | list items =>
    obtain ⟨hfits, rfl⟩ := Option.ite_some_none_eq_some.mp h
    refine ⟨_, .list hfits, fun name hname => ?_⟩
    rw [(hlookup name hname).2, lookup_zip, if_pos hname]
  | _ => cases h

theorem HasFields.fields? {names : List String} {j : Json} {get : String → Option Json}
    (hnodup : names.Nodup) (h : HasFields names j get) :
    ∃ fields, Source.fields? names j = some fields ∧
      ∀ name ∈ names, Source.field? fields name = some (get name) := by
  cases h with
  | object honce =>
    exact ⟨_, keys_eq_some_iff.mpr rfl,
      fun name hname => Source.field?_eq_some_iff.mpr ⟨honce name hname, rfl⟩⟩
  | @list items hfits =>
    refine ⟨_, if_pos hfits, fun name hname => Source.field?_eq_some_iff.mpr ⟨?_, ?_⟩⟩
    · exact filter_zip_le hnodup items name
    · rw [lookup_zip, if_pos hname]

/-! ## Snapshots -/

/-- The value says where a snapshot was made. -/
def IsOrigin (j : Json) (path : String) : Prop :=
  ∃ get, HasFields ["path"] j get ∧ Defaulted "" IsText (get "path") path

/-- The value says how large a snapshot is. -/
def IsStatistics (j : Json) (size : Int64) : Prop :=
  ∃ get, HasFields ["totalSize"] j get ∧ Defaulted 0 IsSize (get "totalSize") size

/-- The value is the snapshot. -/
structure IsSnapshot (j : Json) (s : Snapshot) (get : String → Option Json) : Prop where
  fields : HasFields ["id", "source", "startTime", "description", "stats"] j get
  id : get "id" = some (.text (some s.id))
  source : ∃ origin, get "source" = some origin ∧ IsOrigin origin s.source
  time : ∃ stamp, get "startTime" = some (.text (some stamp)) ∧ Instant.ofText? stamp = some s.time
  description : Defaulted "" IsText (get "description") s.description
  size : Defaulted 0 IsStatistics (get "stats") s.size

/-- The text is a list of values that are the snapshots, one each, in order. -/
def Lists (text : String) (snapshots : List Snapshot) : Prop :=
  ∃ items, ofText? text = some (.list items) ∧
    List.Forall₂ (fun j s => ∃ get, IsSnapshot j s get) items snapshots

section Readers

variable {α β : Type} {fields : List (String × Json)} {name : String} {o : Option Json}
  {read : Json → Option β} {Reads : Json → α → Prop} (convert : α → β) (missing : α) {b : β}

/-- A field that may be missing is read as its value is. -/
theorem orElse_iff (ho : Source.field? fields name = some o)
    (hread : ∀ j b, read j = some b ↔ ∃ a, Reads j a ∧ convert a = b) :
    Source.orElse fields name (convert missing) read = some b ↔
      ∃ a, Defaulted missing Reads o a ∧ convert a = b := by
  rw [Source.orElse_eq_some_iff, ho]
  cases o with
  | none => simp [Defaulted, eq_comm]
  | some j => simp [Defaulted, hread]

/-- A value with one field that may be missing. -/
theorem fields_orElse_iff {j : Json}
    (hread : ∀ j b, read j = some b ↔ ∃ a, Reads j a ∧ convert a = b) :
    ((Source.fields? [name] j).bind fun fields =>
      Source.orElse fields name (convert missing) read) = some b ↔
        ∃ a, (∃ get, HasFields [name] j get ∧ Defaulted missing Reads (get name) a) ∧ convert a = b := by
  rw [Option.bind_eq_some_iff]
  constructor
  · rintro ⟨fields, hfields, hread'⟩
    obtain ⟨o, ho, -⟩ := Source.orElse_eq_some_iff.mp hread'
    obtain ⟨get, hget, hfield⟩ := hasFields_of_fields? hfields fun name' hname' =>
      ⟨o, List.mem_singleton.mp hname' ▸ ho⟩
    obtain ⟨a, ha, hb⟩ := (orElse_iff convert missing (hfield name List.mem_cons_self) hread).mp hread'
    exact ⟨a, ⟨get, hget, ha⟩, hb⟩
  · rintro ⟨a, ⟨get, hget, ha⟩, hb⟩
    obtain ⟨fields, hfields, hfield⟩ := hget.fields? (List.nodup_singleton name)
    exact ⟨fields, hfields, (orElse_iff convert missing (hfield name List.mem_cons_self) hread).mpr ⟨a, ha, hb⟩⟩

end Readers

theorem text?_eq_some_iff (j : Json) (s : String) :
    Source.text? j = some s ↔ ∃ s', IsText j s' ∧ s' = s := by
  cases j <;> simp [Source.text?, IsText]

theorem holdsSigned_iff (n : Int) : Word.holdsSigned 64 n = true ↔ ∃ size : Int64, size.toInt = n := by
  constructor
  · intro h
    obtain ⟨hlow, hhigh⟩ := Bool.and_eq_true_iff.mp h
    exact ⟨Int64.ofInt n,
      Int64.toInt_ofInt_of_le (of_decide_eq_true hlow) (of_decide_eq_true hhigh)⟩
  · rintro ⟨size, rfl⟩
    have hlow : -(Word.size 63 : Int) ≤ size.toInt := size.le_toInt
    have hhigh : size.toInt < (Word.size 63 : Int) := size.toInt_lt
    simp [Word.holdsSigned, hlow, hhigh]

/-- A number of 64 bits is read as one. -/
theorem integer?_eq_some_iff (j : Json) (n : Int) :
    Source.integer? j = some n ↔ ∃ size, IsSize j size ∧ size.toInt = n := by
  constructor
  · intro h
    cases j with
    | integer k =>
      obtain ⟨hholds, rfl⟩ := Option.ite_some_none_eq_some.mp h
      obtain ⟨size, rfl⟩ := (holdsSigned_iff k).mp hholds
      exact ⟨size, rfl, rfl⟩
    | _ => cases h
  · rintro ⟨size, rfl, rfl⟩
    exact if_pos ((holdsSigned_iff _).mpr ⟨size, rfl⟩)

theorem path?_iff (j : Json) (path : String) :
    Engine.listedSnapshot?.path? j = some path ↔ ∃ path', IsOrigin j path' ∧ path' = path :=
  fields_orElse_iff (fun path => path) "" text?_eq_some_iff

theorem totalSize?_iff (j : Json) (n : Int) :
    Engine.listedSnapshot?.totalSize? j = some n ↔ ∃ size, IsStatistics j size ∧ size.toInt = n :=
  fields_orElse_iff Int64.toInt 0 integer?_eq_some_iff

theorem ofSource?_iff (j : Json) (t : Instant) :
    Instant.ofSource? j = some t ↔ ∃ stamp, j = .text (some stamp) ∧ Instant.ofText? stamp = some t := by
  rw [Instant.ofSource?, Option.bind_eq_bind, Option.bind_eq_some_iff]
  refine exists_congr fun stamp => and_congr_left fun _ => ?_
  rw [text?_eq_some_iff]
  constructor
  · rintro ⟨_, h, rfl⟩
    exact h
  · exact fun h => ⟨stamp, h, rfl⟩

theorem description_iff {fields : List (String × Json)} {name s : String} {o : Option Json}
    (ho : Source.field? fields name = some o) : Source.orElse fields name "" Source.text? = some s ↔
      ∃ s', Defaulted "" IsText o s' ∧ s' = s :=
  orElse_iff (fun s => s) "" ho text?_eq_some_iff

theorem stats_iff {fields : List (String × Json)} {name : String} {o : Option Json} {n : Int}
    (ho : Source.field? fields name = some o) :
    Source.orElse fields name 0 Engine.listedSnapshot?.totalSize? = some n ↔
      ∃ size, Defaulted 0 IsStatistics o size ∧ size.toInt = n :=
  orElse_iff Int64.toInt 0 ho totalSize?_iff

/-- The fields of a snapshot are each read by themselves, from what the value gives for them. -/
theorem listedSnapshot?_iff (j : Json) (s : Snapshot) :
    Engine.listedSnapshot? j = some s ↔ ∃ get, IsSnapshot j s get := by
  simp only [Engine.listedSnapshot?, Option.bind_eq_bind, Option.bind_eq_some_iff]
  constructor
  -- The reader looks up every name, so each of them stands at most once.
  · rintro ⟨fields, hfields, id, hid, time, htime, n, hsize, path, hpath, description, hdescription,
      ⟨⟩⟩
    obtain ⟨get, hget, hfield⟩ := hasFields_of_fields? hfields (by
      simp only [List.forall_mem_cons]
      exact ⟨.of_required hid, .of_required hpath, .of_required htime, .of_orElse hdescription,
        .of_orElse hsize, nofun⟩)
    obtain ⟨_, hid', htext⟩ := (Source.required_iff (hfield "id" (by simp))).mp hid
    obtain ⟨_, rfl, rfl⟩ := (text?_eq_some_iff _ _).mp htext
    obtain ⟨origin, horigin, hpath⟩ := (Source.required_iff (hfield "source" (by simp))).mp hpath
    obtain ⟨_, hisOrigin, rfl⟩ := (path?_iff _ _).mp hpath
    obtain ⟨_, htime', hstamp⟩ := (Source.required_iff (hfield "startTime" (by simp))).mp htime
    obtain ⟨stamp, rfl, hstamp⟩ := (ofSource?_iff _ _).mp hstamp
    obtain ⟨_, hisText, rfl⟩ := (description_iff (hfield "description" (by simp))).mp hdescription
    obtain ⟨size, hisSize, rfl⟩ := (stats_iff (hfield "stats" (by simp))).mp hsize
    exact ⟨get, hget, hid', ⟨origin, horigin, hisOrigin⟩, ⟨stamp, htime', hstamp⟩, hisText,
      by rwa [Int64.ofInt_toInt]⟩
  · rintro ⟨get, hget, hid, ⟨origin, horigin, hisOrigin⟩, ⟨stamp, htime, hstamp⟩, hisText, hisSize⟩
    obtain ⟨fields, hfields, hfield⟩ := hget.fields? (by simp)
    refine ⟨fields, hfields, s.id, ?_, s.time, ?_, s.size.toInt, ?_, s.source, ?_, s.description, ?_, ?_⟩
    · exact (Source.required_iff (hfield "id" (by simp))).mpr ⟨_, hid, rfl⟩
    · exact (Source.required_iff (hfield "startTime" (by simp))).mpr
        ⟨_, htime, (ofSource?_iff _ _).mpr ⟨stamp, rfl, hstamp⟩⟩
    · exact (stats_iff (hfield "stats" (by simp))).mpr ⟨s.size, hisSize, rfl⟩
    · exact (Source.required_iff (hfield "source" (by simp))).mpr
        ⟨origin, horigin, (path?_iff _ _).mpr ⟨s.source, hisOrigin, rfl⟩⟩
    · exact (description_iff (hfield "description" (by simp))).mpr ⟨s.description, hisText, rfl⟩
    · rw [Int64.ofInt_toInt]

end Json

theorem mapM_eq_some_iff {α β : Type} {read : α → Option β} {Reads : α → β → Prop}
    (hread : ∀ a b, read a = some b ↔ Reads a b) {as : List α} {bs : List β} :
    as.mapM read = some bs ↔ List.Forall₂ Reads as bs := by
  induction as generalizing bs with
  | nil => cases bs <;> simp
  | cons a as ih =>
    cases bs with
    | nil => simp [Option.bind_eq_some_iff]
    | cons b bs => simp [Option.bind_eq_some_iff, ih, hread]

/-- A list of the engine is read if every element of it is a snapshot, and then it is these snapshots. -/
theorem Engine.readList_ok_iff {text : String} {snapshots : List Snapshot} :
    Engine.readList text = .ok snapshots ↔ Json.Lists text snapshots := by
  have hlist (j : Json) : Source.listOf Engine.listedSnapshot? j = some snapshots ↔
      ∃ items, j = .list items ∧
        List.Forall₂ (fun j s => ∃ get, Json.IsSnapshot j s get) items snapshots := by
    rw [Source.listOf, Option.bind_eq_bind, Option.bind_eq_some_iff]
    refine exists_congr fun items => and_congr ?_ (mapM_eq_some_iff Json.listedSnapshot?_iff)
    cases j <;> simp [Source.list?]
  have hread : readList text = .ok snapshots ↔
      (Json.ofText? text).bind (Source.listOf listedSnapshot?) = some snapshots := by
    rw [readList]
    cases (Json.ofText? text).bind (Source.listOf listedSnapshot?) <;> simp
  rw [hread, Option.bind_eq_some_iff, Json.Lists]
  constructor
  · rintro ⟨j, hj, hitems⟩
    obtain ⟨items, rfl, hall⟩ := (hlist j).mp hitems
    exact ⟨items, hj, hall⟩
  · rintro ⟨items, hj, hall⟩
    exact ⟨_, hj, (hlist _).mpr ⟨items, rfl, hall⟩⟩

namespace Service

open Operation

variable {σ : Type} {w : World σ}

/-- The command line that the snapshots are listed by. -/
def listing (s : Settings) : Invocation :=
  ⟨s.engineBinary, Engine.listArguments, some s.cacheDir⟩

/-- The tool came to its end with code 0, and what it wrote is a list of these snapshots. -/
def Reports (started : Except String Finish) (snapshots : List Snapshot) : Prop :=
  ∃ finish, started = .ok finish ∧ finish.code = some 0 ∧
    Json.Lists (Text.decodeLossy finish.output) snapshots

theorem judge_ok_iff {i : Invocation} {started : Except String Finish} {text : String} :
    i.judge started = .ok text ↔
      ∃ finish, started = .ok finish ∧ finish.code = some 0 ∧ Text.decodeLossy finish.output = text := by
  rcases started with cause | finish
  · simp [Invocation.judge]
  · rw [Invocation.judge]
    cases hcode : finish.code with
    | none => simp [hcode]
    | some code =>
      by_cases hzero : code = 0
      · simp [hcode, hzero]
      · simp [hcode, hzero]

/-- The answer to the call for the list is what the tool reports, and the tool's world. -/
theorem host_listSnapshots (s : Settings) (clock : World σ → Instant × World σ) (run : Tools.Runner σ) :
    (Tools.host s clock run .listSnapshots w).2 = (run (listing s) w).2 ∧
      ∀ snapshots, (Tools.host s clock run .listSnapshots w).1 = .ok snapshots ↔
        Reports (run (listing s) w).1 snapshots := by
  let started := (run (listing s) w).1
  let fault := Engine.fault "list snapshots"
  have hanswer : Tools.host s clock run .listSnapshots w =
      ((((listing s).judge started).mapError fun f => fault f.message).bind Engine.readList,
        (run (listing s) w).2) := rfl
  refine ⟨congrArg Prod.snd hanswer, fun snapshots => ?_⟩
  rw [hanswer]
  constructor
  · intro h
    rcases hjudged : (listing s).judge started with f | text
    · simp [hjudged, Except.mapError, Except.bind] at h
    · obtain ⟨finish, hstarted, hcode, rfl⟩ := judge_ok_iff.mp hjudged
      simp only [hjudged, Except.mapError, Except.bind] at h
      exact ⟨finish, hstarted, hcode, Engine.readList_ok_iff.mp h⟩
  · rintro ⟨finish, hstarted, hcode, hlists⟩
    have hjudged : (listing s).judge started = .ok (Text.decodeLossy finish.output) :=
      judge_ok_iff.mpr ⟨finish, hstarted, hcode, rfl⟩
    simp only [hjudged, Except.mapError, Except.bind]
    exact Engine.readList_ok_iff.mpr hlists

/-- The service is enabled and has a session. -/
def InSession (r : Record) : Prop := r.config.enabled = true ∧ r.status.connected = true

/-- The record has this list, and is otherwise as it was. It was saved after the tool had answered, and
if that was possible it is what everybody finds who can follow the path. -/
structure Refreshed (path : String) (w asked w' : World σ) (snapshots : List Snapshot) : Prop where
  record : w'.record = { w.record with status := { w.record.status with snapshots } }
  saved : w' = (asked.note (.called .listSnapshots (.ok snapshots))).setRecord path w'.record
  found : ∀ m, (w'.record.save path).run.run asked.machine = (.ok (), m) → m.Reaches path →
    (Files.readText path).run.run w'.machine = (.ok w'.record.yaml, w'.machine)

/-- The record is as it was, and nothing was written: the world is the one that the tool left behind, or
the same if the tool was not asked. -/
structure Unrefreshed (w asked w' : World σ) : Prop where
  record : w'.record = w.record
  unsaved : (¬ InSession w.record ∧ w' = w) ∨
    (InSession w.record ∧ ∃ f, w' = asked.note (.called .listSnapshots (.error f)))

theorem runIn_get_refused {ctx : Context σ} {f : Fault} (hsession : InSession w.record)
    (hlist : (ctx.host .listSnapshots w).1 = .error f) : runIn ctx get w =
      (.ok w.record, (ctx.host .listSnapshots w).2.note (.called .listSnapshots (.error f))) := by
  simp only [get, runIn_bind, runIn_record, runIn_call, hsession.1, hsession.2, Bool.and_true,
    Bool.not_true, Bool.false_eq_true, if_false, hlist, runIn_pure]

theorem runIn_get_listed {ctx : Context σ} {snapshots : List Snapshot} (hsession : InSession w.record)
    (hlist : (ctx.host .listSnapshots w).1 = .ok snapshots) :
    let asked := (ctx.host .listSnapshots w).2.note (.called .listSnapshots (.ok snapshots))
    let r := { asked.record with status := { asked.record.status with snapshots } }
    runIn ctx get w = (.ok r, asked.setRecord ctx.settings.statePath r) := by
  simp only [get, runIn_bind, runIn_record, runIn_call, hsession.1, hsession.2, Bool.and_true,
    Bool.not_true, Bool.false_eq_true, if_false, hlist, runIn_update, World.setRecord_record]

theorem runIn_get_closed {ctx : Context σ} (hsession : ¬ InSession w.record) :
    runIn ctx get w = (.ok w.record, w) := by
  have hclosed : (w.record.config.enabled && w.record.status.connected) = false := by
    simpa [InSession] using hsession
  simp only [get, runIn_bind, runIn_record, hclosed, Bool.not_false, if_true, runIn_pure]

/-- Reading the record never fails, and has its list of snapshots refreshed or left alone. It is refreshed
exactly in a session in which the tool ends with code 0 and lists snapshots, and then has these. -/
theorem get_all_or_nothing (s : Settings) (clock : World σ → Instant × World σ) (run : Tools.Runner σ)
    (w : World σ) (hrecord : (run (listing s) w).2.record = w.record) :
    ∃ w', runIn ⟨s, Tools.host s clock run⟩ get w = (.ok w'.record, w') ∧
      ((∃ snapshots, InSession w.record ∧ Reports (run (listing s) w).1 snapshots ∧
          Refreshed s.statePath w (run (listing s) w).2 w' snapshots) ∨
        (¬ ∃ snapshots, InSession w.record ∧ Reports (run (listing s) w).1 snapshots) ∧
          Unrefreshed w (run (listing s) w).2 w') := by
  obtain ⟨hasked, hreports⟩ := host_listSnapshots (w := w) s clock run
  by_cases hsession : InSession w.record
  · rcases hlist : (Tools.host s clock run .listSnapshots w).1 with f | snapshots
    -- An answer that is no list is noted and otherwise forgotten.
    · have hget : runIn ⟨s, Tools.host s clock run⟩ get w = _ := runIn_get_refused hsession hlist
      rw [hasked] at hget
      refine ⟨_, hget.trans (by rw [World.note_record, hrecord]), .inr ⟨?_, ?_, .inr ⟨hsession, f, rfl⟩⟩⟩
      · rintro ⟨snapshots, -, hreported⟩
        cases hlist.symm.trans ((hreports snapshots).mpr hreported)
      · rw [World.note_record, hrecord]
    · have hget : runIn ⟨s, Tools.host s clock run⟩ get w = _ := runIn_get_listed hsession hlist
      rw [hasked] at hget
      refine ⟨_, hget.trans (by rw [World.setRecord_record]), .inl ⟨snapshots, hsession,
        (hreports snapshots).mp hlist, ?_, ?_, ?_⟩⟩
      · rw [World.setRecord_record, World.note_record, hrecord]
      · rw [World.setRecord_record]
      · rw [World.setRecord_record, World.setRecord_machine, World.note_machine]
        intro m hsave hreaches
        rw [show ((Record.save _ _).run (run (listing s) w).2.machine).2 = m from congrArg Prod.snd hsave]
        exact Form.readText_save_of_reaches hsave hreaches
  · refine ⟨w, runIn_get_closed hsession, .inr ⟨?_, rfl, .inl ⟨hsession, rfl⟩⟩⟩
    rintro ⟨snapshots, hopen, -⟩
    exact hsession hopen

/-- A service with a session, and a list from before. -/
def opened : World Unit where
  record :=
    { config := { enabled := true }
      status := { connected := true, snapshots := [⟨"k0", ⟨0, 0⟩, 0, "", ""⟩] } }
  machine := {}
  host := ()

/-- A tool that ends with the code after it wrote the text. -/
def writing (code : Int) (text : String) : Tools.Runner Unit := fun _ w =>
  (.ok { code := some code, output := text.toUTF8 }, w)

/-- A snapshot of which all is said, one of which only the necessary is said, and one as a list. -/
def threeListed : String :=
  "[\x7b\"id\":\"k1\",\"source\":\x7b\"host\":\"h\",\"path\":\"/local\"\x7d,\"startTime\":" ++
  "\"2026-03-01T02:00:03Z\",\"description\":\"d\",\"stats\":\x7b\"totalSize\":5\x7d\x7d," ++
  "\x7b\"id\":\"k2\",\"source\":\x7b\x7d,\"startTime\":\"2026-03-02T02:00:03Z\"\x7d," ++
  "[\"k3\",[\"/local\"],\"2026-03-03T02:00:03Z\"]]"

theorem get_all_or_nothing_opened :
    ∃ w', runIn ⟨{}, Tools.host {} Tools.machineClock (writing 0 threeListed)⟩ get opened =
        (.ok w'.record, w') ∧
      w'.record.status.snapshots = [⟨"k1", ⟨1772330403, 0⟩, 5, "/local", "d"⟩,
        ⟨"k2", ⟨1772416803, 0⟩, 0, "", ""⟩, ⟨"k3", ⟨1772503203, 0⟩, 0, "/local", ""⟩] := by
  have hread : Engine.readList (Text.decodeLossy threeListed.toUTF8) =
      .ok [⟨"k1", ⟨1772330403, 0⟩, 5, "/local", "d"⟩, ⟨"k2", ⟨1772416803, 0⟩, 0, "", ""⟩,
        ⟨"k3", ⟨1772503203, 0⟩, 0, "/local", ""⟩] := by decide +kernel
  have hreports : Reports (writing 0 threeListed (listing {}) opened).1 _ :=
    ⟨_, rfl, rfl, Engine.readList_ok_iff.mp hread⟩
  obtain ⟨w', hget, ⟨snapshots, -, ⟨_, ⟨⟩, -, hlists⟩, hrefreshed⟩ | ⟨hnone, -⟩⟩ :=
    get_all_or_nothing {} Tools.machineClock (writing 0 threeListed) opened rfl
  · refine ⟨w', hget, ?_⟩
    rw [hrefreshed.record]
    exact Except.ok.inj ((Engine.readList_ok_iff.mpr hlists).symm.trans hread)
  · exact absurd ⟨_, ⟨rfl, rfl⟩, hreports⟩ hnone

end Service

end PoolKeeper
