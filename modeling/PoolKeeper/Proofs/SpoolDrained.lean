import Mathlib.Data.List.Basic
import PoolKeeper.Proofs.LockBesideState
import PoolKeeper.Proofs.SpoolTaken

/-!
# `PoolKeeper/Proofs/SpoolDrained.lean` — an arbitrary spool is emptied of its requests

A spool is a directory that anybody may put things into: files under other names, hidden ones, some that are
no text or no request, directories, links. `take` goes through the names of requests in order, and whatever
can be read as text at its turn is removed, and given if it is a request.

`Drains` says which names these are, and everything else follows from it: what is given, what is left
behind, and that there is nothing to be taken a second time. What can be read at a turn differs from what
could be read at the beginning only for a link, which may lead to another request that was taken before. A
file is judged by its own bytes (`text?_entry_iff`).
-/

set_option autoImplicit false

namespace PoolKeeper

/-! ## A directory without some of its names -/

namespace Disk

/-- The disk with nothing at these names in the directory. -/
def without (d : Disk) (loc : Loc) (gone : List String) : Disk :=
  gone.foldl (fun d name => d.clear (name :: loc)) d

variable {d : Disk} {loc place : Loc} {gone : List String}

@[simp] theorem without_nil (d : Disk) (loc : Loc) : d.without loc [] = d := rfl

theorem without_cons (d : Disk) (loc : Loc) (name : String) (gone : List String) :
    d.without loc (name :: gone) = (d.clear (name :: loc)).without loc gone := rfl

theorem without_below (d : Disk) (loc : Loc) (gone : List String) : (d.without loc gone).Below d := by
  induction gone generalizing d with
  | nil => exact fun _ _ h => h
  | cons name gone ih => exact fun place e h => clear_below d _ place e (ih _ place e h)

theorem get?_without (d : Disk) (loc : Loc) (gone : List String) (place : Loc) :
    (d.without loc gone).get? place = if place ∈ gone.map (· :: loc) then none else d.get? place := by
  induction gone generalizing d with
  | nil => simp
  | cons name gone ih =>
    rw [without_cons, ih, List.map_cons]
    by_cases hplace : place = name :: loc
    · subst hplace
      simp [get?_clear d (List.cons_ne_nil name loc)]
    · simp [hplace, get?_clear_of_ne d hplace]

/-- The longer list takes more. -/
theorem without_filter_below (d : Disk) (loc : Loc) (gone : List String) (p : String → Bool) :
    (d.without loc gone).Below (d.without loc (gone.filter p)) := by
  intro place e h
  rw [get?_without] at h ⊢
  split at h
  next => cases h
  next hplace =>
    rw [if_neg ?_, h]
    intro hmem
    obtain ⟨name, hname, rfl⟩ := List.mem_map.mp hmem
    exact hplace (List.mem_map_of_mem (List.mem_of_mem_filter hname))

theorem mem_names_iff {name : String} :
    name ∈ d.names loc ↔ ∃ e, d.get? (name :: loc) = some e := by
  constructor
  · intro hmem
    by_contra hnone
    exact not_mem_names (vacant_of_get? (Option.eq_none_iff_forall_not_mem.mpr (not_exists.mp hnone))) hmem
  · rintro ⟨e, he⟩
    rw [get?, if_neg (List.cons_ne_nil name loc)] at he
    obtain ⟨front, back, hsplit, -⟩ := List.lookup_eq_some_iff.mp he
    exact List.mem_filterMap.mpr ⟨(name :: loc, e), by simp [hsplit], by simp⟩

theorem names_without (d : Disk) (loc : Loc) (gone : List String) :
    (d.without loc gone).names loc = (d.names loc).filter (· ∉ gone) := by
  induction gone generalizing d with
  | nil => exact (List.filter_eq_self.mpr (by simp)).symm
  | cons name gone ih =>
    rw [without_cons, ih, clear, names_filter, List.filter_filter]
    refine List.filter_congr fun other _ => ?_
    simp [Bool.and_comm]

end Disk

/-- A directory is not closed by taking away a file that was read. -/
theorem Machine.Opens.clear {m : Machine} {dir path text : String} {loc place : Loc}
    (h : m.Opens dir loc) (hremovable : Files.Removable path m place) (htext : m.text? path = some text) :
    Machine.Opens { m with disk := m.disk.clear place } dir loc where
  leads := hremovable.resolve htext h.leads fun _ => h.isDirectory
  isDirectory := by
    obtain ⟨mode, hmode⟩ := h.isDirectory
    refine ⟨mode, (m.disk.get?_clear_of_ne ?_).trans hmode⟩
    rintro rfl
    exact hremovable.noDirectory mode hmode

namespace Spool

open Disk

variable {m : Machine} {dir name : String} {loc : Loc}

/-! ## One name -/

/-- A name that can be the name of a request. -/
def IsRequestFile (name : String) : Prop := isRequestName name = true ∧ '/' ∉ name.toList

/-- A request that can be read as text can be removed, and it is in the spool that it is found. -/
theorem removable_of_text? {text : String} (h : m.Opens dir loc) (hname : IsRequestFile name)
    (htext : m.text? (Path.join dir name) = some text) :
    Files.Removable (Path.join dir name) m (name :: loc) := by
  obtain ⟨place, hremovable⟩ := Files.exists_removable htext
  obtain rfl := eq_of_resolve_join_unfollowed h.leads h.isDirectory (isName_of_isRequestName hname.1)
    hname.2 hremovable.leads
  exact hremovable

/-- What can be read as text is removed, whatever it says, and anything else stays. -/
theorem run_takeFile_text? (h : m.Opens dir loc) (hname : IsRequestFile name) :
    (takeFile dir name).run m = match m.text? (Path.join dir name) with
      | none => (none, m)
      | some text => (Request.ofYaml? text, { m with disk := m.disk.clear (name :: loc) }) := by
  have hsame : ((Files.readText (Path.join dir name)).run.run m).2 = m := by rw [Files.run_readText]
  rw [run_takeFile_eq]
  cases htext : m.text? (Path.join dir name) with
  | none =>
    rw [Machine.text?] at htext
    generalize (Files.readText (Path.join dir name)).run.run m = read at hsame htext ⊢
    rcases read with ⟨e | text, m₁⟩
    · obtain rfl : m₁ = m := hsame
      rfl
    · cases htext
  | some text =>
    rw [Files.run_readText_text htext]
    simp only
    rw [(removable_of_text? h hname htext).run_removeFile]

/-- A file says what its bytes say, unless its path is too long to be read. -/
theorem text?_entry_iff {mode : Nat} {bytes : ByteArray} {text : String} (h : m.Opens dir loc)
    (hname : IsRequestFile name) (hentry : m.disk.get? (name :: loc) = some (.file mode bytes)) :
    m.text? (Path.join dir name) = some text ↔ Fits dir name ∧ Text.decode? bytes = some text := by
  have hjoin (follow : Bool) : m.disk.resolve m.cwd follow (Path.join dir name) = .ok (name :: loc) ↔
      Fits dir name :=
    resolve_join h.leads h.isDirectory (isName_of_isRequestName hname.1) hname.2 (by simp [hentry])
  constructor
  · intro htext
    have hfits := (hjoin false).mp (removable_of_text? h hname htext).leads
    exact ⟨hfits, (Files.text?_of_file ((hjoin true).mpr hfits) hentry).symm.trans htext⟩
  · rintro ⟨hfits, hdecode⟩
    rw [Files.text?_of_file ((hjoin true).mpr hfits) hentry, hdecode]

theorem text?_entry_directory (h : m.Opens dir loc) (hname : IsRequestFile name)
    (hentry : m.disk.IsDirectory (name :: loc)) : m.text? (Path.join dir name) = none := by
  rw [Option.eq_none_iff_forall_not_mem]
  obtain ⟨mode, hmode⟩ := hentry
  exact fun text htext => (removable_of_text? h hname htext).noDirectory mode hmode

/-! ## All names, one after the other -/

/-- The machine when it is the turn of a name, where these names are taken. -/
def atTurn (m : Machine) (loc : Loc) (taken : List String) (name : String) : Machine :=
  { m with disk := m.disk.without loc (taken.filter (· < name)) }

/-- The text that is read at the turn of a name. -/
def textAtTurn (dir : String) (loc : Loc) (m : Machine) (taken : List String) (name : String) :
    Option String := (atTurn m loc taken name).text? (Path.join dir name)

/-- Of the names in the list these are taken, in ascending order: those that can be read as text at their
turn. -/
structure Drains (dir : String) (loc : Loc) (m : Machine) (names taken : List String) : Prop where
  ascending : taken.Pairwise (· < ·)
  mem_iff (name : String) :
    name ∈ taken ↔ name ∈ names ∧ ∃ text, textAtTurn dir loc m taken name = some text
  opensAtTurn (name : String) (hname : name ∈ names) : (atTurn m loc taken name).Opens dir loc
  run : (takeFiles dir names).run m =
    (taken.filterMap fun name => (textAtTurn dir loc m taken name).bind Request.ofYaml?,
      { m with disk := m.disk.without loc taken })
  opensAfter : Machine.Opens { m with disk := m.disk.without loc taken } dir loc

theorem atTurn_below (m : Machine) (loc : Loc) (taken : List String) (name : String) :
    (atTurn m loc taken name).disk.Below m.disk := without_below _ _ _

theorem atTurn_first {taken : List String} (h : ∀ other ∈ taken, name ≤ other) :
    atTurn m loc taken name = m := by
  have hnone : taken.filter (· < name) = [] := by
    rw [List.filter_eq_nil_iff]
    intro other hother hlt
    exact String.not_lt.mpr (h other hother) (of_decide_eq_true hlt)
  rw [atTurn, hnone]
  rfl

theorem atTurn_cons {taken : List String} {first : String} (h : first < name) :
    atTurn m loc (first :: taken) name =
      atTurn { m with disk := m.disk.clear (first :: loc) } loc taken name := by
  have hearlier : (first :: taken).filter (· < name) = first :: taken.filter (· < name) :=
    List.filter_cons_of_pos (decide_eq_true h)
  rw [atTurn, hearlier]
  rfl

/-- At its turn an entry is still what it was. -/
theorem get?_atTurn (m : Machine) (loc : Loc) (taken : List String) (name : String) :
    (atTurn m loc taken name).disk.get? (name :: loc) = m.disk.get? (name :: loc) := by
  rw [atTurn, get?_without, if_neg]
  intro hmem
  obtain ⟨other, hother, heq⟩ := List.mem_map.mp hmem
  cases heq
  exact String.lt_irrefl name (of_decide_eq_true (List.mem_filter.mp hother).2)

theorem lt_of_le_ne {a b : String} (hle : a ≤ b) (hne : b ≠ a) : a < b :=
  Decidable.byContradiction fun hlt => hne (String.le_antisymm (String.not_lt.mp hlt) hle)

/-- A name that cannot be read is passed over. -/
theorem Drains.pass {names taken : List String} (h : Drains dir loc m names taken)
    (hopens : m.Opens dir loc) (hname : IsRequestFile name) (hfirst : ∀ other ∈ names, name ≤ other)
    (htext : m.text? (Path.join dir name) = none) : Drains dir loc m (name :: names) taken := by
  have hturn : atTurn m loc taken name = m :=
    atTurn_first fun other hother => hfirst other ((h.mem_iff other).mp hother).1
  refine ⟨h.ascending, fun other => ?_, fun other hother => ?_, ?_, h.opensAfter⟩
  · rw [h.mem_iff, List.mem_cons]
    refine ⟨fun ⟨hmem, hread⟩ => ⟨.inr hmem, hread⟩, ?_⟩
    rintro ⟨rfl | hmem, text, hread⟩
    · rw [textAtTurn, hturn, htext] at hread
      cases hread
    · exact ⟨hmem, text, hread⟩
  · rcases List.mem_cons.mp hother with rfl | hmem
    · rwa [hturn]
    · exact h.opensAtTurn other hmem
  · rw [run_takeFiles_cons, run_takeFile_text? hopens hname, htext]
    exact h.run

/-- A name that can be read is taken. -/
theorem Drains.remove {names taken : List String} {text : String} (hopens : m.Opens dir loc)
    (h : Drains dir loc { m with disk := m.disk.clear (name :: loc) } names taken)
    (hname : IsRequestFile name) (hfirst : ∀ other ∈ names, name ≤ other)
    (htext : m.text? (Path.join dir name) = some text) :
    Drains dir loc m (name :: names) (name :: taken) := by
  have hcleared := hopens.clear (removable_of_text? hopens hname htext) htext
  -- The name may be listed twice, but the second time nothing is there.
  have hgone : name ∉ taken := by
    intro hmem
    obtain ⟨-, text', hread⟩ := (h.mem_iff name).mp hmem
    obtain ⟨e, hentry⟩ := (removable_of_text? hcleared hname
      (Machine.text?_of_below (atTurn_below _ loc taken name) hread)).isThere
    cases (get?_clear m.disk (List.cons_ne_nil name loc)).symm.trans hentry
  have hlater {other : String} (hmem : other ∈ names) (hne : other ≠ name) :
      atTurn m loc (name :: taken) other =
        atTurn { m with disk := m.disk.clear (name :: loc) } loc taken other :=
    atTurn_cons (lt_of_le_ne (hfirst other hmem) hne)
  have hbelow (other : String) (hmem : other ∈ taken) : other ∈ names ∧ other ≠ name :=
    ⟨((h.mem_iff other).mp hmem).1, fun heq => hgone (heq ▸ hmem)⟩
  have hturn : atTurn m loc (name :: taken) name = m := by
    refine atTurn_first fun other hother => ?_
    rcases List.mem_cons.mp hother with rfl | hmem
    · exact String.le_refl _
    · exact hfirst other (hbelow other hmem).1
  have hread : textAtTurn dir loc m (name :: taken) name = some text := by rw [textAtTurn, hturn, htext]
  refine ⟨List.pairwise_cons.mpr ⟨fun other hmem => ?_, h.ascending⟩, fun other => ?_,
    fun other hother => ?_, ?_, h.opensAfter⟩
  · exact lt_of_le_ne (hfirst other (hbelow other hmem).1) (hbelow other hmem).2
  · by_cases hother : other = name
    · subst hother
      simp [hread]
    · rw [List.mem_cons, or_iff_right hother, List.mem_cons, or_iff_right hother, h.mem_iff]
      refine and_congr_right fun hmem => ?_
      rw [textAtTurn, textAtTurn, hlater hmem hother]
  · by_cases hname' : other = name
    · rwa [hname', hturn]
    · have hmem := (List.mem_cons.mp hother).resolve_left hname'
      rw [hlater hmem hname']
      exact h.opensAtTurn other hmem
  · have hrest : (taken.filterMap fun other =>
        (textAtTurn dir loc m (name :: taken) other).bind Request.ofYaml?) = taken.filterMap fun other =>
          (textAtTurn dir loc { m with disk := m.disk.clear (name :: loc) } taken other).bind
            Request.ofYaml? := by
      refine List.filterMap_congr fun other hmem => ?_
      rw [textAtTurn, hlater (hbelow other hmem).1 (hbelow other hmem).2, textAtTurn]
    rw [run_takeFiles_cons, run_takeFile_text? hopens hname, htext]
    simp only
    rw [h.run, List.filterMap_cons, hread, Option.bind_some, hrest]
    cases Request.ofYaml? text <;> rfl

theorem exists_drains {names : List String} (h : m.Opens dir loc)
    (hnames : ∀ name ∈ names, IsRequestFile name) (hsorted : names.Pairwise (· ≤ ·)) :
    ∃ taken, Drains dir loc m names taken := by
  induction names generalizing m with
  | nil => exact ⟨[], .nil, by simp, by simp, rfl, h⟩
  | cons name names ih =>
    rw [List.forall_mem_cons] at hnames
    rw [List.pairwise_cons] at hsorted
    cases htext : m.text? (Path.join dir name) with
    | none =>
      obtain ⟨taken, hdrains⟩ := ih h hnames.2 hsorted.2
      exact ⟨taken, hdrains.pass h hnames.1 hsorted.1 htext⟩
    | some text =>
      have hopens := h.clear (removable_of_text? h hnames.1 htext) htext
      obtain ⟨taken, hdrains⟩ := ih hopens hnames.2 hsorted.2
      exact ⟨name :: taken, hdrains.remove h hnames.1 hsorted.1 htext⟩

/-! ## The whole spool -/

/-- The names that wait are listed in ascending order. -/
theorem run_pending_of_opens (h : m.Opens dir loc) :
    (pending dir).run.run m = (.ok ((m.disk.names loc).mergeSort.filter isRequestName), m) :=
  run_pending_iff.mpr ⟨rfl, loc, h.leads, h.isDirectory, rfl⟩

theorem mem_waiting_iff {d : Disk} : name ∈ (d.names loc).mergeSort.filter isRequestName ↔
    isRequestName name = true ∧ ∃ e, d.get? (name :: loc) = some e := by
  rw [List.mem_filter, List.mem_mergeSort, mem_names_iff, and_comm]

/-- No entry of the directory has the separator in its name. -/
def HasNames (loc : Loc) (d : Disk) : Prop := ∀ name e, d.get? (name :: loc) = some e → '/' ∉ name.toList

theorem exists_run_take (h : m.Opens dir loc) (hnames : HasNames loc m.disk) :
    ∃ taken, Drains dir loc m ((m.disk.names loc).mergeSort.filter isRequestName) taken ∧
      (take dir).run.run m = (.ok (taken.filterMap fun name =>
        (textAtTurn dir loc m taken name).bind Request.ofYaml?),
        { m with disk := m.disk.without loc taken }) := by
  have hsorted := List.pairwise_mergeSort Text.decide_le_trans Text.decide_le_total (m.disk.names loc)
  obtain ⟨taken, hdrains⟩ := exists_drains h (fun name hname => by
    obtain ⟨hrequest, e, hentry⟩ := mem_waiting_iff.mp hname
    exact ⟨hrequest, hnames name e hentry⟩) ((hsorted.imp of_decide_eq_true).filter isRequestName)
  refine ⟨taken, hdrains, ?_⟩
  rw [run_take_eq, run_pending_of_opens h]
  simp only
  rw [hdrains.run]

/-- What is left cannot be read, so there is nothing to be taken a second time. -/
theorem Drains.again {taken : List String} (hnames : HasNames loc m.disk)
    (h : Drains dir loc m ((m.disk.names loc).mergeSort.filter isRequestName) taken) :
    (take dir).run.run { m with disk := m.disk.without loc taken } =
      (.ok [], { m with disk := m.disk.without loc taken }) := by
  obtain ⟨more, hmore, hrun⟩ := exists_run_take h.opensAfter fun name e hentry =>
    hnames name e (without_below m.disk loc taken _ e hentry)
  have hnone : more = [] := by
    rw [List.eq_nil_iff_forall_not_mem]
    intro name hmem
    obtain ⟨hwaits, text, hread⟩ := (hmore.mem_iff name).mp hmem
    obtain ⟨hrequest, e, hentry⟩ := mem_waiting_iff.mp hwaits
    -- It could be read at its turn the first time, since no less was there.
    have hbelow : (atTurn { m with disk := m.disk.without loc taken } loc more name).disk.Below
        (atTurn m loc taken name).disk := fun place e' h' =>
      without_filter_below m.disk loc taken _ place e' (atTurn_below _ loc more name place e' h')
    have hfirst : textAtTurn dir loc m taken name = some text := Machine.text?_of_below hbelow hread
    have htaken : name ∈ taken := (h.mem_iff name).mpr
      ⟨mem_waiting_iff.mpr ⟨hrequest, e, without_below m.disk loc taken _ e hentry⟩, text, hfirst⟩
    rw [get?_without, if_pos (List.mem_map_of_mem htaken)] at hentry
    cases hentry
  rw [hrun, hnone]
  rfl

/-- Whatever is in a spool, `take` removes the requests that can be read as text and nothing else, gives
those of them that say a request, in ascending order of their names, and finds nothing a second time. An
entry that is a file is read as its own bytes, one that is a directory never. -/
theorem take_drains (hopens : m.Opens dir loc) (hnames : HasNames loc m.disk) :
    ∃ taken after,
      (take dir).run.run m = (.ok (taken.filterMap fun name =>
        (textAtTurn dir loc m taken name).bind Request.ofYaml?), after) ∧
      taken.Pairwise (· < ·) ∧
      (∀ name, name ∈ taken ↔
        (isRequestName name = true ∧ ∃ e, m.disk.get? (name :: loc) = some e) ∧
          ∃ text, textAtTurn dir loc m taken name = some text) ∧
      (∀ name mode bytes text, isRequestName name = true →
        m.disk.get? (name :: loc) = some (.file mode bytes) →
        (textAtTurn dir loc m taken name = some text ↔ Fits dir name ∧ Text.decode? bytes = some text)) ∧
      (∀ name, isRequestName name = true → m.disk.IsDirectory (name :: loc) →
        textAtTurn dir loc m taken name = none) ∧
      after = { m with disk := after.disk } ∧
      (∀ place, after.disk.get? place =
        if place ∈ taken.map (· :: loc) then none else m.disk.get? place) ∧
      after.disk.names loc = (m.disk.names loc).filter (· ∉ taken) ∧
      (take dir).run.run after = (.ok [], after) := by
  obtain ⟨taken, hdrains, hrun⟩ := exists_run_take hopens hnames
  have hturn {name : String} {e : Entry} (hrequest : isRequestName name = true)
      (hentry : m.disk.get? (name :: loc) = some e) :
      (atTurn m loc taken name).Opens dir loc ∧ IsRequestFile name :=
    ⟨hdrains.opensAtTurn name (mem_waiting_iff.mpr ⟨hrequest, e, hentry⟩), hrequest, hnames name e hentry⟩
  refine ⟨taken, _, hrun, hdrains.ascending, fun name => ?_, fun name mode bytes text hrequest hentry => ?_,
    fun name hrequest hdir => ?_, rfl, get?_without m.disk loc taken, names_without m.disk loc taken,
    hdrains.again hnames⟩
  · rw [hdrains.mem_iff, mem_waiting_iff]
  · obtain ⟨hopens', hname⟩ := hturn hrequest hentry
    exact text?_entry_iff hopens' hname ((get?_atTurn m loc taken name).trans hentry)
  · obtain ⟨mode, hentry⟩ := hdir
    obtain ⟨hopens', hname⟩ := hturn hrequest hentry
    exact text?_entry_directory hopens' hname ⟨mode, (get?_atTurn m loc taken name).trans hentry⟩

/-- A spool with something that is no request, a request, something that is no text, and a request that is
hidden. -/
def mixed : Machine where
  disk := ⟨[(["spool"], .directory 0o700), (["a.yaml", "spool"], .privateFile "[".toUTF8),
    (["b.yaml", "spool"], .privateFile Request.backup.yaml.toUTF8),
    (["c.yaml", "spool"], .privateFile ⟨#[0xff]⟩),
    ([".d.yaml", "spool"], .privateFile Request.backup.yaml.toUTF8)]⟩

theorem take_drains_mixed : (mixed.Opens "/spool" ["spool"] ∧ HasNames ["spool"] mixed.disk) ∧
    ∃ after, (take "/spool").run.run mixed = (.ok [.backup], after) ∧
      after.disk.names ["spool"] = ["c.yaml", ".d.yaml"] ∧
      (take "/spool").run.run after = (.ok [], after) := by
  have hopens : mixed.Opens "/spool" ["spool"] := ⟨by decide +kernel, 0o700, rfl⟩
  have hlisted {name : String} (h : ∃ e, mixed.disk.get? [name, "spool"] = some e) :
      name ∈ ["a.yaml", "b.yaml", "c.yaml", ".d.yaml"] := mem_names_iff.mpr h
  have hnames : HasNames ["spool"] mixed.disk := by
    intro name e hentry
    have hall : ∀ name ∈ ["a.yaml", "b.yaml", "c.yaml", ".d.yaml"], '/' ∉ name.toList := by decide
    exact hall name (hlisted ⟨e, hentry⟩)
  refine ⟨⟨hopens, hnames⟩, ?_⟩
  obtain ⟨taken, after, hrun, hsorted, hmem, hfile, -, -, -, hleft, hagain⟩ := take_drains hopens hnames
  have hread (name : String) (bytes : ByteArray) (hrequest : isRequestName name = true)
      (hentry : mixed.disk.get? [name, "spool"] = some (.privateFile bytes)) (hfits : Fits "/spool" name) :
      textAtTurn "/spool" ["spool"] mixed taken name = Text.decode? bytes :=
    Option.ext fun text => (hfile name _ bytes text hrequest hentry).trans (and_iff_right hfits)
  have hfits : Fits "/spool" "a.yaml" ∧ Fits "/spool" "b.yaml" ∧ Fits "/spool" "c.yaml" := by
    unfold Fits IsPath
    decide +kernel
  have ha : textAtTurn "/spool" ["spool"] mixed taken "a.yaml" = some "[" :=
    (hread "a.yaml" _ (by decide +kernel) rfl hfits.1).trans (Text.decode?_toUTF8 _)
  have hb : textAtTurn "/spool" ["spool"] mixed taken "b.yaml" = some Request.backup.yaml :=
    (hread "b.yaml" _ (by decide +kernel) rfl hfits.2.1).trans (Text.decode?_toUTF8 _)
  have hc : textAtTurn "/spool" ["spool"] mixed taken "c.yaml" = none :=
    (hread "c.yaml" _ (by decide +kernel) rfl hfits.2.2).trans (by decide)
  have hd : isRequestName ".d.yaml" = false := by decide +kernel
  have htaken : taken = ["a.yaml", "b.yaml"] := by
    have hmem' (name : String) : name ∈ taken ↔ name ∈ ["a.yaml", "b.yaml"] := by
      rw [hmem]
      constructor
      · rintro ⟨⟨hrequest, hentry⟩, text, htext⟩
        have hlist := hlisted hentry
        simp only [List.mem_cons, List.not_mem_nil, or_false] at hlist ⊢
        rcases hlist with rfl | rfl | rfl | rfl
        · exact .inl rfl
        · exact .inr rfl
        · cases hc.symm.trans htext
        · cases hd.symm.trans hrequest
      · intro hname
        simp only [List.mem_cons, List.not_mem_nil, or_false] at hname
        rcases hname with rfl | rfl
        · exact ⟨⟨by decide +kernel, _, rfl⟩, _, ha⟩
        · exact ⟨⟨by decide +kernel, _, rfl⟩, _, hb⟩
    have hperm := (List.perm_ext_iff_of_nodup (hsorted.imp String.ne_of_lt) (by decide)).mpr hmem'
    exact hperm.eq_of_pairwise (fun a b _ _ hab hba => absurd hba (String.lt_asymm hab)) hsorted (by decide)
  subst htaken
  have hgiven : (["a.yaml", "b.yaml"].filterMap fun name =>
      (textAtTurn "/spool" ["spool"] mixed ["a.yaml", "b.yaml"] name).bind Request.ofYaml?) = [.backup] := by
    have hmalformed : Request.ofYaml? "[" = none := by decide +kernel
    simp [ha, hb, hmalformed, Request.ofYaml?_yaml]
  rw [hgiven] at hrun
  exact ⟨after, hrun, hleft.trans (by decide), hagain⟩

end Spool

end PoolKeeper
