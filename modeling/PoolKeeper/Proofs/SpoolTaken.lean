import PoolKeeper.Proofs.SpoolQueue

/-!
# `PoolKeeper/Proofs/SpoolTaken.lean` — what is taken is what was handed over

Of a spool in which nothing but submitted requests waits, `take` gives these requests and no other, each
once and as it was, in the order of their names. Afterwards the disk is the one from before the first
submission, and not merely one on which the spool is empty (`Spool.run_take`). If the readings of the clock
increase, and have no more than the twenty digits that a name has for them, the order of the names is the
order of submission (`Submission.mergeSort_eq`).
-/

set_option autoImplicit false

namespace PoolKeeper

open Disk

/-! ## The order of the names -/

namespace Text

theorem decide_le_trans (a b c : String) (hab : decide (a ≤ b) = true) (hbc : decide (b ≤ c) = true) :
    decide (a ≤ c) = true :=
  decide_eq_true (String.le_trans (of_decide_eq_true hab) (of_decide_eq_true hbc))

theorem decide_le_total (a b : String) : (decide (a ≤ b) || decide (b ≤ a)) = true := by
  simpa using String.le_total a b

end Text

namespace Submission

/-- The order in which requests are taken. -/
def before (s t : Submission) : Bool := decide (s.name ≤ t.name)

variable {subs : List Submission}

theorem pairwise_mergeSort (subs : List Submission) :
    (subs.mergeSort before).Pairwise fun s t => s.name ≤ t.name := by
  have htrans (s t u : Submission) (hst : before s t = true) (htu : before t u = true) :
      before s u = true := Text.decide_le_trans s.name t.name u.name hst htu
  have htotal (s t : Submission) : (before s t || before t s) = true :=
    Text.decide_le_total s.name t.name
  exact (List.pairwise_mergeSort htrans htotal subs).imp of_decide_eq_true

/-- Requests with increasing readings of the clock are taken in the order of these. -/
theorem mergeSort_eq (hclock : (subs.map Submission.clock).Pairwise (· < ·))
    (hdigits : ∀ s ∈ subs, s.clock < Nat.pow 10 20) : subs.mergeSort before = subs := by
  refine List.mergeSort_of_pairwise ?_
  rw [List.pairwise_map] at hclock
  refine hclock.imp_of_mem fun {s t} _ ht hlt => ?_
  have hname : s.name < t.name := Spool.requestName_lt hlt (hdigits t ht)
  exact decide_eq_true (String.not_lt.mp (String.lt_asymm hname))

/-- They have different names. -/
theorem nodup_names (hclock : (subs.map Submission.clock).Pairwise (· < ·))
    (hdigits : ∀ s ∈ subs, s.clock < Nat.pow 10 20) : (subs.map Submission.name).Nodup := by
  rw [List.Nodup, List.pairwise_map]
  rw [List.pairwise_map] at hclock
  refine hclock.imp_of_mem fun {s t} _ ht hlt => ?_
  exact String.ne_of_lt (Spool.requestName_lt hlt (hdigits t ht))

end Submission

namespace Files

variable {m : Machine} {path : String} {loc : Loc}

theorem run_list (path : String) (m : Machine) : (list path).run.run m =
    (match m.disk.resolve m.cwd true path with
      | .error e => .error e
      | .ok loc => match m.disk.get? loc with
        | none => .error .notFound
        | some (.directory _) => .ok (m.disk.names loc).mergeSort
        | some _ => .error .notDirectory, m) := by
  rw [list, run_bind, run_found?]
  rcases m.disk.resolve m.cwd true path with e | loc
  · rfl
  simp only [Except.map, Option.map]
  rcases m.disk.get? loc with _ | _ | _ | _ <;> rfl

/-- What is no directory can be removed. -/
theorem run_removeFile {mode : Nat} {bytes : ByteArray}
    (hloc : m.disk.resolve m.cwd false path = .ok loc)
    (hfile : m.disk.get? loc = some (.file mode bytes)) :
    (removeFile path).run.run m = (.ok (), { m with disk := m.disk.clear loc }) := by
  rw [removeFile, run_bind, run_locate, hloc]
  simp only
  rw [run_get, hfile]
  rfl

end Files

namespace Spool

variable {m : Machine} {dir : String} {loc : Loc} {d : Disk} {files : List (String × ByteArray)}

/-! ## One request -/

/-- What comes after the file was read. -/
theorem run_takeFile_eq (dir name : String) (m : Machine) : (takeFile dir name).run m =
    match (Files.readText (Path.join dir name)).run.run m with
      | (.error _, m₁) => (none, m₁)
      | (.ok text, m₁) => match (Files.removeFile (Path.join dir name)).run.run m₁ with
        | (.error _, m₂) => (none, m₂)
        | (.ok _, m₂) => (Request.ofYaml? text, m₂) := by
  rw [takeFile, StateT.run_bind]
  rcases (Files.readText (Path.join dir name)).run.run m with ⟨e | text, m₁⟩
  · rfl
  change StateT.run ((Files.removeFile (Path.join dir name)).run >>= _) m₁ = _
  rw [StateT.run_bind]
  simp only
  rcases (Files.removeFile (Path.join dir name)).run.run m₁ with ⟨e | _, m₂⟩
  · rfl
  · rfl

theorem run_takeFile {name text : String} {bytes : ByteArray} {front back : List (String × ByteArray)}
    (h : At d m.cwd dir loc) (hfiles : Stacked d loc (front ++ (name, bytes) :: back) m.disk)
    (hname : isRequestName name = true) (hslash : '/' ∉ name.toList) (hfits : Fits dir name)
    (hdecode : Text.decode? bytes = some text) : (takeFile dir name).run m =
      (Request.ofYaml? text, { m with disk := m.disk.clear (name :: loc) }) := by
  have hmem : (name, bytes) ∈ front ++ (name, bytes) :: back := by simp
  have hloc (follow : Bool) : m.disk.resolve m.cwd follow (Path.join dir name) = .ok (name :: loc) :=
    (resolve_name h hfiles hname hslash (hfiles.vacant _ hmem)).mpr hfits
  have hfound : m.disk.get? (name :: loc) = some (.privateFile bytes) := hfiles.found _ hmem
  have hread : (Files.readText (Path.join dir name)).run.run m = (.ok text, m) := by
    refine Files.run_readText_text ?_
    rw [Files.text?_of_file (hloc true) hfound, hdecode]
  rw [run_takeFile_eq, hread]
  simp only
  rw [Files.run_removeFile (hloc false) hfound]

/-! ## All that wait -/

/-- Taking several files is taking one after the other. -/
theorem run_takeFiles_cons (dir name : String) (names : List String) (m : Machine) :
    (takeFiles dir (name :: names)).run m =
      (((takeFile dir name).run m).1.toList ++ ((takeFiles dir names).run ((takeFile dir name).run m).2).1,
        ((takeFiles dir names).run ((takeFile dir name).run m).2).2) := by
  rw [takeFiles, StateT.run_bind]
  generalize (takeFile dir name).run m = taken
  obtain ⟨first, m₁⟩ := taken
  change StateT.run (takeFiles dir names >>= _) m₁ = _
  rw [StateT.run_bind]
  generalize (takeFiles dir names).run m₁ = more
  rfl

theorem run_takeFiles {taken : List Submission} (h : At d m.cwd dir loc)
    (hfiles : Stacked d loc files m.disk) (hperm : files.Perm (taken.map Submission.file))
    (hfits : ∀ s ∈ taken, Fits dir s.name) : (takeFiles dir (taken.map Submission.name)).run m =
      (taken.map Submission.request, { m with disk := d }) := by
  -- The files of what is still to be taken are the files that are left, in whatever order they came.
  induction taken generalizing m files with
  | nil =>
    rw [List.map_nil, List.perm_nil] at hperm
    subst hperm
    rw [← hfiles.eq_of_nil]
    rfl
  | cons s taken ih =>
    rw [List.forall_mem_cons] at hfits
    rw [List.map_cons] at hperm
    obtain ⟨front, back, rfl⟩ := List.append_of_mem (hperm.symm.subset List.mem_cons_self)
    have hrest : (front ++ back).Perm (taken.map Submission.file) :=
      (List.perm_middle.symm.trans hperm).cons_inv
    have hfirst := run_takeFile h hfiles isRequestName_requestName noSlash_requestName hfits.1
      (Text.decode?_toUTF8 s.request.yaml)
    rw [Request.ofYaml?_yaml] at hfirst
    rw [List.map_cons, run_takeFiles_cons, hfirst]
    simp only
    rw [ih (m := { m with disk := m.disk.clear (s.name :: loc) }) h hfiles.clear hrest hfits.2]
    rfl

/-- What waits can be told if and only if the path leads to a directory. -/
theorem run_pending_iff {names : List String} {m' : Machine} :
    (pending dir).run.run m = (.ok names, m') ↔ m' = m ∧ ∃ loc,
      m.disk.resolve m.cwd true dir = .ok loc ∧ m.disk.IsDirectory loc ∧
      names = (m.disk.names loc).mergeSort.filter isRequestName := by
  rw [pending, Files.run_bind, Files.run_list]
  constructor
  · intro h
    rcases hloc : m.disk.resolve m.cwd true dir with e | loc
    · rw [hloc] at h
      cases h
    rw [hloc] at h
    simp only at h
    rcases hentry : m.disk.get? loc with _ | _ | mode | _ <;> rw [hentry] at h <;> cases h
    exact ⟨rfl, loc, rfl, ⟨mode, hentry⟩, rfl⟩
  · rintro ⟨rfl, loc, hloc, ⟨mode, hentry⟩, rfl⟩
    rw [hloc]
    simp only [hentry]
    rfl

/-- What waits are the submitted requests, in the order of their names. -/
theorem pending_eq {subs : List Submission} (hempty : Empty d loc)
    (hfiles : Stacked d loc files m.disk) (hperm : files.Perm (subs.map Submission.file)) :
    (m.disk.names loc).mergeSort.filter isRequestName =
      (subs.mergeSort Submission.before).map Submission.name := by
  have hold : (d.names loc).filter isRequestName = [] := by
    rw [List.filter_eq_nil_iff]
    intro name hname hrequest
    exact not_mem_names (hempty name hrequest) hname
  have hnew : (files.map (·.1)).filter isRequestName = files.map (·.1) := by
    rw [List.filter_eq_self]
    intro name hname
    obtain ⟨f, hf, rfl⟩ := List.mem_map.mp hname
    obtain ⟨s, -, rfl⟩ := List.mem_map.mp (hperm.subset hf)
    exact isRequestName_requestName
  have hnames : ((m.disk.names loc).mergeSort.filter isRequestName).Perm (subs.map Submission.name) := by
    have hsorted := List.mergeSort_perm (m.disk.names loc) fun a b => decide (a ≤ b)
    have hsame := (hsorted.trans hfiles.names).filter isRequestName
    rw [List.filter_append, hnew, hold, List.append_nil] at hsame
    have hsubs := hperm.map (·.1)
    rw [List.map_map] at hsubs
    exact hsame.trans hsubs
  have hlisted : ((m.disk.names loc).mergeSort.filter isRequestName).Pairwise (· ≤ ·) := by
    have hsorted := List.pairwise_mergeSort Text.decide_le_trans Text.decide_le_total (m.disk.names loc)
    exact (hsorted.imp of_decide_eq_true).filter _
  have htaken : ((subs.mergeSort Submission.before).map Submission.name).Pairwise (· ≤ ·) := by
    rw [List.pairwise_map]
    exact Submission.pairwise_mergeSort subs
  -- Two sorted lists with the same members are one list.
  exact List.Perm.eq_of_pairwise (fun a b _ _ => String.le_antisymm) hlisted htaken
    (hnames.trans ((List.mergeSort_perm _ _).map _).symm)

/-- What comes after the directory was read. -/
theorem run_take_eq (dir : String) (m : Machine) : (take dir).run.run m =
    match (pending dir).run.run m with
      | (.error .notFound, m₁) => (.ok [], m₁)
      | (.error e, m₁) => (.error ⟨.state, Files.refusal "read" dir e⟩, m₁)
      | (.ok names, m₁) => (.ok ((takeFiles dir names).run m₁).1, ((takeFiles dir names).run m₁).2) := by
  have hpending : (liftM (pending dir).run : FileStep _).run.run m =
      (.ok ((pending dir).run.run m).1, ((pending dir).run.run m).2) := rfl
  rw [take, Files.run_bind, hpending]
  rcases (pending dir).run.run m with ⟨e | names, m₁⟩
  · cases e <;> rfl
  · rfl

/-- The submitted requests are taken, each once and in the order of their names, and nothing is left of
them. -/
theorem run_take {subs : List Submission} (h : At d m.cwd dir loc) (hempty : Empty d loc)
    (hfiles : Stacked d loc files m.disk) (hperm : files.Perm (subs.map Submission.file))
    (hfits : ∀ s ∈ subs, Fits dir s.name) : (take dir).run.run m =
      (.ok ((subs.mergeSort Submission.before).map Submission.request), { m with disk := d }) := by
  have hsorted := List.mergeSort_perm subs Submission.before
  have htaken := run_takeFiles h hfiles (hperm.trans (hsorted.map _).symm) fun s hs =>
    hfits s (hsorted.subset hs)
  have hpending : (pending dir).run.run m =
      (.ok ((subs.mergeSort Submission.before).map Submission.name), m) := by
    rw [run_pending_iff, ← pending_eq hempty hfiles hperm]
    exact ⟨rfl, loc, hfiles.ways.resolve h.leads h.isDirectory,
      hfiles.ways.directory h.isDirectory, rfl⟩
  rw [run_take_eq, hpending]
  simp only
  rw [htaken]

end Spool

end PoolKeeper
