import PoolKeeper.Proofs.Life
import PoolKeeper.Proofs.RecordText
import PoolKeeper.Proofs.SavedFile

/-!
# `PoolKeeper/Proofs/Reopening.lean` — a record that was saved is opened again

A save that is not refused leaves the complete text at the place that its path leads to. Whoever follows
the same path afterwards takes the same steps, because one place changed and nothing but a file was put
there; so the walk ends at the new file, or it meets it too early and is refused because a file is no
directory (`Disk.Walks.walk_put`). The second happens if the path goes through the very link that the
save replaced. It never happens that an older text is read, or none.

What a new process makes of the text is `Record.reopened`.
-/

set_option autoImplicit false

namespace PoolKeeper

variable {m m' : Machine} {path : String} {r : Record}

/-! ## The file after a save -/

namespace Disk

variable {d : Disk}

theorem resolve_eq_walk {cwd : Loc} {path : String} (follow : Bool) (hpath : IsPath path)
    (hstart : d.stands (start cwd path)) :
    d.resolve cwd follow path = d.walk follow maxLinks (start cwd path) (Path.steps path) := by
  obtain ⟨hnul, hempty, hlong⟩ := hpath
  unfold start at hstart ⊢
  simp only [resolve, hnul, hempty, hstart, Nat.not_lt.mpr hlong, Bool.false_eq_true,
    if_false, if_true]

end Disk

def Machine.Reaches (m : Machine) (path : String) : Prop :=
  ∃ loc, m.disk.resolve m.cwd true path = .ok loc

/-- A link of the first machine is a file on the second. -/
def Machine.LosesLink (m m' : Machine) : Prop :=
  ∃ loc target mode bytes, m.disk.get? loc = some (.link target) ∧
    m'.disk.get? loc = some (.file mode bytes)

/-- Where a file was put in place of what was there, the path leads to it, or through it. -/
theorem Files.resolve_replace {bytes : ByteArray}
    (h : (replace path bytes).run.run m = (.ok (), m')) :
    (∃ loc mode, m'.disk.resolve m'.cwd true path = .ok loc ∧
      m'.disk.get? loc = some (.file mode bytes)) ∨
      m.LosesLink m' ∧ m'.disk.resolve m'.cwd true path = .error .notDirectory := by
  rcases run_replace path bytes m with ⟨e, hrun, -⟩ | ⟨loc, hname, hloc, hdir, hrun⟩
  · cases hrun.symm.trans h
  cases hrun.symm.trans h
  obtain ⟨hpath, hstart, hwalks⟩ := Disk.resolve_eq_ok_iff.mp hloc
  have hresolve := Disk.resolve_eq_walk true hpath
    (Disk.Walks.stands_of_elsewhere hstart hdir fun hne => Disk.get?_put_of_ne hne (.file 0o600 bytes))
  have hne := Disk.ne_root hdir
  rcases hwalks.walk_put hstart hdir hname with hend | ⟨⟨target, -, -, hlink, -⟩, hend⟩
  · exact .inl ⟨loc, 0o600, hresolve.trans hend, Disk.get?_put hne _⟩
  · exact .inr ⟨⟨loc, target, 0o600, bytes, hlink, Disk.get?_put hne _⟩, hresolve.trans hend⟩

/-- A save that succeeds made the directories, and then put the file in place. -/
theorem Form.of_save_ok {f : Form} (h : (f.save path).run.run m = (.ok (), m')) :
    ∃ m₁, (Files.makeDirectories (Path.directory path)).run.run m = (.ok (), m₁) ∧
      (Files.replace path f.yaml.toUTF8).run.run m₁ = (.ok (), m') := by
  rw [save_eq, Files.run_bind, Files.run_orFault] at h
  rcases hmade : (Files.makeDirectories (Path.directory path)).run.run m with ⟨e | _, m₁⟩
  · rw [hmade] at h
    cases h
  · rw [hmade] at h
    change ((Files.replace path f.yaml.toUTF8).orFault .state "rename" path).run.run m₁ = _ at h
    rw [Files.run_orFault] at h
    refine ⟨m₁, rfl, ?_⟩
    rcases hrun : (Files.replace path f.yaml.toUTF8).run.run m₁ with ⟨e | _, m₂⟩
    · rw [hrun] at h
      cases h
    · rw [hrun] at h
      cases h
      rfl

/-- What a reader of the path finds after a form was saved: the form, or a file where a directory should
be. -/
theorem Form.readText_save {f : Form} (h : (f.save path).run.run m = (.ok (), m')) :
    (Files.readText path).run.run m' = (.ok f.yaml, m') ∨
      ¬ m'.Reaches path ∧ (Files.readText path).run.run m' = (.error .notDirectory, m') := by
  obtain ⟨m₁, -, hrun⟩ := Form.of_save_ok h
  rw [Files.run_readText]
  rcases Files.resolve_replace hrun with ⟨loc, mode, hloc, hfile⟩ | ⟨-, hnone⟩
  · refine .inl ?_
    rw [hloc]
    simp only [hfile, Text.decode?_toUTF8, Option.elim]
  · refine .inr ⟨?_, by rw [hnone]⟩
    rintro ⟨loc, hloc⟩
    cases hnone.symm.trans hloc

/-! ## The record after a restart -/

namespace Record

/-- The record as the process after the one that saved it has it. -/
def reopened (r : Record) : Record := r.recovered.setConnected false

theorem reopened_eq (r : Record) : r.reopened = { r with status := { r.status with
    connected := false
    inProgress := false
    progress := if r.status.inProgress then 0 else r.status.progress
    lastStatus := if r.status.inProgress then "Interrupted: " ++ r.status.lastStatus
      else r.status.lastStatus } } := by
  unfold reopened recovered
  cases hbusy : r.status.inProgress with
  | true => rfl
  | false => simp [setConnected, hbusy]

/-- A cycle is interrupted once. -/
theorem reopened_reopened (r : Record) : r.reopened.reopened = r.reopened := by
  rw [reopened_eq r.reopened, reopened_eq r]
  rfl

theorem run_load_of_readText (h : (Files.readText path).run.run m = (.ok r.yaml, m))
    (htimely : r.status.Timely) : (load path).run.run m = (.ok r.recovered, m) := by
  rw [run_load, h, loaded, ofYaml?_yaml_eq htimely]
  rfl

end Record

namespace Service

/-- Opening a file that a record was saved in gives that record, without its session and with the
slot free. -/
theorem openRecord_of_readText (h : (Files.readText path).run.run m = (.ok r.yaml, m))
    (htimely : r.status.Timely) : (openRecord path).run.run m = (.ok r.reopened, m) := by
  rw [openRecord_run, Record.run_load_of_readText h htimely]
  rfl

/-- After a record was saved, a new process finds it as it has to be, or finds no file where the path
leads and says so. -/
theorem openRecord_save (htimely : r.status.Timely) (h : (r.save path).run.run m = (.ok (), m')) :
    (openRecord path).run.run m' = (.ok r.reopened, m') ∨
      ¬ m'.Reaches path ∧ ∃ f, (openRecord path).run.run m' = (.error f, m') := by
  rcases Form.readText_save h with hread | ⟨hreaches, hread⟩
  · exact .inl (openRecord_of_readText hread htimely)
  · refine .inr ⟨hreaches, ⟨.state, Files.refusal "read" path .notDirectory⟩, ?_⟩
    rw [openRecord_run, Record.run_load, hread]
    rfl

end Service

end PoolKeeper
