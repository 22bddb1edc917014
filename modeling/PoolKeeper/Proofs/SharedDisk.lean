import PoolKeeper.Proofs.RelatedSteps
import PoolKeeper.Proofs.SaveLoad

/-!
# `PoolKeeper/Proofs/SharedDisk.lean` — several processes on one disk

To make a directory and to set its permissions, a process needs the disk and the place that paths start
from. Processes that have these in common (`Machine.Share`) come to the same, whatever else they are, and
nothing else of the machine changes (`Files.makeDirectories_disk`).
-/

set_option autoImplicit false

namespace PoolKeeper

/-- The machines have one disk, and paths start from one place on it. -/
structure Machine.Share (m n : Machine) : Prop where
  disk : n.disk = m.disk
  cwd : n.cwd = m.cwd

namespace Files

variable (path : String)

theorem run_mode (m : Machine) : (mode path).run.run m =
    (match m.disk.resolve m.cwd true path with
      | .error e => .error e
      | .ok loc => match m.disk.get? loc with
        | some (.file mode _) | some (.directory mode) => .ok mode
        | _ => .error .notFound, m) := by
  rw [mode, run_bind, run_found?]
  rcases m.disk.resolve m.cwd true path with e | loc
  · rfl
  simp only [Except.map, Option.map]
  rcases m.disk.get? loc with _ | _ | _ | _ <;> rfl

theorem run_setMode (mode : Nat) (m : Machine) : (setMode path mode).run.run m =
    match m.disk.resolve m.cwd true path with
      | .error e => (.error e, m)
      | .ok loc => match m.disk.get? loc with
        | some (.file _ bytes) => (.ok (), { m with disk := m.disk.put loc (.file mode bytes) })
        | some (.directory _) => (.ok (), { m with disk := m.disk.put loc (.directory mode) })
        | _ => (.error .notFound, m) := by
  rw [setMode, run_bind, run_found?]
  rcases m.disk.resolve m.cwd true path with e | loc
  · rfl
  simp only [Except.map, Option.map]
  rcases m.disk.get? loc with _ | _ | _ | _ <;> rfl

/-! ## Processes that share a disk -/

theorem share_makeDirectory :
    Related Machine.Share (makeDirectory path).run (makeDirectory path).run := by
  intro m n h
  rw [makeDirectory, putNew, run_bind, run_bind, run_locate, run_locate, h.disk, h.cwd]
  cases m.disk.resolve m.cwd false (Path.dropSlashes path) with
  | error e => exact ⟨rfl, h⟩
  | ok loc =>
    simp only
    split
    · exact ⟨rfl, h⟩
    · rw [run_get, run_get, h.disk]
      cases m.disk.get? loc with
      | some _ => exact ⟨rfl, h⟩
      | none => exact ⟨rfl, congrArg (·.put loc .newDirectory) h.disk, h.cwd⟩

theorem share_isDirectory : Related Machine.Share (isDirectory path) (isDirectory path) := by
  intro m n h
  rw [isDirectory, run_test, run_test, run_found?, run_found?, h.disk, h.cwd]
  exact ⟨rfl, h⟩

theorem share_makeDirectories :
    Related Machine.Share (makeDirectories path).run (makeDirectories path).run :=
  .makeDirectories share_makeDirectory share_isDirectory path

theorem share_mode : Related Machine.Share (mode path).run (mode path).run := by
  intro m n h
  rw [run_mode, run_mode, h.disk, h.cwd]
  exact ⟨rfl, h⟩

theorem share_setMode (mode : Nat) :
    Related Machine.Share (setMode path mode).run (setMode path mode).run := by
  intro m n h
  rw [run_setMode, run_setMode, h.disk, h.cwd]
  cases m.disk.resolve m.cwd true path with
  | error e => exact ⟨rfl, h⟩
  | ok loc =>
    simp only
    rcases m.disk.get? loc with _ | _ | _ | _
    · exact ⟨rfl, h⟩
    · exact ⟨rfl, rfl, rfl⟩
    · exact ⟨rfl, rfl, rfl⟩
    · exact ⟨rfl, h⟩

/-! ## What else they change -/

/-- Making directories changes nothing of the machine but its disk. -/
theorem makeDirectories_disk (m : Machine) : ((makeDirectories path).run.run m).2 =
    { m with disk := ((makeDirectories path).run.run m).2.disk } := by
  refine makeDirectories_keeps (P := fun m' => m' = { m with disk := m'.disk }) ?_ path rfl
  intro path m' h
  rcases run_putNew path .newDirectory m' with ⟨e, hrun⟩ | ⟨loc, -, -, hrun⟩
  · rw [makeDirectory, hrun]
    exact h
  · rw [makeDirectory, hrun]
    rw [h]

/-- Neither does setting permissions. -/
theorem setMode_disk (mode : Nat) (m : Machine) : ((setMode path mode).run.run m).2 =
    { m with disk := ((setMode path mode).run.run m).2.disk } := by
  rw [run_setMode]
  cases m.disk.resolve m.cwd true path with
  | error e => rfl
  | ok loc =>
    simp only
    rcases m.disk.get? loc with _ | _ | _ | _ <;> rfl

end Files

end PoolKeeper
