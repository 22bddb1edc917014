import PoolKeeper.Disk.Refusal

/-!
# `PoolKeeper/Proofs/Files.lean` — runs of steps on the machine

What each step gives and which machine it leaves, one equation for each.
-/

set_option autoImplicit false

namespace PoolKeeper.Files

variable {ε α β : Type}

theorem run_bind (step : ExceptT ε (StateM Machine) α) (next : α → ExceptT ε (StateM Machine) β)
    (m : Machine) :
    (step >>= next).run.run m = match step.run.run m with
      | (.ok a, m') => (next a).run.run m'
      | (.error e, m') => (.error e, m') := by
  simp only [ExceptT.run_bind, StateT.run_bind]
  rcases step.run.run m with ⟨e | a, m'⟩ <;> rfl

theorem run_get (next : Machine → Files α) (m : Machine) :
    ((do next (← get)) : Files α).run.run m = (next m).run.run m := rfl

theorem run_liftM (step : StateM Machine α) (m : Machine) :
    (liftM step : Files α).run.run m = (.ok (step.run m).1, (step.run m).2) := rfl

theorem run_tryCatch (step : Files α) (handler : OsError → Files α) (m : Machine) :
    (tryCatch step handler).run.run m = match step.run.run m with
      | (.ok a, m') => (.ok a, m')
      | (.error e, m') => (handler e).run.run m' := by
  change (ExceptT.tryCatch step handler).run.run m = _
  simp only [ExceptT.tryCatch, ExceptT.run_mk, StateT.run_bind]
  rcases hrun : step.run.run m with ⟨e | a, m'⟩ <;>
    rw [show StateT.run step m = _ from hrun] <;> rfl

theorem run_outcome (step : Files α) (m : Machine) :
    (outcome step).run.run m = (.ok (step.run.run m).1, (step.run.run m).2) := rfl

theorem run_locate (follow : Bool) (path : String) (m : Machine) :
    (locate follow path).run.run m = (m.disk.resolve m.cwd follow path, m) := rfl

theorem run_found? (path : String) (m : Machine) : (found? path).run.run m =
    ((m.disk.resolve m.cwd true path).map fun loc => (m.disk.get? loc).map (loc, ·), m) := by
  rw [found?, run_bind, run_locate]
  cases m.disk.resolve m.cwd true path <;> rfl

theorem run_test (step : Files α) (p : α → Bool) (m : Machine) : (test step p).run m =
    (((step.run.run m).1.map p).toOption.getD false, (step.run.run m).2) := by
  simp only [test, StateT.run_bind]
  rcases step.run.run m with ⟨e | a, m'⟩ <;> rfl

/-- Looking for a file changes nothing. -/
theorem isThere_machine (path : String) (m : Machine) : ((isThere path).run m).2 = m := by
  rw [isThere, run_test, run_found?]

theorem run_readBytes (path : String) (m : Machine) : (readBytes path).run.run m =
    (match m.disk.resolve m.cwd true path with
      | .error e => .error e
      | .ok loc => match m.disk.get? loc with
        | none => .error .notFound
        | some (.file _ bytes) => .ok bytes
        | some _ => .error .isDirectory, m) := by
  rw [readBytes, run_bind, run_found?]
  rcases m.disk.resolve m.cwd true path with e | loc
  · rfl
  simp only [Except.map, Option.map]
  rcases m.disk.get? loc with _ | _ | _ | _ <;> rfl

theorem run_readText (path : String) (m : Machine) : (readText path).run.run m =
    (match m.disk.resolve m.cwd true path with
      | .error e => .error e
      | .ok loc => match m.disk.get? loc with
        | none => .error .notFound
        | some (.file _ bytes) => (Text.decode? bytes).elim (.error .notText) .ok
        | some _ => .error .isDirectory, m) := by
  rw [readText, run_bind, run_readBytes]
  rcases m.disk.resolve m.cwd true path with e | loc
  · rfl
  simp only
  rcases m.disk.get? loc with _ | ⟨mode, bytes⟩ | _ | _
  · rfl
  · simp only
    cases Text.decode? bytes <;> rfl
  · rfl
  · rfl

theorem run_orFault (kind : Fault.Kind) (what path : String) (step : Files α)
    (m : Machine) : (step.orFault kind what path).run.run m =
      ((step.run.run m).1.mapError fun e => ⟨kind, refusal what path e⟩, (step.run.run m).2) := by
  simp only [orFault, ExceptT.run_mk, StateT.run_bind]
  rcases step.run.run m with ⟨e | a, m'⟩ <;> rfl

theorem run_orFault_bind (kind : Fault.Kind) (what path : String) (step : Files α)
    (next : α → FileStep β) (m : Machine) : (step.orFault kind what path >>= next).run.run m =
      match step.run.run m with
        | (.ok a, m') => (next a).run.run m'
        | (.error e, m') => (.error ⟨kind, refusal what path e⟩, m') := by
  rw [run_bind, run_orFault]
  rcases step.run.run m with ⟨e | a, m'⟩ <;> rfl

end PoolKeeper.Files
