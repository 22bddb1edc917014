import PoolKeeper.Proofs.Files

/-!
# `PoolKeeper/Proofs/RelatedSteps.lean` — the same step on two machines

Two steps are related if on machines that are related they come to the same and leave machines that are
related (`Files.Related`). What is made of such steps is related again, with one rule for each way to make
it; what is asked of the machines is left open. Making directories is made of two steps, however many
rounds it takes (`Files.Related.makeDirectories`).
-/

set_option autoImplicit false

namespace PoolKeeper.Files

variable {ε α β : Type} {R : Machine → Machine → Prop}

/-- On related machines the steps come to the same and leave related machines. -/
def Related (R : Machine → Machine → Prop) (step₁ step₂ : StateM Machine α) : Prop :=
  ∀ m₁ m₂ : Machine, R m₁ m₂ →
    (step₁.run m₁).1 = (step₂.run m₂).1 ∧ R (step₁.run m₁).2 (step₂.run m₂).2

namespace Related

theorem pure (a : α) : Related R (pure a) (pure a) := fun _ _ h => ⟨rfl, h⟩

theorem bind {step₁ step₂ : ExceptT ε (StateM Machine) α} {next₁ next₂ : α → ExceptT ε (StateM Machine) β}
    (h : Related R step₁.run step₂.run) (hnext : ∀ a, Related R (next₁ a).run (next₂ a).run) :
    Related R (step₁ >>= next₁).run (step₂ >>= next₂).run := by
  intro m₁ m₂ hm
  obtain ⟨hresult, hm'⟩ := h m₁ m₂ hm
  rw [run_bind, run_bind]
  rcases h₁ : step₁.run.run m₁ with ⟨e₁ | a₁, m₁'⟩ <;> rcases h₂ : step₂.run.run m₂ with ⟨e₂ | a₂, m₂'⟩ <;>
    rw [h₁, h₂] at hresult hm' <;> cases hresult
  · exact ⟨rfl, hm'⟩
  · exact hnext a₁ m₁' m₂' hm'

theorem orFault {step₁ step₂ : Files α} (h : Related R step₁.run step₂.run) (kind : Fault.Kind)
    (what path : String) :
    Related R (step₁.orFault kind what path).run (step₂.orFault kind what path).run := by
  intro m₁ m₂ hm
  obtain ⟨hresult, hm'⟩ := h m₁ m₂ hm
  rw [run_orFault, run_orFault, hresult]
  exact ⟨rfl, hm'⟩

/-- An attempt, and something else if it is refused. -/
theorem tryCatch {step : Files α} {handler : OsError → Files α} (h : Related R step.run step.run)
    (hhandler : ∀ e, Related R (handler e).run (handler e).run) :
    Related R (tryCatch step handler).run (tryCatch step handler).run := by
  intro m₁ m₂ hm
  obtain ⟨hresult, hm'⟩ := h m₁ m₂ hm
  rw [run_tryCatch, run_tryCatch]
  rcases h₁ : step.run.run m₁ with ⟨e₁ | a₁, m₁'⟩ <;> rcases h₂ : step.run.run m₂ with ⟨e₂ | a₂, m₂'⟩ <;>
    rw [h₁, h₂] at hresult hm' <;> cases hresult
  · exact hhandler e₁ m₁' m₂' hm'
  · exact ⟨rfl, hm'⟩

theorem makeDirectories
    (hmake : ∀ path, Related R (makeDirectory path).run (makeDirectory path).run)
    (hthere : ∀ path, Related R (isDirectory path) (isDirectory path)) (path : String) :
    Related R (makeDirectories path).run (makeDirectories path).run := by
  have hensure (path : String) :
      Related R (makeDirectories.ensure path).run (makeDirectories.ensure path).run := by
    have hlift : Related R (liftM (isDirectory path) : Files Bool).run
        (liftM (isDirectory path) : Files Bool).run := by
      intro m₁ m₂ hm
      obtain ⟨hresult, hm'⟩ := hthere path m₁ m₂ hm
      rw [run_liftM, run_liftM, hresult]
      exact ⟨rfl, hm'⟩
    refine .tryCatch (hmake path) fun e => .bind hlift fun there => ?_
    cases there <;> exact .pure _
  have hgo (fuel : Nat) : ∀ path : String,
      Related R (makeDirectories.go fuel path).run (makeDirectories.go fuel path).run := by
    induction fuel with
    | zero =>
      intro path
      rw [makeDirectories.go]
      split
      · exact .pure _
      · exact hensure path
    | succ fuel ih =>
      intro path
      rw [makeDirectories.go]
      split
      · exact .pure _
      refine .tryCatch (hensure path) fun e => ?_
      split
      · split
        · exact .pure _
        · exact .bind (ih _) fun _ => hensure path
      · exact .pure _
  exact hgo _ path

end Related

end PoolKeeper.Files
