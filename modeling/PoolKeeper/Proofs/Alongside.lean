import PoolKeeper.Proofs.Ensures

/-!
# `PoolKeeper/Proofs/Alongside.lean` — two runs side by side

Some statements are about two runs of one operation: with other answers, or from another world.
`Alongside c₁ c₂ S op` says that runs of `op` in the contexts `c₁` and `c₂`, from worlds that `S` relates,
come to the same and leave worlds that `S` relates. There is one rule for each kind of step; which
relation is kept has to be shown only for the steps that look at the world.
-/

set_option autoImplicit false

namespace PoolKeeper

open Operation

variable {σ : Type} {α β : Type} {c₁ c₂ : Context σ} {S : World σ → World σ → Prop}

/-- Runs of the operation in both contexts, from related worlds, come to the same and leave related
worlds. -/
def Alongside (c₁ c₂ : Context σ) (S : World σ → World σ → Prop) (op : Operation σ α) : Prop :=
  ∀ w₁ w₂, S w₁ w₂ → (runIn c₁ op w₁).1 = (runIn c₂ op w₂).1 ∧
    S (runIn c₁ op w₁).2 (runIn c₂ op w₂).2

namespace Alongside

theorem pure (a : α) : Alongside c₁ c₂ S (pure a) := fun _ _ h => ⟨rfl, h⟩

theorem throw (f : Fault) : Alongside c₁ c₂ S (throw f : Operation σ α) := fun _ _ h => ⟨rfl, h⟩

theorem bind {op : Operation σ α} {next : α → Operation σ β} (h : Alongside c₁ c₂ S op)
    (hnext : ∀ a, Alongside c₁ c₂ S (next a)) : Alongside c₁ c₂ S (op >>= next) := by
  intro w₁ w₂ hw
  obtain ⟨hresult, hworld⟩ := h w₁ w₂ hw
  rw [runIn_bind, runIn_bind]
  rcases h₁ : runIn c₁ op w₁ with ⟨f | a, w₁'⟩ <;> rcases h₂ : runIn c₂ op w₂ with ⟨g | b, w₂'⟩ <;>
    rw [h₁, h₂] at hresult hworld <;> cases hresult
  · exact ⟨rfl, hworld⟩
  · exact hnext a w₁' w₂' hworld

theorem ite {c : Prop} [Decidable c] {op other : Operation σ α} (hthen : Alongside c₁ c₂ S op)
    (helse : Alongside c₁ c₂ S other) : Alongside c₁ c₂ S (if c then op else other) := by
  split
  · exact hthen
  · exact helse

/-- Something is done under a condition, and then the rest. -/
theorem guard {c : Prop} [Decidable c] {op : Operation σ Unit} {rest : Unit → Operation σ α}
    (hop : Alongside c₁ c₂ S op) (hrest : ∀ u, Alongside c₁ c₂ S (rest u)) :
    Alongside c₁ c₂ S (if c then op >>= rest else rest ()) := ite (bind hop hrest) (hrest ())

theorem outcome {op : Operation σ α} (h : Alongside c₁ c₂ S op) :
    Alongside c₁ c₂ S (outcome op) := by
  intro w₁ w₂ hw
  obtain ⟨hresult, hworld⟩ := h w₁ w₂ hw
  rw [runIn_outcome, runIn_outcome]
  exact ⟨congrArg Except.ok hresult, hworld⟩

theorem ofReply (reply : Except Fault α) : Alongside c₁ c₂ S (ofReply reply) := by
  cases reply with
  | ok a => exact pure a
  | error f => exact throw f

theorem forM {γ : Type} {step : γ → Operation σ Unit} (h : ∀ x, Alongside c₁ c₂ S (step x)) :
    ∀ xs : List γ, Alongside c₁ c₂ S (xs.forM step)
  | [] => pure ()
  | x :: xs => bind (h x) fun _ => forM h xs

end Alongside

end PoolKeeper
