import PoolKeeper.Proofs.Ensures

/-!
# `PoolKeeper/Proofs/InStep.lean` — two runs that go through the same steps

Some statements are about two runs of two operations that are not quite the same, on worlds that are not
quite the same. `InStep c₁ c₂ S R op₁ op₂` says that from worlds that `S` relates the two runs come to
values that `R` relates, or to one and the same fault, and leave worlds that `S` relates. There is a rule
for each way to put operations together; the steps that look at a world depend on what `S` is.
-/

set_option autoImplicit false

namespace PoolKeeper

open Operation

variable {σ τ : Type} {α β α' β' : Type} {c₁ : Context σ} {c₂ : Context τ}
  {S : World σ → World τ → Prop} {R : α → β → Prop} {Q : α' → β' → Prop}

/-- The ends of two runs: values that `R` relates, or the same fault. -/
inductive SameEnd (R : α → β → Prop) : Except Fault α → Except Fault β → Prop
  | ok {a : α} {b : β} (h : R a b) : SameEnd R (.ok a) (.ok b)
  | error (f : Fault) : SameEnd R (.error f) (.error f)

theorem SameEnd.eq {x y : Except Fault α} (h : SameEnd Eq x y) : x = y := by
  cases h with
  | ok h => rw [h]
  | error f => rfl

theorem SameEnd.mono {R' : α → β → Prop} {x : Except Fault α} {y : Except Fault β} (h : SameEnd R x y)
    (hR : ∀ a b, R a b → R' a b) : SameEnd R' x y := by
  cases h with
  | ok h => exact .ok (hR _ _ h)
  | error f => exact .error f

/-- From related worlds the runs come to related ends and leave related worlds. -/
def InStep (c₁ : Context σ) (c₂ : Context τ) (S : World σ → World τ → Prop) (R : α → β → Prop)
    (op₁ : Operation σ α) (op₂ : Operation τ β) : Prop :=
  ∀ w₁ w₂, S w₁ w₂ → SameEnd R (runIn c₁ op₁ w₁).1 (runIn c₂ op₂ w₂).1 ∧
    S (runIn c₁ op₁ w₁).2 (runIn c₂ op₂ w₂).2

namespace InStep

variable {op₁ : Operation σ α} {op₂ : Operation τ β} {next₁ : α → Operation σ α'}
  {next₂ : β → Operation τ β'}

theorem pure {a : α} {b : β} (h : R a b) : InStep c₁ c₂ S R (pure a) (pure b) := fun _ _ hw =>
  ⟨.ok h, hw⟩

/-- The same value. -/
theorem same (a : α) : InStep c₁ c₂ S Eq (Pure.pure a) (Pure.pure a) := pure rfl

theorem throw (f : Fault) : InStep c₁ c₂ S R (throw f : Operation σ α) (throw f : Operation τ β) :=
  fun _ _ hw => ⟨.error f, hw⟩

theorem bind (h : InStep c₁ c₂ S R op₁ op₂)
    (hnext : ∀ a b, R a b → InStep c₁ c₂ S Q (next₁ a) (next₂ b)) :
    InStep c₁ c₂ S Q (op₁ >>= next₁) (op₂ >>= next₂) := by
  intro w₁ w₂ hw
  obtain ⟨hend, hworld⟩ := h w₁ w₂ hw
  rw [runIn_bind, runIn_bind]
  rcases h₁ : runIn c₁ op₁ w₁ with ⟨f | a, w₁'⟩ <;> rcases h₂ : runIn c₂ op₂ w₂ with ⟨g | b, w₂'⟩ <;>
    rw [h₁, h₂] at hend hworld <;> cases hend
  · exact ⟨.error f, hworld⟩
  · exact hnext a b ‹R a b› w₁' w₂' hworld

theorem mono {R' : α → β → Prop} (h : InStep c₁ c₂ S R op₁ op₂) (hR : ∀ a b, R a b → R' a b) :
    InStep c₁ c₂ S R' op₁ op₂ := fun w₁ w₂ hw =>
  ⟨(h w₁ w₂ hw).1.mono hR, (h w₁ w₂ hw).2⟩

/-- Both runs come to the same value and go on with it. -/
theorem seq {op₁ : Operation σ α} {op₂ : Operation τ α} {next₂ : α → Operation τ β'}
    (h : InStep c₁ c₂ S Eq op₁ op₂) (hnext : ∀ a, InStep c₁ c₂ S Q (next₁ a) (next₂ a)) :
    InStep c₁ c₂ S Q (op₁ >>= next₁) (op₂ >>= next₂) := by
  refine h.bind ?_
  rintro a _ rfl
  exact hnext a

theorem ite {p q : Prop} [Decidable p] [Decidable q] {other₁ : Operation σ α} {other₂ : Operation τ β}
    (hpq : p ↔ q) (hthen : InStep c₁ c₂ S R op₁ op₂) (helse : InStep c₁ c₂ S R other₁ other₂) :
    InStep c₁ c₂ S R (if p then op₁ else other₁) (if q then op₂ else other₂) := by
  by_cases hp : p
  · rw [if_pos hp, if_pos (hpq.mp hp)]
    exact hthen
  · rw [if_neg hp, if_neg (mt hpq.mpr hp)]
    exact helse

/-- Something is done under a condition, and then the rest. -/
theorem guard {p q : Prop} [Decidable p] [Decidable q] {op₁ : Operation σ Unit} {op₂ : Operation τ Unit}
    {rest₁ : Unit → Operation σ α'} {rest₂ : Unit → Operation τ β'} (hpq : p ↔ q)
    (hop : InStep c₁ c₂ S Eq op₁ op₂) (hrest : ∀ u, InStep c₁ c₂ S Q (rest₁ u) (rest₂ u)) :
    InStep c₁ c₂ S Q (if p then op₁ >>= rest₁ else rest₁ ()) (if q then op₂ >>= rest₂ else rest₂ ()) :=
  ite hpq (hop.seq hrest) (hrest ())

/-- What came of both runs is the same. -/
theorem outcome_eq {op₁ : Operation σ α} {op₂ : Operation τ α} (h : InStep c₁ c₂ S Eq op₁ op₂) :
    InStep c₁ c₂ S Eq (Operation.outcome op₁) (Operation.outcome op₂) := fun w₁ w₂ hw =>
  ⟨.ok (h w₁ w₂ hw).1.eq, (h w₁ w₂ hw).2⟩

theorem ofReply (reply : Except Fault α) :
    InStep c₁ c₂ S Eq (Operation.ofReply reply) (Operation.ofReply reply) := by
  cases reply with
  | ok a => exact same a
  | error f => exact throw f

theorem settings (h : c₂.settings = c₁.settings) :
    InStep c₁ c₂ S Eq Operation.settings Operation.settings := fun _ _ hw => ⟨.ok h.symm, hw⟩

theorem forM {γ : Type} {step₁ : γ → Operation σ Unit} {step₂ : γ → Operation τ Unit}
    (h : ∀ x, InStep c₁ c₂ S Eq (step₁ x) (step₂ x)) :
    ∀ xs : List γ, InStep c₁ c₂ S Eq (xs.forM step₁) (xs.forM step₂)
  | [] => same ()
  | x :: xs => (h x).seq fun _ => forM h xs

end InStep

end PoolKeeper
