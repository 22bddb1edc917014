import PoolKeeper.Proofs.Yaml.Standing
import PoolKeeper.Request.Basic
import PoolKeeper.Record.Form

/-!
# `PoolKeeper/Proofs/RequestText.lean` — a request in its file and back

Every request is read back from its file as it was (`Request.ofYaml?_yaml`), whatever its texts look like
and whichever fields of its configuration were left out. A record is no request
(`Request.ofYaml?_record`), so a state file that stands where requests are looked for asks for nothing.
-/

set_option autoImplicit false

namespace PoolKeeper

open Yaml

/-! ## What a request has in it -/

namespace Form

variable {depth : Nat} {name : String}

theorem EntriesModest.append {es es' : List (String × Form)} (h : EntriesModest depth es)
    (h' : EntriesModest depth es') : EntriesModest depth (es ++ es') := by
  induction es with
  | nil => exact h'
  | cons e es ih => exact ⟨h.1, h.2.1, ih h.2.2⟩

theorem optional_modest {β : Type} {write : β → Form} (o : Option β)
    (hname : PlainKind.ofText name = .text) (hwrite : ∀ b, (write b).Modest depth) :
    EntriesModest depth (Form.optional name write o) := by
  cases o with
  | none => trivial
  | some b => exact ⟨hname, hwrite b, trivial⟩

theorem unlessEmpty_modest (s : String) (hname : PlainKind.ofText name = .text) :
    EntriesModest depth (Form.unlessEmpty name s) := by
  unfold Form.unlessEmpty
  split
  · trivial
  · exact ⟨hname, trivial, trivial⟩

end Form

theorem Retention.form_modest (p : Retention) (depth : Nat) : p.form.Modest (depth + 1) := by
  have hcount (n : UInt32) : (Form.number n.toNat).Modest depth := by
    have hsize : Word.size 32 ≤ Word.size 64 := by decide
    refine ⟨by omega, ?_⟩
    exact_mod_cast Nat.lt_of_lt_of_le n.toNat_lt hsize
  refine .append (.append (.append (.append (.append ?_ ?_) ?_) ?_) ?_) ?_
  all_goals exact Form.optional_modest _ (by decide) hcount

theorem ObjectStore.form_modest (o : ObjectStore) (depth : Nat) : o.form.Modest (depth + 1) := by
  refine .append (.append ?_ (Form.optional_modest _ (by decide) fun _ => trivial)) ?_
  · exact ⟨by decide, trivial, by decide, trivial, by decide, trivial, by decide, trivial, trivial⟩
  · split
    · exact ⟨by decide, trivial, trivial⟩
    · trivial

theorem Backend.form_modest (b : Backend) (depth : Nat) : b.form.Modest (depth + 2) :=
  ⟨by decide, trivial, Form.optional_modest _ (by decide) fun o => o.form_modest depth⟩

theorem Config.form_modest (c : Config) (depth : Nat) : c.form.Modest (depth + 3) := by
  refine .append (.append ?_ (Form.unlessEmpty_modest _ (by decide)))
    (Form.unlessEmpty_modest _ (by decide))
  exact ⟨by decide, trivial, by decide, trivial, by decide, c.backend.form_modest depth, by decide,
    c.retention.form_modest (depth + 1), trivial⟩

/-! ## There and back -/

namespace Request

/-- The fields that the request has beside its kind. -/
def details : Request → List (String × Form)
  | update config => [("config", config.form)]
  | restore snapshot => [("snapshot_id", .text snapshot)]
  | backup => []

theorem form_eq (r : Request) : r.form = .fields (("kind", .text r.kind) :: r.details) := by
  cases r <;> rfl

theorem form_wellNamed (r : Request) :
    (Form.fields (("kind", .text r.kind) :: r.details)).WellNamed := by
  refine ⟨by decide, trivial, ?_⟩
  cases r with
  | update config => exact ⟨by decide, config.form_wellNamed, trivial⟩
  | restore snapshot => exact ⟨by decide, trivial, trivial⟩
  | backup => trivial

theorem details_modest (r : Request) : Form.EntriesModest (Value.maxDepth - 1) r.details := by
  cases r with
  | update config => exact ⟨by decide, config.form_modest 124, trivial⟩
  | restore snapshot => exact ⟨by decide, trivial, trivial⟩
  | backup => trivial

/-- The fields of a request of its kind make the request. -/
theorem ofKind?_details (r : Request) :
    ofKind? r.kind (Value.mapping (Value.ofEntries r.details)) = some r := by
  cases r with
  | update config =>
    have hread : Config.ofSource? (Value.ofForm config.form) = some config :=
      config.ofSource?_form Value.holds_ofForm
    have hfields : Source.fields? ["config"]
        (Value.mapping (Value.ofEntries (update config).details)) =
          some [("config", Value.ofForm config.form)] := rfl
    have hrequired : Source.required [("config", Value.ofForm config.form)] "config"
        Config.ofSource? = some config := hread
    rw [kind, ofKind?, if_pos rfl, hfields, Option.bind_eq_bind, Option.bind_some, hrequired]
    rfl
  | restore snapshot => rfl
  | backup => rfl

/-- A request is read back as it was. -/
theorem ofYaml?_yaml (r : Request) : ofYaml? r.yaml = some r := by
  have hothers : ∀ e ∈ r.details, e.1 ≠ "kind" := by
    cases r <;> simp [details]
  have hread := Value.readKinded?_yaml r.form_wellNamed (by decide) r.details_modest hothers
  rw [ofYaml?, yaml, form_eq, hread, Option.bind_eq_bind, Option.bind_some]
  exact r.ofKind?_details

/-- A record is no request. -/
theorem ofYaml?_record (r : Record) : ofYaml? r.yaml = none := by
  have hnamed : (Form.fields [("config", r.config.form), ("state", r.status.form)]).WellNamed :=
    r.form_wellNamed
  have hnone : Value.readKinded? "kind" r.yaml = none := by
    refine Value.readKinded?_other hnamed ?_
    simp only [List.forall_mem_cons, List.not_mem_nil, false_implies, implies_true, and_true]
    decide
  rw [ofYaml?, hnone]
  rfl

end Request

end PoolKeeper
