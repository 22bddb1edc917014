import PoolKeeper.Proofs.RelatedSteps
import PoolKeeper.Proofs.SavedFile
import PoolKeeper.Service.Restore

/-!
# `PoolKeeper/Proofs/SameShape.lean` — machines that differ in what is in their files

The service writes files, makes directories and takes them away, and hardly ever looks into a file. So two
machines with the same things in the same places are all the same to it, whatever is in the files
(`Machine.Alike`): each step of its file work comes to the same on both, and leaves them alike.
-/

set_option autoImplicit false

namespace PoolKeeper

/-- The same is in a place, up to what is in a file. -/
inductive Entry.Same : Option Entry → Option Entry → Prop
  | nothing : Same none none
  | file (mode : Nat) (bytes₁ bytes₂ : ByteArray) :
    Same (some (.file mode bytes₁)) (some (.file mode bytes₂))
  | directory (mode : Nat) : Same (some (.directory mode)) (some (.directory mode))
  | link (target : String) : Same (some (.link target)) (some (.link target))

/-- Something is the same as itself. -/
theorem Entry.Same.refl (e : Option Entry) : Entry.Same e e := by
  rcases e with _ | _ | _ | _ <;> constructor

/-- The same is in all places. -/
def Disk.Alike (d₁ d₂ : Disk) : Prop := ∀ loc, Entry.Same (d₁.get? loc) (d₂.get? loc)

/-- The disks are alike, and relative paths start from the same place. -/
structure Machine.Alike (m₁ m₂ : Machine) : Prop where
  cwd : m₁.cwd = m₂.cwd
  disk : m₁.disk.Alike m₂.disk

theorem Machine.Alike.refl (m : Machine) : m.Alike m := ⟨rfl, fun _ => .refl _⟩

/-! ## Walking -/

namespace Disk

variable {d₁ d₂ : Disk}

theorem Alike.walk (h : d₁.Alike d₂) (follow : Bool) (links : Nat) (dir : Loc) (steps : List String) :
    d₁.walk follow links dir steps = d₂.walk follow links dir steps := by
  induction links using Nat.strongRecOn generalizing dir steps with
  | ind links ihlinks =>
    induction steps generalizing dir with
    | nil => rw [walk_nil, walk_nil]
    | cons name rest ih =>
      by_cases hhere : name = "."
      · rw [hhere, walk_here, walk_here, ih]
      by_cases hup : name = ".."
      · rw [hup, walk_up, walk_up, ih]
      rw [walk_name ⟨hhere, hup⟩, walk_name ⟨hhere, hup⟩]
      have hentry := h (name :: dir)
      generalize d₁.get? (name :: dir) = e₁ at hentry ⊢
      generalize d₂.get? (name :: dir) = e₂ at hentry ⊢
      cases hentry with
      | nothing => rfl
      | file => rfl
      | directory => simp only [ih]
      | link target =>
        cases links with
        | zero => rfl
        | succ links => simp only [ihlinks links (Nat.lt_succ_self _)]

theorem Alike.stands (h : d₁.Alike d₂) (loc : Loc) : d₁.stands loc = d₂.stands loc := by
  induction loc with
  | nil => rfl
  | cons name dir ih =>
    rw [Disk.stands, Disk.stands, ih]
    have hentry := h (name :: dir)
    generalize d₁.get? (name :: dir) = e₁ at hentry ⊢
    generalize d₂.get? (name :: dir) = e₂ at hentry ⊢
    cases hentry <;> rfl

theorem Alike.put (h : d₁.Alike d₂) (loc : Loc) {e₁ e₂ : Entry} (he : Entry.Same (some e₁) (some e₂)) :
    (d₁.put loc e₁).Alike (d₂.put loc e₂) := by
  intro loc'
  by_cases hroot : loc' = []
  · rw [hroot, get?_root, get?_root]
    exact .refl _
  by_cases hloc : loc' = loc
  · subst hloc
    rwa [get?_put hroot, get?_put hroot]
  · rw [get?_put_of_ne hloc, get?_put_of_ne hloc]
    exact h loc'

theorem get?_clearTree (d : Disk) (loc loc' : Loc) :
    (d.clearTree loc).get? loc' = if loc' = [] ∨ !loc.isSuffixOf loc' then d.get? loc' else none := by
  have hlookup := lookup_filter (fun x => !loc.isSuffixOf x) d.entries loc'
  by_cases hroot : loc' = []
  · simp [get?, hroot]
  · simp [get?, clearTree, hlookup, hroot]

theorem Alike.clearTree (h : d₁.Alike d₂) (loc : Loc) : (d₁.clearTree loc).Alike (d₂.clearTree loc) := by
  intro loc'
  rw [get?_clearTree, get?_clearTree]
  split
  · exact h loc'
  · exact .nothing

end Disk

theorem Machine.Alike.resolve {m₁ m₂ : Machine} (h : m₁.Alike m₂) (follow : Bool) (path : String) :
    m₁.disk.resolve m₁.cwd follow path = m₂.disk.resolve m₂.cwd follow path := by
  simp only [Disk.resolve, h.cwd, h.disk.walk, h.disk.stands]

/-! ## Steps -/

namespace Files

/-- On machines that are alike the steps come to the same and leave machines that are alike. -/
abbrev SameSteps {α : Type} (step₁ step₂ : StateM Machine α) : Prop := Related Machine.Alike step₁ step₂

variable (path : String)

theorem same_test_found (p : Option (Loc × Entry) → Bool)
    (hp : ∀ loc e₁ e₂, Entry.Same e₁ e₂ → p (e₁.map (loc, ·)) = p (e₂.map (loc, ·))) :
    SameSteps (test (found? path) p) (test (found? path) p) := by
  intro m₁ m₂ hm
  rw [run_test, run_test, run_found?, run_found?, hm.resolve]
  refine ⟨?_, hm⟩
  cases m₂.disk.resolve m₂.cwd true path with
  | error e => rfl
  | ok loc => simp only [Except.map, Except.toOption, Option.getD, hp loc _ _ (hm.disk loc)]

theorem same_isThere : SameSteps (isThere path) (isThere path) :=
  same_test_found path _ fun _ _ _ h => by cases h <;> rfl

theorem same_isDirectory : SameSteps (isDirectory path) (isDirectory path) :=
  same_test_found path _ fun _ _ _ h => by cases h <;> rfl

theorem same_mode : SameSteps (mode path).run (mode path).run := by
  intro m₁ m₂ hm
  rw [mode, run_bind, run_bind, run_found?, run_found?, hm.resolve]
  cases m₂.disk.resolve m₂.cwd true path with
  | error e => exact ⟨rfl, hm⟩
  | ok loc =>
    have hentry := hm.disk loc
    simp only [Except.map]
    generalize m₁.disk.get? loc = e₁ at hentry ⊢
    generalize m₂.disk.get? loc = e₂ at hentry ⊢
    cases hentry <;> exact ⟨rfl, hm⟩

theorem same_setMode (mode : Nat) : SameSteps (setMode path mode).run (setMode path mode).run := by
  intro m₁ m₂ hm
  rw [setMode, run_bind, run_bind, run_found?, run_found?, hm.resolve]
  cases m₂.disk.resolve m₂.cwd true path with
  | error e => exact ⟨rfl, hm⟩
  | ok loc =>
    have hentry := hm.disk loc
    simp only [Except.map]
    generalize m₁.disk.get? loc = e₁ at hentry ⊢
    generalize m₂.disk.get? loc = e₂ at hentry ⊢
    cases hentry with
    | nothing | link => exact ⟨rfl, hm⟩
    | file => exact ⟨rfl, hm.cwd, hm.disk.put loc (.file ..)⟩
    | directory => exact ⟨rfl, hm.cwd, hm.disk.put loc (.refl _)⟩

theorem same_makeDirectory : SameSteps (makeDirectory path).run (makeDirectory path).run := by
  intro m₁ m₂ hm
  rw [makeDirectory, putNew, run_bind, run_bind, run_locate, run_locate, hm.resolve]
  cases m₂.disk.resolve m₂.cwd false (Path.dropSlashes path) with
  | error e => exact ⟨rfl, hm⟩
  | ok loc =>
    have hentry := hm.disk loc
    simp only [Entry.newDirectory, Entry.isDirectory, Bool.not_true, Bool.and_false, Bool.false_eq_true,
      if_false]
    rw [run_get, run_get]
    generalize m₁.disk.get? loc = e₁ at hentry ⊢
    generalize m₂.disk.get? loc = e₂ at hentry ⊢
    cases hentry with
    | nothing => exact ⟨rfl, hm.cwd, hm.disk.put loc (.refl _)⟩
    | file | directory | link => exact ⟨rfl, hm⟩

theorem same_makeDirectories : SameSteps (makeDirectories path).run (makeDirectories path).run :=
  .makeDirectories same_makeDirectory same_isDirectory path

theorem same_replace (bytes₁ bytes₂ : ByteArray) :
    SameSteps (replace path bytes₁).run (replace path bytes₂).run := by
  intro m₁ m₂ hm
  rw [replace, replace, run_bind, run_bind, run_locate, run_locate, hm.resolve]
  cases m₂.disk.resolve m₂.cwd false (Path.dropSlashes path) with
  | error e => exact ⟨rfl, hm⟩
  | ok loc =>
    simp only
    split
    · exact ⟨rfl, hm⟩
    split
    · exact ⟨rfl, hm⟩
    have hentry := hm.disk loc
    rw [run_get, run_get]
    generalize m₁.disk.get? loc = e₁ at hentry ⊢
    generalize m₂.disk.get? loc = e₂ at hentry ⊢
    cases hentry with
    | directory => exact ⟨rfl, hm⟩
    | nothing | file | link => exact ⟨rfl, hm.cwd, hm.disk.put loc (.file ..)⟩

theorem same_removeTree : SameSteps (removeTree path).run (removeTree path).run := by
  intro m₁ m₂ hm
  rw [removeTree, run_bind, run_bind, run_locate, run_locate, hm.resolve]
  cases m₂.disk.resolve m₂.cwd false path with
  | error e => exact ⟨rfl, hm⟩
  | ok loc =>
    have hentry := hm.disk loc
    simp only
    rw [run_get, run_get]
    generalize m₁.disk.get? loc = e₁ at hentry ⊢
    generalize m₂.disk.get? loc = e₂ at hentry ⊢
    cases hentry with
    | nothing | file => exact ⟨rfl, hm⟩
    | directory | link => exact ⟨rfl, hm.cwd, hm.disk.clearTree loc⟩

theorem same_makePrivate : SameSteps (makePrivate path).run (makePrivate path).run :=
  .bind (.orFault (same_makeDirectories path) _ _ _) fun _ =>
    .bind (.orFault (same_mode path) _ _ _) fun _ => .orFault (same_setMode path _) _ _ _

end Files

/-- Whether a form can be saved does not depend on what is in it. -/
theorem Form.same_save (f₁ f₂ : Form) (path : String) :
    Files.SameSteps (f₁.save path).run (f₂.save path).run :=
  .bind (.orFault (Files.same_makeDirectories _) _ _ _) fun _ =>
    .orFault (Files.same_replace path _ _) _ _ _

namespace Service

theorem same_makeStaging (path : String) :
    Files.SameSteps (makeStaging path).run (makeStaging path).run := by
  have hremove : Files.SameSteps (liftM (Files.removeTree path).run : FileStep _).run
      (liftM (Files.removeTree path).run : FileStep _).run := by
    intro m₁ m₂ hm
    obtain ⟨hresult, hm'⟩ := Files.same_removeTree path m₁ m₂ hm
    exact ⟨congrArg Except.ok hresult, hm'⟩
  refine .bind hremove fun removed => ?_
  split
  · exact Files.same_makePrivate path
  · exact Files.same_makePrivate path
  · exact .pure _

theorem same_dropStaging (path : String) : Files.SameSteps (dropStaging path) (dropStaging path) := by
  intro m₁ m₂ hm
  rw [dropStaging, StateT.run_bind, StateT.run_bind]
  exact ⟨Subsingleton.elim _ _, (Files.same_removeTree path m₁ m₂ hm).2⟩

end Service

end PoolKeeper
