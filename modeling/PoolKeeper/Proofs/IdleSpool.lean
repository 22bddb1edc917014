import PoolKeeper.Proofs.SpoolTaken
import PoolKeeper.Proofs.Staging

/-!
# `PoolKeeper/Proofs/IdleSpool.lean` — what the service writes is no request

The service writes to its disk itself: it saves its record, and it makes and removes staging directories.
Nothing of that is ever found in a spool as a request, even if the state file or the staging directory is
in the spool and has the name of a request. So a directory in which no request waits stays such a directory
through everything that can be asked of the service, as long as the host puts none there
(`Service.perform_idle`), and taking requests from it gives none (`Spool.take_idle`).
-/

set_option autoImplicit false

namespace PoolKeeper

open Disk

/-! ## Names of new things -/

namespace Disk

variable {d : Disk} {follow : Bool} {links : Nat} {dir loc : Loc} {name : String} {steps : List String}

/-- A walk that ends where nothing is ends with one of its steps. -/
theorem Walks.noSlash (h : Walks d follow links dir steps (name :: loc)) (hdir : d.stands dir)
    (hsteps : ∀ s ∈ steps, '/' ∉ s.toList) (hnone : d.get? (name :: loc) = none) :
    '/' ∉ name.toList := by
  generalize hplace : name :: loc = place at h
  induction h with
  | done =>
    -- A walk without steps ends where it began, and there a directory is.
    subst hplace
    obtain ⟨mode, hentry⟩ := get?_of_stands hdir
    cases hnone.symm.trans hentry
  | here _ ih => exact ih hdir (List.forall_mem_cons.mp hsteps).2 hplace
  | up _ ih => exact ih (stands_tail hdir) (List.forall_mem_cons.mp hsteps).2 hplace
  | last =>
    cases hplace
    exact (List.forall_mem_cons.mp hsteps).1
  | down _ _ hentry _ ih => exact ih (stands_cons hdir hentry) (List.forall_mem_cons.mp hsteps).2 hplace
  | link _ _ _ _ _ _ ih =>
    refine ih (stands_start hdir) (fun s hs => ?_) hplace
    rcases List.mem_append.mp hs with hs | hs
    · exact Path.noSlash_of_mem_steps hs
    · exact (List.forall_mem_cons.mp hsteps).2 s hs

theorem noSlash_of_resolve {cwd : Loc} {path : String} (h : d.resolve cwd follow path = .ok (name :: loc))
    (hnone : d.get? (name :: loc) = none) : '/' ∉ name.toList := by
  obtain ⟨-, hstart, hwalks⟩ := resolve_eq_ok_iff.mp h
  exact hwalks.noSlash hstart (fun s hs => Path.noSlash_of_mem_steps hs) hnone

/-- What is listed is there. -/
theorem exists_of_mem_names (h : name ∈ d.names loc) : ∃ e, d.get? (name :: loc) = some e := by
  cases hentry : d.get? (name :: loc) with
  | some e => exact ⟨e, rfl⟩
  | none => exact absurd h (not_mem_names (vacant_of_get? hentry))

end Disk

namespace Spool

variable {d : Disk} {loc : Loc} {m : Machine}

/-- It is no request: a directory, or a file with something else in it. -/
def NoRequest : Entry → Prop
  | .file _ bytes => ∀ text, Text.decode? bytes = some text → Request.ofYaml? text = none
  | .directory _ => True
  | .link _ => False

/-- What has the name of a request in the directory is none. -/
def Idle (d : Disk) (loc : Loc) : Prop := ∀ name e, d.get? (name :: loc) = some e →
  isRequestName name = true → '/' ∉ name.toList ∧ NoRequest e

theorem Empty.idle (h : Empty d loc) : Idle d loc := by
  intro name e he hname
  rw [(h name hname).get?] at he
  cases he

namespace Idle

theorem below {d' : Disk} (h : Idle d loc) (hbelow : d'.Below d) : Idle d' loc :=
  fun name e he => h name e (hbelow _ _ he)

theorem put {place : Loc} {e : Entry} (h : Idle d loc) (hput : ∀ name, place = name :: loc →
    isRequestName name = true → '/' ∉ name.toList ∧ NoRequest e) : Idle (d.put place e) loc := by
  intro name e' he' hname
  -- Only what is at the place itself is new.
  by_cases hplace : name :: loc = place
  · subst hplace
    rw [get?_put (List.cons_ne_nil _ _)] at he'
    cases he'
    exact hput name rfl hname
  · rw [get?_put_of_ne hplace] at he'
    exact h name e' he' hname

/-! ## The service's own steps -/

/-- Whatever a path leads to, something else than a request can be put there. -/
theorem put_resolved {path : String} {follow : Bool} {place : Loc} {e : Entry} (h : Idle m.disk loc)
    (he : NoRequest e) (hplace : m.disk.resolve m.cwd follow path = .ok place) :
    Idle (m.disk.put place e) loc := by
  refine h.put fun name heq hname => ⟨?_, he⟩
  subst heq
  cases hold : m.disk.get? (name :: loc) with
  | none => exact noSlash_of_resolve hplace hold
  | some old => exact (h name old hold hname).1

theorem makeDirectories (path : String) (h : Idle m.disk loc) :
    Idle ((Files.makeDirectories path).run.run m).2.disk loc := by
  refine Files.makeDirectories_keeps (P := fun m => Idle m.disk loc) (fun path m h => ?_) path h
  rcases Files.run_putNew path .newDirectory m with ⟨e, hrun⟩ | ⟨place, hplace, -, hrun⟩
  · rw [Files.makeDirectory, hrun]
    exact h
  · rw [Files.makeDirectory, hrun]
    exact h.put_resolved trivial hplace

theorem setMode (path : String) (mode : Nat) (h : Idle m.disk loc) :
    Idle ((Files.setMode path mode).run.run m).2.disk loc := by
  rw [Files.run_setMode]
  rcases hplace : m.disk.resolve m.cwd true path with e | place
  · exact h
  simp only
  have hsame {e e' : Entry} (hentry : m.disk.get? place = some e) (he : NoRequest e → NoRequest e') :
      Idle (m.disk.put place e') loc := by
    refine h.put fun name heq hname => ?_
    subst heq
    exact (h name e hentry hname).imp_right he
  rcases hentry : m.disk.get? place with _ | ⟨_, bytes⟩ | _ | _
  · exact h
  · exact hsame hentry id
  · exact hsame hentry id
  · exact h

theorem removeTree (path : String) (h : Idle m.disk loc) :
    Idle ((Files.removeTree path).run.run m).2.disk loc := by
  obtain ⟨d, hbelow, hm⟩ := Files.removeTree_below path m
  rw [hm]
  exact h.below hbelow

theorem makePrivate (path : String) (h : Idle m.disk loc) :
    Idle ((Files.makePrivate path).run.run m).2.disk loc := by
  have hmade := h.makeDirectories path
  rw [Files.makePrivate, Files.run_orFault_bind]
  generalize (Files.makeDirectories path).run.run m = made at hmade ⊢
  rcases made with ⟨e | _, m₁⟩
  · exact hmade
  simp only
  have hread : ((Files.mode path).run.run m₁).2 = m₁ := by rw [Files.run_mode]
  rw [Files.run_orFault_bind]
  generalize (Files.mode path).run.run m₁ = read at hread ⊢
  rcases read with ⟨e | mode, m₂⟩ <;> obtain rfl : m₂ = m₁ := hread
  · exact hmade
  simp only
  rw [Files.run_orFault]
  exact hmade.setMode path 0o700

theorem makeStaging (path : String) (h : Idle m.disk loc) :
    Idle ((Service.makeStaging path).run.run m).2.disk loc := by
  have hremove : (liftM (Files.removeTree path).run : FileStep _).run.run m =
      (.ok ((Files.removeTree path).run.run m).1, ((Files.removeTree path).run.run m).2) := rfl
  have hleft := h.removeTree path
  rw [Service.makeStaging, Files.run_bind, hremove]
  generalize (Files.removeTree path).run.run m = removed at hleft ⊢
  rcases removed with ⟨e | _, m₁⟩
  · cases e
    case notFound => exact hleft.makePrivate path
    all_goals exact hleft
  · exact hleft.makePrivate path

theorem dropStaging (path : String) (h : Idle m.disk loc) :
    Idle ((Service.dropStaging path).run m).2.disk loc := h.removeTree path

/-- A record is no request. -/
theorem noRequest_record (r : Record) : NoRequest (.privateFile r.yaml.toUTF8) := by
  intro text htext
  rw [Text.decode?_toUTF8] at htext
  cases htext
  exact Request.ofYaml?_record r

theorem save (path : String) (r : Record) (h : Idle m.disk loc) :
    Idle ((r.save path).run.run m).2.disk loc := by
  have hmade := h.makeDirectories (Path.directory path)
  rw [Record.save, Form.run_save]
  generalize (Files.makeDirectories (Path.directory path)).run.run m = made at hmade ⊢
  rcases made with ⟨e | _, m₁⟩
  · exact hmade
  rcases Files.run_replace path r.form.yaml.toUTF8 m₁ with ⟨e, hrun, -⟩ | ⟨place, -, hplace, -, hrun⟩
  · simp only [hrun]
    exact hmade
  · simp only [hrun]
    exact hmade.put_resolved (noRequest_record r) hplace

end Idle

/-! ## Taking -/

/-- The path leads to a directory in which no request waits. -/
structure IdleAt (dir : String) (loc : Loc) (m : Machine) : Prop where
  leads : m.disk.resolve m.cwd true dir = .ok loc
  isDirectory : m.disk.IsDirectory loc
  idle : Idle m.disk loc

variable {dir name : String}

/-- What is no request is not taken as one. -/
theorem takeFile_idle (h : IdleAt dir loc m) (hname : isRequestName name = true)
    (hslash : '/' ∉ name.toList) : ((takeFile dir name).run m).1 = none ∧
      IdleAt dir loc ((takeFile dir name).run m).2 := by
  have hlink (target : String) : m.disk.get? (name :: loc) ≠ some (.link target) := fun hlink =>
    (h.idle name _ hlink hname).2
  have hjoin (follow : Bool) :
      m.disk.resolve m.cwd follow (Path.join dir name) = .ok (name :: loc) ↔ Fits dir name :=
    Disk.resolve_join h.leads h.isDirectory (isName_of_isRequestName hname) hslash hlink
  rw [run_takeFile_eq]
  have hsame : ((Files.readText (Path.join dir name)).run.run m).2 = m := by rw [Files.run_readText]
  generalize hread : (Files.readText (Path.join dir name)).run.run m = read at hsame ⊢
  rcases read with ⟨e | text, m₁⟩ <;> obtain rfl : m₁ = m := hsame
  · exact ⟨rfl, h⟩
  have htext : m₁.text? (Path.join dir name) = some text := by rw [Machine.text?, hread]; rfl
  obtain ⟨place, mode, bytes, hplace, hfile, hdecode⟩ := Files.exists_file htext
  obtain rfl := Disk.eq_of_resolve_join h.leads h.isDirectory (isName_of_isRequestName hname) hslash
    hlink hplace
  have hremove := Files.run_removeFile ((hjoin false).mpr ((hjoin true).mp hplace)) hfile
  have hways : m₁.disk.Ways (m₁.disk.clear (name :: loc)) := .of_clear hfile
  simp only
  rw [hremove]
  exact ⟨(h.idle name _ hfile hname).2 text hdecode, hways.resolve h.leads h.isDirectory,
    hways.directory h.isDirectory, h.idle.below (clear_below _ _)⟩

theorem takeFiles_idle {names : List String} (h : IdleAt dir loc m)
    (hnames : ∀ name ∈ names, isRequestName name = true ∧ '/' ∉ name.toList) :
    ((takeFiles dir names).run m).1 = [] := by
  -- The names were read before the first file was taken, and no file is put back.
  induction names generalizing m with
  | nil => rfl
  | cons name names ih =>
    rw [List.forall_mem_cons] at hnames
    obtain ⟨hnone, hrest⟩ := takeFile_idle h hnames.1.1 hnames.1.2
    rw [run_takeFiles_cons]
    simp only
    rw [hnone, ih hrest hnames.2]
    rfl

/-- Where the path leads to such a directory or nowhere, no request is taken. This can only be refused
where there is no directory. -/
theorem take_idle (h : Idle m.disk loc)
    (hleads : ∀ place, m.disk.resolve m.cwd true dir = .ok place → place = loc) :
    (∃ m', (take dir).run.run m = (.ok [], m')) ∨
      ¬ m.HasDirectory dir ∧ ∃ f m', (take dir).run.run m = (.error f, m') := by
  rw [run_take_eq]
  rcases hpending : (pending dir).run.run m with ⟨e | names, m₁⟩
  · have hnone : ¬ m.HasDirectory dir := by
      rintro ⟨place, mode, hplace, hentry⟩
      cases hpending.symm.trans (run_pending_iff.mpr ⟨rfl, place, hplace, ⟨mode, hentry⟩, rfl⟩)
    cases e
    case notFound => exact .inl ⟨m₁, rfl⟩
    all_goals exact .inr ⟨hnone, _, m₁, rfl⟩
  · obtain ⟨rfl, place, hplace, hdir, rfl⟩ := run_pending_iff.mp hpending
    obtain rfl := hleads place hplace
    have hnames : ∀ name ∈ (m₁.disk.names place).mergeSort.filter isRequestName,
        isRequestName name = true ∧ '/' ∉ name.toList := by
      intro name hname
      rw [List.mem_filter] at hname
      obtain ⟨e, hentry⟩ := exists_of_mem_names ((List.mergeSort_perm _ _).subset hname.1)
      exact ⟨hname.2, (h name e hentry hname.2).1⟩
    exact .inl ⟨_, Prod.ext (congrArg Except.ok (takeFiles_idle ⟨hplace, hdir, h⟩ hnames)) rfl⟩

end Spool

end PoolKeeper
