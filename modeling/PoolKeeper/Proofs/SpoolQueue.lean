import PoolKeeper.Proofs.RequestText
import PoolKeeper.Proofs.SharedDisk
import PoolKeeper.Proofs.SpoolNames
import PoolKeeper.Proofs.Stacked

/-!
# `PoolKeeper/Proofs/SpoolQueue.lean` — requests that are handed over

Requests are handed over by processes of their own, each with its own reading of the clock and its own
count of names, and all on one disk (`Spool.Submitted`). The first one makes the spool. Each finds it as the
one before left it and adds one file, or is refused because it has the name of another request or one that
is too long (`Spool.submit_cases`). So the disk at the end is the one from before with one file for each
(`Spool.submitted_stacked`).
-/

set_option autoImplicit false

namespace PoolKeeper

open Disk

/-! ## Submissions -/

/-- A request, and the process that hands it over: what its clock says, and how many names it has given. -/
structure Submission where
  request : Request
  pid : UInt32
  clock : Nat
  named : Nat

namespace Submission

/-- The name that the request gets. -/
def name (s : Submission) : String := Spool.requestName s.clock s.pid s.named

/-- The file that the request gets. -/
def file (s : Submission) : String × ByteArray := (s.name, s.request.yaml.toUTF8)

/-- The machine as the process has it. -/
def process (s : Submission) (m : Machine) : Machine :=
  { m with pid := s.pid, clock := s.clock, named := s.named }

/-- The same after the process gave the name. -/
def processNamed (s : Submission) (m : Machine) : Machine :=
  { m with pid := s.pid, clock := s.clock + 1, named := s.named + 1 }

end Submission

/-- The requests are handed over one after the other, and none is refused. The spool is there afterwards
in any case. -/
inductive Spool.Submitted (dir : String) : Machine → List Submission → Machine → Prop
  | none {m m' : Machine} (h : (ensure dir).run.run m = (.ok (), m')) : Submitted dir m [] m'
  | next {m m₁ m' : Machine} {s : Submission} {subs : List Submission} {path : String}
    (h : (submit dir s.request).run.run (s.process m) = (.ok path, m₁))
    (hrest : Submitted dir { m with disk := m₁.disk } subs m') : Submitted dir m (s :: subs) m'

namespace Spool

variable {m m' n : Machine} {dir : String} {loc : Loc} {d : Disk} {cwd : Loc}
  {files : List (String × ByteArray)}

/-! ## The directory -/

/-- The directory at the place has the permissions that a spool has. Those of the root are not kept, and
setting them changes nothing any more. -/
def Tight (d : Disk) (loc : Loc) : Prop :=
  (∃ mode, d.get? loc = some (.directory mode) ∧ mode % 0o1000 = 0o700) ∨
    loc = [] ∧ d.put [] (.directory 0o700) = d

/-- The path leads to a private directory. -/
structure At (d : Disk) (cwd : Loc) (dir : String) (loc : Loc) : Prop where
  leads : d.resolve cwd true dir = .ok loc
  tight : Tight d loc

theorem At.isDirectory (h : At d cwd dir loc) : d.IsDirectory loc := by
  rcases h.tight with ⟨mode, hmode, -⟩ | ⟨rfl, -⟩
  · exact ⟨mode, hmode⟩
  · exact ⟨_, d.get?_root⟩

theorem share_ensure (dir : String) : Files.Related Machine.Share (ensure dir).run (ensure dir).run := by
  refine .bind (.orFault (Files.share_makeDirectories dir) _ _ _) fun _ =>
    .bind (.orFault (Files.share_mode dir) _ _ _) fun mode => ?_
  split
  · exact .orFault (Files.share_setMode dir _) _ _ _
  · exact .pure _

/-- What comes after the directories were made. -/
theorem run_ensure_eq (dir : String) (m : Machine) : (ensure dir).run.run m =
    match (Files.makeDirectories dir).run.run m with
      | (.error e, m₁) => (.error ⟨.state, Files.refusal "create" dir e⟩, m₁)
      | (.ok _, m₁) => match ((Files.mode dir).run.run m₁).1 with
        | .error e => (.error ⟨.state, Files.refusal "stat" dir e⟩, m₁)
        | .ok mode =>
          if mode % 0o1000 ≠ 0o700 then
            (((Files.setMode dir 0o700).run.run m₁).1.mapError fun e =>
              ⟨.state, Files.refusal "chmod" dir e⟩, ((Files.setMode dir 0o700).run.run m₁).2)
          else (.ok (), m₁) := by
  rw [ensure, Files.run_orFault_bind]
  rcases (Files.makeDirectories dir).run.run m with ⟨e | _, m₁⟩
  · rfl
  have hsame : ((Files.mode dir).run.run m₁).2 = m₁ := by rw [Files.run_mode]
  simp only
  rw [Files.run_orFault_bind]
  generalize (Files.mode dir).run.run m₁ = read at hsame ⊢
  rcases read with ⟨e | mode, m₂⟩ <;> obtain rfl : m₂ = m₁ := hsame
  · rfl
  simp only
  split
  · rw [Files.run_orFault]
  · rfl

/-- Making sure of the spool changes nothing of the machine but its disk. -/
theorem ensure_disk (dir : String) (m : Machine) : ((ensure dir).run.run m).2 =
    { m with disk := ((ensure dir).run.run m).2.disk } := by
  have hmade := Files.makeDirectories_disk dir m
  rw [run_ensure_eq]
  generalize (Files.makeDirectories dir).run.run m = made at hmade ⊢
  rcases made with ⟨e | _, m₁⟩
  · exact hmade
  simp only at hmade ⊢
  rcases ((Files.mode dir).run.run m₁).1 with e | mode
  · exact hmade
  simp only
  split
  · have hset := Files.setMode_disk dir 0o700 m₁
    rw [hset, hmade]
  · exact hmade

/-- So it comes to the same for all processes. -/
theorem run_ensure_of_share (h : (ensure dir).run.run m = (.ok (), m')) (hshare : Machine.Share m n) :
    (ensure dir).run.run n = (.ok (), { n with disk := m'.disk }) := by
  obtain ⟨hresult, hafter⟩ := share_ensure dir m n hshare
  have hdisk := ensure_disk dir n
  rw [h] at hresult hafter
  rw [hafter.disk] at hdisk
  exact Prod.ext hresult.symm hdisk

/-- Where files came into the spool, making sure of it changes nothing but what is hidden behind the
root. -/
theorem run_ensure (h : At d m.cwd dir loc) (hfiles : Stacked d loc files m.disk) :
    ∃ d', Stacked d loc files d' ∧ (ensure dir).run.run m = (.ok (), { m with disk := d' }) := by
  have hleads := hfiles.ways.resolve h.leads h.isDirectory
  obtain ⟨mode, hentry⟩ := hfiles.ways.directory h.isDirectory
  have hmade := Files.run_makeDirectories_standing ⟨loc, mode, hleads, hentry⟩
  have hmode : ((Files.mode dir).run.run m).1 = .ok mode := by
    rw [Files.run_mode, hleads]
    simp only [hentry]
  rw [run_ensure_eq, hmade]
  simp only [hmode]
  rcases h.tight with ⟨mode', hentry', hprivate⟩ | ⟨rfl, hroot⟩
  · rw [hfiles.get?_dir, hentry'] at hentry
    cases hentry
    exact ⟨m.disk, hfiles, if_neg (by simp [hprivate])⟩
  · rw [m.disk.get?_root] at hentry
    cases hentry
    refine ⟨m.disk.put [] (.directory 0o700), hfiles.putRoot hroot, ?_⟩
    rw [if_pos (by decide), Files.run_setMode, hleads]
    simp only [m.disk.get?_root]
    rfl

/-- After the spool was made sure of, the path leads to a private directory if it leads to one at all. -/
theorem at_of_ensure (h : (ensure dir).run.run m = (.ok (), m'))
    (hleads : m'.disk.resolve m'.cwd true dir = .ok loc) (hdir : m'.disk.IsDirectory loc) :
    At m'.disk m'.cwd dir loc := by
  refine ⟨hleads, ?_⟩
  rw [run_ensure_eq] at h
  generalize (Files.makeDirectories dir).run.run m = made at h
  rcases made with ⟨e | _, m₁⟩
  · cases h
  simp only [Files.run_mode] at h
  rcases hloc₁ : m₁.disk.resolve m₁.cwd true dir with e | loc₁
  · rw [hloc₁] at h
    cases h
  rw [hloc₁] at h
  simp only at h
  rcases hentry₁ : m₁.disk.get? loc₁ with _ | ⟨mode, bytes⟩ | mode | target
  · rw [hentry₁] at h
    cases h
  · -- A file does not become a directory by getting other permissions.
    exfalso
    rw [hentry₁] at h
    simp only [Files.run_setMode, hloc₁, hentry₁] at h
    split at h
    · cases h
      have hways : (m₁.disk.put loc₁ (.file 0o700 bytes)).Ways m₁.disk := .of_put (by simp) (by simp)
      cases hloc₁.symm.trans (hways.resolve hleads hdir)
      obtain ⟨mode', hmode'⟩ := hways.directory hdir
      cases hentry₁.symm.trans hmode'
    · cases h
      cases hloc₁.symm.trans hleads
      obtain ⟨mode', hmode'⟩ := hdir
      cases hentry₁.symm.trans hmode'
  · -- A directory that was there is made private if it was not.
    rw [hentry₁] at h
    simp only [Files.run_setMode, hloc₁, hentry₁] at h
    split at h
    · cases h
      have hways : (m₁.disk.put loc₁ (.directory 0o700)).Ways m₁.disk :=
        .of_put (by simp) fun _ _ => ⟨mode, hentry₁⟩
      cases hloc₁.symm.trans (hways.resolve hleads hdir)
      by_cases hroot : loc = []
      · subst hroot
        exact .inr ⟨rfl, by simp [Disk.put]⟩
      · exact .inl ⟨_, get?_put hroot _, by decide⟩
    next hprivate =>
      cases h
      cases hloc₁.symm.trans hleads
      exact .inl ⟨mode, hentry₁, Decidable.of_not_not hprivate⟩
  · rw [hentry₁] at h
    cases h

/-! ## Handing over -/

/-- The name can stand behind the path of the spool. -/
def Fits (dir name : String) : Prop := IsPath (Path.join dir name) ∧ name.utf8ByteSize ≤ maxName

section Files

variable {d' : Disk} {name : String} {follow : Bool}

/-- The path of a request leads to its place in the spool, or it is too long. -/
theorem resolve_name (h : At d cwd dir loc) (hfiles : Stacked d loc files d')
    (hname : isRequestName name = true) (hslash : '/' ∉ name.toList) (hvacant : d.Vacant loc name) :
    d'.resolve cwd follow (Path.join dir name) = .ok (name :: loc) ↔ Fits dir name :=
  Disk.resolve_join (hfiles.ways.resolve h.leads h.isDirectory) (hfiles.ways.directory h.isDirectory)
    (isName_of_isRequestName hname) hslash (hfiles.not_link hvacant)

theorem eq_of_resolve_name {loc' : Loc} (h : At d cwd dir loc) (hfiles : Stacked d loc files d')
    (hname : isRequestName name = true) (hslash : '/' ∉ name.toList) (hvacant : d.Vacant loc name)
    (hloc' : d'.resolve cwd follow (Path.join dir name) = .ok loc') : loc' = name :: loc :=
  Disk.eq_of_resolve_join (hfiles.ways.resolve h.leads h.isDirectory)
    (hfiles.ways.directory h.isDirectory) (isName_of_isRequestName hname) hslash
    (hfiles.not_link hvacant) hloc'

end Files

/-- What comes after the spool was made sure of. -/
theorem run_submit (s : Submission) (m₁ : Machine)
    (h : (ensure dir).run.run (s.process m) = (.ok (), s.process m₁)) :
    (submit dir s.request).run.run (s.process m) =
      match (Files.putNew (Path.join dir s.name) (.privateFile s.request.yaml.toUTF8)).run.run
          (s.processNamed m₁) with
        | (.ok _, m₂) => (.ok (Path.join dir s.name), m₂)
        | (.error e, m₂) => (.error ⟨.state, Files.refusal "rename" (Path.join dir s.name) e⟩, m₂) := by
  have hstamp : (liftM Files.stamp : FileStep (Nat × Nat)).run.run (s.process m₁) =
      (.ok (s.clock, s.named), s.processNamed m₁) := rfl
  have hget : (get : FileStep Machine).run.run (s.processNamed m₁) =
      (.ok (s.processNamed m₁), s.processNamed m₁) := rfl
  have hname : requestName s.clock (s.processNamed m₁).pid s.named = s.name := rfl
  rw [submit, Files.run_bind, h]
  simp only
  rw [Files.run_bind, hstamp]
  simp only
  rw [Files.run_bind, hget]
  simp only [hname]
  generalize s.name = name
  generalize s.request.yaml.toUTF8 = bytes
  rw [Files.run_orFault_bind]
  rcases (Files.putNew (Path.join dir name) (.privateFile bytes)).run.run (s.processNamed m₁) with
    ⟨e | _, m₂⟩
  · rfl
  · rfl

/-- A request is one more file, or it is refused because its name is too long or another request has it. -/
theorem submit_cases (s : Submission) (h : At d m.cwd dir loc) (hfiles : Stacked d loc files m.disk)
    (hvacant : d.Vacant loc s.name) :
    (Fits dir s.name ∧ s.name ∉ files.map (·.1) ∧ ∃ m₁, Stacked d loc (s.file :: files) m₁.disk ∧
      (submit dir s.request).run.run (s.process m) = (.ok (Path.join dir s.name), m₁)) ∨
    (¬ (Fits dir s.name ∧ s.name ∉ files.map (·.1)) ∧
      ∃ f m₁, (submit dir s.request).run.run (s.process m) = (.error f, m₁)) := by
  obtain ⟨d₁, hfiles₁, hensure⟩ := run_ensure (m := s.process m) h hfiles
  have hname : isRequestName s.name = true := isRequestName_requestName
  have hslash : '/' ∉ s.name.toList := noSlash_requestName
  rw [run_submit s { m with disk := d₁ } hensure, Submission.file]
  generalize s.name = name at hname hslash hvacant ⊢
  generalize s.request.yaml.toUTF8 = bytes
  have hslashes : Path.dropSlashes (Path.join dir name) = Path.join dir name := by
    refine Path.dropSlashes_eq ⟨name, ?_, (isName_of_isRequestName hname).2⟩
    rw [Path.steps_join (ne_empty_of_resolve h.leads) (isName_of_isRequestName hname).1 hslash,
      List.getLast?_concat]
  have hfree : name ∉ files.map (·.1) ↔ d₁.get? (name :: loc) = none := by
    constructor
    · intro hfree
      rw [hfiles₁.get?_of_ne, hvacant.get?]
      rintro f hf heq
      cases heq
      exact hfree (List.mem_map_of_mem hf)
    · rintro hnone hmem
      obtain ⟨f, hf, rfl⟩ := List.mem_map.mp hmem
      cases (hfiles₁.found f hf).symm.trans hnone
  -- A path that leads anywhere leads to the name, so nothing but these two can be in the way.
  by_cases hgood : Fits dir name ∧ name ∉ files.map (·.1)
  · obtain ⟨hfits, hnew⟩ := hgood
    have hnone := hfree.mp hnew
    have hloc : d₁.resolve m.cwd false (Path.join dir name) = .ok (name :: loc) :=
      (resolve_name h hfiles₁ hname hslash hvacant).mpr hfits
    have hput := Files.run_putNew_free (m := s.processNamed { m with disk := d₁ })
      (.privateFile bytes) hloc hnone hslashes
    rw [hput]
    exact .inl ⟨hfits, hnew, _, hfiles₁.put hvacant hnone, rfl⟩
  · refine .inr ⟨hgood, ?_⟩
    rcases Files.run_putNew (Path.join dir name) (.privateFile bytes)
      (s.processNamed { m with disk := d₁ }) with ⟨e, hput⟩ | ⟨loc', hloc', hnone, -⟩
    · rw [hput]
      exact ⟨_, _, rfl⟩
    · rw [hslashes] at hloc'
      obtain rfl := eq_of_resolve_name h hfiles₁ hname hslash hvacant hloc'
      exact absurd ⟨(resolve_name h hfiles₁ hname hslash hvacant).mp hloc', hfree.mpr hnone⟩ hgood

/-- Nothing with the name of a request is in the directory. -/
def Empty (d : Disk) (loc : Loc) : Prop := ∀ name, isRequestName name = true → d.Vacant loc name

/-- The disk after all requests were handed over is the disk from before with one file for each. -/
theorem submitted_stacked {subs : List Submission} (h : At d m.cwd dir loc) (hempty : Empty d loc)
    (hfiles : Stacked d loc files m.disk) (hsubmitted : Submitted dir m subs m') :
    (∀ s ∈ subs, Fits dir s.name) ∧ ∃ files' d', m' = { m with disk := d' } ∧
      Stacked d loc files' d' ∧ files'.Perm (subs.map Submission.file ++ files) := by
  -- The disk from before stays the same all the time; the files on top of it grow.
  induction hsubmitted generalizing files with
  | @none m m' hmade =>
    obtain ⟨d', hfiles', hrun⟩ := run_ensure h hfiles
    cases hmade.symm.trans hrun
    exact ⟨by simp, files, d', rfl, hfiles', .refl _⟩
  | @next m m₁ m' s subs path hrun _ ih =>
    have hvacant : d.Vacant loc s.name := hempty _ isRequestName_requestName
    rcases submit_cases s h hfiles hvacant with
      ⟨hfits, -, m₂, hfiles₁, hrun₁⟩ | ⟨-, f, m₂, hrun₁⟩
    · obtain rfl : m₁ = m₂ := congrArg Prod.snd (hrun.symm.trans hrun₁)
      obtain ⟨hmore, files', d', hm', hfiles', hperm⟩ := ih h hfiles₁
      refine ⟨?_, files', d', hm', hfiles', hperm.trans List.perm_middle⟩
      rw [List.forall_mem_cons]
      exact ⟨hfits, hmore⟩
    · cases congrArg Prod.fst (hrun.symm.trans hrun₁)

/-- All requests can be handed over if their names fit and are different. -/
theorem exists_submitted {subs : List Submission} (h : At d m.cwd dir loc) (hempty : Empty d loc)
    (hfiles : Stacked d loc files m.disk) (hfits : ∀ s ∈ subs, Fits dir s.name)
    (hnew : ∀ s ∈ subs, s.name ∉ files.map (·.1)) (hnodup : (subs.map Submission.name).Nodup) :
    ∃ m', Submitted dir m subs m' := by
  induction subs generalizing m files with
  | nil =>
    obtain ⟨d', -, hrun⟩ := run_ensure h hfiles
    exact ⟨_, .none hrun⟩
  | cons s subs ih =>
    rw [List.forall_mem_cons] at hfits hnew
    rw [List.map_cons, List.nodup_cons] at hnodup
    have hvacant : d.Vacant loc s.name := hempty _ isRequestName_requestName
    rcases submit_cases s h hfiles hvacant with ⟨-, -, m₁, hfiles₁, hrun⟩ | ⟨hrefused, -⟩
    · obtain ⟨m', hrest⟩ := ih (m := { m with disk := m₁.disk }) h hfiles₁ hfits.2 (fun s' hs' => by
        rw [List.map_cons, List.mem_cons, not_or]
        refine ⟨fun heq => hnodup.1 (List.mem_map.mpr ⟨s', hs', heq⟩), hnew.2 s' hs'⟩) hnodup.2
      exact ⟨m', .next hrun hrest⟩
    · exact absurd ⟨hfits.1, hnew.1⟩ hrefused

/-! ## The first request makes the spool -/

/-- A spool that is there is left as it is. -/
theorem run_ensure_at (h : At m.disk m.cwd dir loc) : (ensure dir).run.run m = (.ok (), m) := by
  obtain ⟨d', hfiles, hrun⟩ := run_ensure h (.none m.disk loc)
  rwa [hfiles.eq_of_nil] at hrun

/-- It comes to the same whether the spool was made before the first request or with it. -/
theorem submitted_iff {subs : List Submission} (hmade : (ensure dir).run.run m = (.ok (), n))
    (hstays : (ensure dir).run.run n = (.ok (), n)) :
    Submitted dir m subs m' ↔ Submitted dir n subs m' := by
  have hn : n = { m with disk := n.disk } := by
    have hdisk := ensure_disk dir m
    rwa [hmade] at hdisk
  have hrest (m₁ : Machine) : { m with disk := m₁.disk } = { n with disk := m₁.disk } := by rw [hn]
  have hsame (s : Submission) : (submit dir s.request).run.run (s.process m) =
      (submit dir s.request).run.run (s.process n) := by
    have hfirst := run_ensure_of_share hmade (n := s.process m) ⟨rfl, rfl⟩
    have hlater := run_ensure_of_share hstays (n := s.process n) ⟨rfl, rfl⟩
    have hprocess : { s.process m with disk := n.disk } = s.process n := by
      rw [Submission.process, Submission.process, hn]
    rw [hprocess] at hfirst
    rw [run_submit s n hfirst, run_submit s n hlater]
  constructor
  · rintro (hnone | ⟨hrun, hsubs⟩)
    · cases hmade.symm.trans hnone
      exact .none hstays
    · rw [hsame] at hrun
      rw [hrest] at hsubs
      exact .next hrun hsubs
  · rintro (hnone | ⟨hrun, hsubs⟩)
    · cases hstays.symm.trans hnone
      exact .none hmade
    · rw [← hsame] at hrun
      rw [← hrest] at hsubs
      exact .next hrun hsubs

end Spool

end PoolKeeper
