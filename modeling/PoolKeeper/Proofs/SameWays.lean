import PoolKeeper.Proofs.SpoolTaken

/-!
# `PoolKeeper/Proofs/SameWays.lean` — a file comes, changes or goes

Nobody's way goes through a file. So where nothing but a file comes, changes or goes, every path that led
somewhere leads there still (`Disk.SameWays`), whichever the file is and wherever the path leads; that is
more than `Disk.Ways` says, which is about the ways to directories only.

`Machine.Leads` is what can be said of the path of a file that is made and removed again and again: it
leads to one place, and there is a file or nothing.
-/

set_option autoImplicit false

namespace PoolKeeper

namespace Disk

variable {d d' d'' : Disk} {follow : Bool} {links : Nat} {dir loc loc' : Loc} {steps : List String}
  {mode : Nat} {bytes : ByteArray}

/-- There is a file at the place, or nothing. -/
def Plain (d : Disk) (loc : Loc) : Prop :=
  ∀ e, d.get? loc = some e → ∃ mode bytes, e = .file mode bytes

theorem plain_of_none (h : d.get? loc = none) : d.Plain loc := by
  intro e he
  cases h.symm.trans he

theorem plain_of_file (h : d.get? loc = some (.file mode bytes)) : d.Plain loc := by
  intro e he
  cases h.symm.trans he
  exact ⟨mode, bytes, rfl⟩

namespace Plain

theorem not_directory (h : d.Plain loc) (mode : Nat) : d.get? loc ≠ some (.directory mode) := by
  intro he
  obtain ⟨_, _, hfile⟩ := h _ he
  cases hfile

theorem not_link (h : d.Plain loc) (target : String) : d.get? loc ≠ some (.link target) := by
  intro he
  obtain ⟨_, _, hfile⟩ := h _ he
  cases hfile

theorem ne_root (h : d.Plain loc) : loc ≠ [] := Disk.ne_root h.not_directory

theorem get?_clear (h : d.Plain loc) : (d.clear loc).get? loc = none := Disk.get?_clear d h.ne_root

end Plain

/-- The disks have the same directories and links. -/
structure SameWays (d d' : Disk) : Prop where
  there : d.Ways d'
  back : d'.Ways d

namespace SameWays

theorem symm (h : d.SameWays d') : d'.SameWays d := ⟨h.back, h.there⟩

/-- Where one walk ends, so does the same walk on the other disk. -/
theorem walks (hways : d.SameWays d') (h : Walks d follow links dir steps loc) :
    Walks d' follow links dir steps loc := by
  apply hways.there.walks_of_last id h
  rintro _ _ _ hname hshort rfl hdir hlink
  refine .last hname hshort (fun mode hmode => ?_) fun target htarget =>
    hlink target (hways.back.link htarget)
  obtain ⟨mode', hmode'⟩ := hways.back.directory ⟨mode, hmode⟩
  exact hdir mode' hmode'

theorem resolve_ok {cwd : Loc} {path : String} (hways : d.SameWays d')
    (h : d.resolve cwd follow path = .ok loc) : d'.resolve cwd follow path = .ok loc := by
  obtain ⟨hpath, hstart, hwalks⟩ := resolve_eq_ok_iff.mp h
  exact resolve_eq_ok_iff.mpr ⟨hpath, hways.there.stands hstart, hways.walks hwalks⟩

theorem resolve_iff {cwd : Loc} {path : String} (hways : d.SameWays d') :
    d'.resolve cwd follow path = .ok loc ↔ d.resolve cwd follow path = .ok loc :=
  ⟨hways.symm.resolve_ok, hways.resolve_ok⟩

/-- Two disks that differ in a file have the same ways. -/
theorem of_plain (h : d.Plain loc) (h' : d'.Plain loc)
    (hsame : ∀ loc', loc' ≠ loc → d'.get? loc' = d.get? loc') : d.SameWays d' := by
  have hnone {d d' : Disk} (h : d.Plain loc)
      (hsame : ∀ loc', loc' ≠ loc → d'.get? loc' = d.get? loc') : d.Ways d' := by
    constructor
    · rintro loc' ⟨mode, hmode⟩
      refine ⟨mode, (hsame loc' ?_).trans hmode⟩
      rintro rfl
      exact h.not_directory _ hmode
    · intro loc' target htarget
      refine (hsame loc' ?_).trans htarget
      rintro rfl
      exact h.not_link _ htarget
  exact ⟨hnone h hsame, hnone h' fun loc' hloc' => (hsame loc' hloc').symm⟩

end SameWays

namespace Plain

theorem put (h : d.Plain loc) (mode : Nat) (bytes : ByteArray) :
    d.SameWays (d.put loc (.file mode bytes)) :=
  .of_plain h (plain_of_file (get?_put h.ne_root _)) fun _ hne => get?_put_of_ne hne _

theorem clear (h : d.Plain loc) : d.SameWays (d.clear loc) :=
  .of_plain h (plain_of_none h.get?_clear) fun _ hne => d.get?_clear_of_ne hne

/-- Files that come or go elsewhere leave a place as plain as it was. -/
theorem of_eq (h : d.Plain loc) (hsame : d'.get? loc = d.get? loc) : d'.Plain loc := by
  intro e he
  exact h e (hsame.symm.trans he)

end Plain

end Disk

/-! ## The path of a file -/

/-- The path leads to the place, a link at its end not followed, and there is a file or nothing. -/
structure Machine.Leads (m : Machine) (path : String) (loc : Loc) : Prop where
  leads : m.disk.resolve m.cwd false path = .ok loc
  plain : m.disk.Plain loc

namespace Machine.Leads

variable {m : Machine} {path : String} {loc : Loc} {mode : Nat} {bytes : ByteArray}

/-- Such a path ends in a name. -/
theorem endsInName (h : m.Leads path loc) : Disk.EndsInName (Path.steps path) :=
  Files.endsInName_of_noDirectory h.leads h.plain.not_directory

theorem dropSlashes (h : m.Leads path loc) : Path.dropSlashes path = path :=
  Path.dropSlashes_eq h.endsInName

/-- There is no link at its end that could be followed. -/
theorem followed (h : m.Leads path loc) : m.disk.resolve m.cwd true path = .ok loc := by
  obtain ⟨hpath, hstart, hwalks⟩ := Disk.resolve_eq_ok_iff.mp h.leads
  exact Disk.resolve_eq_ok_iff.mpr ⟨hpath, hstart, hwalks.followed h.plain.not_link⟩

theorem text?_of_file (h : m.Leads path loc) (hfile : m.disk.get? loc = some (.file mode bytes)) :
    m.text? path = Text.decode? bytes := Files.text?_of_file h.followed hfile

theorem text?_of_none (h : m.Leads path loc) (hnone : m.disk.get? loc = none) :
    m.text? path = none := by
  rw [Machine.text?, Files.run_readText, h.followed]
  simp only [hnone]
  rfl

/-- The directory is there, so none is made. -/
theorem run_makeDirectories {parent : String} (h : m.Leads path loc)
    (hparent : Path.parent? path = some parent) :
    (Files.makeDirectories parent).run.run m = (.ok (), m) :=
  Files.run_makeDirectories_parent h.leads hparent

/-- A file can be put where there is none. -/
theorem run_putNew (h : m.Leads path loc) (hnone : m.disk.get? loc = none) (e : Entry) :
    (Files.putNew path e).run.run m = (.ok (), { m with disk := m.disk.put loc e }) :=
  Files.run_putNew_free e h.leads hnone h.dropSlashes

theorem share {n : Machine} (h : m.Leads path loc) (hshare : m.Share n) : n.Leads path loc := by
  constructor
  · rw [hshare.disk, hshare.cwd]
    exact h.leads
  · rw [hshare.disk]
    exact h.plain

/-- Files that come, change or go elsewhere do not lead the path astray. -/
theorem of_sameWays {d : Disk} (h : m.Leads path loc) (hways : m.disk.SameWays d)
    (hplain : d.Plain loc) : Machine.Leads { m with disk := d } path loc :=
  ⟨hways.resolve_ok h.leads, hplain⟩

theorem put (h : m.Leads path loc) (mode : Nat) (bytes : ByteArray) :
    Machine.Leads { m with disk := m.disk.put loc (.file mode bytes) } path loc :=
  h.of_sameWays (h.plain.put mode bytes) (Disk.plain_of_file (Disk.get?_put h.plain.ne_root _))

theorem clear (h : m.Leads path loc) :
    Machine.Leads { m with disk := m.disk.clear loc } path loc :=
  h.of_sameWays h.plain.clear (Disk.plain_of_none h.plain.get?_clear)

end Machine.Leads

/-- At the end of the path is something that can be removed. -/
structure Files.Removable (path : String) (m : Machine) (loc : Loc) : Prop where
  leads : m.disk.resolve m.cwd false path = .ok loc
  isThere : ∃ e, m.disk.get? loc = some e
  noDirectory (mode : Nat) : m.disk.get? loc ≠ some (.directory mode)

/-- What can be read as text can be removed: it is a file, or a link to one. -/
theorem Files.exists_removable {m : Machine} {path text : String} (htext : m.text? path = some text) :
    ∃ loc, Removable path m loc := by
  obtain ⟨place, _, _, hfollowed, hfile, -⟩ := exists_file htext
  obtain ⟨hpath, hstart, hwalks⟩ := Disk.resolve_eq_ok_iff.mp hfollowed
  obtain ⟨loc, hwalks', hend⟩ := hwalks.unfollowed
  have hloc := Disk.resolve_eq_ok_iff.mpr ⟨hpath, hstart, hwalks'⟩
  rcases hend with rfl | ⟨target, hlink⟩
  · exact ⟨loc, hloc, ⟨_, hfile⟩, by simp [hfile]⟩
  · exact ⟨loc, hloc, ⟨_, hlink⟩, by simp [hlink]⟩

namespace Files.Removable

variable {m : Machine} {path : String} {loc : Loc}

theorem ne_root (h : Removable path m loc) : loc ≠ [] := Disk.ne_root h.noDirectory

theorem run_removeFile (h : Removable path m loc) :
    (removeFile path).run.run m = (.ok (), { m with disk := m.disk.clear loc }) := by
  obtain ⟨e, hentry⟩ := h.isThere
  rw [removeFile, run_bind, run_locate, h.leads]
  simp only [run_get]
  cases e with
  | directory mode => exact absurd hentry (h.noDirectory mode)
  | file => rw [hentry]; rfl
  | link => rw [hentry]; rfl

end Files.Removable

theorem Files.machine_of_putNew {m m' : Machine} {path : String} {new : Entry} {e : OsError}
    (h : (putNew path new).run.run m = (.error e, m')) : m' = m := by
  rcases run_putNew path new m with ⟨_, hrun⟩ | ⟨_, _, _, hrun⟩
  · exact congrArg Prod.snd (h.symm.trans hrun)
  · cases hrun.symm.trans h

/-- A file is put at a path only if the path leads to a place where nothing is. -/
theorem Files.leads_of_putNew {m m' : Machine} {path : String} {mode : Nat} {bytes : ByteArray}
    (h : (putNew path (.file mode bytes)).run.run m = (.ok (), m')) :
    ∃ loc, m.Leads path loc ∧ m.disk.get? loc = none ∧
      m' = { m with disk := m.disk.put loc (.file mode bytes) } := by
  have hslash : Path.dropSlashes path = path := by
    refine Decidable.byContradiction fun hslash => ?_
    have hclosed : (decide (Path.dropSlashes path ≠ path) && !(Entry.file mode bytes).isDirectory) =
        true := by simp [hslash, Entry.isDirectory]
    rw [putNew, run_bind, run_locate] at h
    rcases hloc : m.disk.resolve m.cwd false (Path.dropSlashes path) with e | loc
    · rw [hloc] at h
      cases h
    · rw [hloc] at h
      simp only [hclosed, if_true] at h
      cases h
  rcases run_putNew path (.file mode bytes) m with ⟨e, hrun⟩ | ⟨loc, hloc, hnone, hrun⟩
  · cases hrun.symm.trans h
  · cases hrun.symm.trans h
    rw [hslash] at hloc
    exact ⟨loc, ⟨hloc, Disk.plain_of_none hnone⟩, hnone, rfl⟩

end PoolKeeper
