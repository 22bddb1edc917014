import PoolKeeper.Proofs.Reopening
import PoolKeeper.Proofs.SameWays

/-!
# `PoolKeeper/Proofs/DeadEnds.lean` — a link that leads to a file

A file that is replaced may have been a link, and then a way may be cut off that went on behind it. No way
goes on behind a dead end (`Disk.DeadEnd`), so a file can be put there in place of a link or of another
file, or what is there can be removed, and all directories are reached as before (`Disk.Walks.touch`).

Whether a place is a dead end shows when a path is opened that ends there
(`Machine.FileOrNone.deadEnd`). That needs a word about links that lead to links. How many of them a walk
may follow depends on how many it has followed already, so two walks may come to different ends from the
same place; but then one of them was given up (`Disk.Walks.walk_cases`).
-/

set_option autoImplicit false

namespace PoolKeeper

namespace Disk

variable {d : Disk} {follow : Bool} {links : Nat} {dir loc place : Loc} {steps : List String}

/-- There is no directory at the place, and none that a link at the place leads to. -/
def DeadEnd (d : Disk) : Loc → Prop
  | [] => False
  | name :: dir => ∀ links loc, Walks d true links dir [name] loc → ¬ d.IsDirectory loc

/-- The disks differ in what is at the place, and in nothing else; on the second one it is a file or
nothing. -/
structure Touch (d : Disk) (place : Loc) (d' : Disk) : Prop where
  plain : d'.Plain place
  elsewhere {loc : Loc} (h : loc ≠ place) : d'.get? loc = d.get? loc

namespace Touch

variable {d' : Disk}

theorem put (hplace : place ≠ []) (mode : Nat) (bytes : ByteArray) :
    d.Touch place (d.put place (.file mode bytes)) :=
  ⟨plain_of_file (get?_put hplace _), fun h => get?_put_of_ne h _⟩

theorem clear (hplace : place ≠ []) : d.Touch place (d.clear place) :=
  ⟨plain_of_none (d.get?_clear hplace), d.get?_clear_of_ne⟩

/-- No new way is opened. -/
theorem ways (h : d.Touch place d') : d'.Ways d := by
  constructor
  · rintro loc ⟨mode, hmode⟩
    refine ⟨mode, (h.elsewhere ?_).symm.trans hmode⟩
    rintro rfl
    exact h.plain.not_directory _ hmode
  · intro loc target htarget
    refine (h.elsewhere ?_).symm.trans htarget
    rintro rfl
    exact h.plain.not_link _ htarget

theorem stands (h : d.Touch place d') (hplace : ∀ mode, d.get? place ≠ some (.directory mode))
    (hdir : d.stands dir) : d'.stands dir := Walks.stands_of_elsewhere hdir hplace h.elsewhere

end Touch

/-- What leads to no directory leads to none where no way was opened. -/
theorem DeadEnd.of_ways {d' : Disk} (h : d.DeadEnd place) (hways : d'.Ways d) : d'.DeadEnd place := by
  cases place with
  | nil => exact h
  | cons name dir =>
    intro links loc hwalks hdir
    exact h links loc (hways.walks hwalks hdir) (hways.directory hdir)

/-- Where a dead end is touched, all directories are reached as before, and so is whatever is reached by a
walk that stays at a last link. -/
theorem Walks.touch {d' : Disk} (h : Walks d follow links dir steps loc) (hdir : d.stands dir)
    (hend : follow = true → d.IsDirectory loc) (hdead : d.DeadEnd place)
    (hplace : ∀ mode, d.get? place ≠ some (.directory mode)) (htouch : d.Touch place d') :
    Walks d' follow links dir steps loc := by
  induction h with
  | done => exact .done
  | here _ ih => exact .here (ih hdir hend)
  | up _ ih => exact .up (ih (stands_tail hdir) hend)
  | @last _ dir name hname hshort hnodir hlink =>
    by_cases heq : name :: dir = place
    · subst heq
      exact .last hname hshort htouch.plain.not_directory fun target htarget =>
        absurd htarget (htouch.plain.not_link target)
    · have hsame := htouch.elsewhere heq
      exact .last hname hshort (fun mode hmode => hnodir mode (hsame.symm.trans hmode))
        fun target htarget => hlink target (hsame.symm.trans htarget)
  | @down _ dir _ name _ mode' hname hshort hentry _ ih =>
    have hne : name :: dir ≠ place := by
      rintro rfl
      exact hplace _ hentry
    exact .down hname hshort ((htouch.elsewhere hne).trans hentry) (ih (stands_cons hdir hentry) hend)
  | @link links dir loc name target rest hname hshort hentry hon htarget h ih =>
    have hne : name :: dir ≠ place := by
      rintro rfl
      -- Behind the link the walk would come to a directory, at its end or before.
      have hbehind {loc : Loc} (h : Walks d true links (if Path.isAbsolute target then [] else dir)
          (Path.steps target) loc) : ¬ d.IsDirectory loc :=
        hdead (links + 1) loc (.link hname hshort hentry (fun _ => rfl) htarget
          ((List.append_nil _).symm ▸ h))
      rcases rest with _ | ⟨step, rest⟩
      · obtain rfl : follow = true := hon rfl
        rw [List.append_nil] at h
        exact hbehind h (hend rfl)
      · obtain ⟨loc', hwalks, hstands⟩ := h.split (List.cons_ne_nil _ _) (stands_start hdir)
        exact hbehind hwalks (Walks.get?_of_stands hstands)
    exact .link hname hshort ((htouch.elsewhere hne).trans hentry) hon htarget
      (ih (stands_start hdir) hend)

theorem Touch.resolve {d' : Disk} {cwd : Loc} {path : String} (htouch : d.Touch place d')
    (h : d.resolve cwd follow path = .ok loc) (hend : follow = true → d.IsDirectory loc)
    (hdead : d.DeadEnd place) (hplace : ∀ mode, d.get? place ≠ some (.directory mode)) :
    d'.resolve cwd follow path = .ok loc := by
  obtain ⟨hpath, hstart, hwalks⟩ := resolve_eq_ok_iff.mp h
  exact resolve_eq_ok_iff.mpr
    ⟨hpath, htouch.stands hplace hstart, hwalks.touch hstart hend hdead hplace htouch⟩

theorem resolve_put_deadEnd {cwd : Loc} {path : String} (h : d.resolve cwd follow path = .ok loc)
    (hend : follow = true → d.IsDirectory loc) (hdead : d.DeadEnd place)
    (hplace : ∀ mode, d.get? place ≠ some (.directory mode)) (mode : Nat) (bytes : ByteArray) :
    (d.put place (.file mode bytes)).resolve cwd follow path = .ok loc := by
  exact (Touch.put (ne_root hplace) mode bytes).resolve h hend hdead hplace

end Disk

/-! ## Paths of files -/

/-- The path leads to a file, or to a place where nothing is, or it would lead there if something were
there that is not. -/
inductive Machine.FileOrNone (m : Machine) (path : String) : Prop
  | reached {loc : Loc} (h : m.disk.resolve m.cwd true path = .ok loc) (hplain : m.disk.Plain loc)
  | missing (h : m.disk.resolve m.cwd true path = .error .notFound)

/-- What opens as a file is a dead end. -/
theorem Machine.FileOrNone.deadEnd {m : Machine} {path : String} {loc : Loc} (h : m.FileOrNone path)
    (hname : Disk.EndsInName (Path.steps path)) (hloc : m.disk.resolve m.cwd false path = .ok loc) :
    m.disk.DeadEnd loc := by
  obtain ⟨hpath, hstart, hwalks⟩ := Disk.resolve_eq_ok_iff.mp hloc
  obtain ⟨name, hlast, hname⟩ := hname
  obtain ⟨left, place, hend, hwalk⟩ := hwalks.exists_last hlast hname
  obtain rfl := hend.eq_cons hname
  have hresolve := (Disk.resolve_eq_walk true hpath hstart).trans (hwalk true)
  rintro links loc' hwalks' ⟨mode, hmode⟩
  have hends := hwalks'.walk_cases left
  rw [← hresolve] at hends
  cases h with
  | reached h hplain =>
    rw [h] at hends
    rcases hends with heq | heq
    · cases heq
      exact hplain.not_directory mode hmode
    · cases heq
  | missing h =>
    rw [h] at hends
    rcases hends with heq | heq <;> cases heq

/-- After a file was put at the end of a path, the path leads to it, links followed or not. -/
theorem Machine.leads_of_put {m : Machine} {path : String} {loc : Loc}
    (hloc : m.disk.resolve m.cwd false path = .ok loc) (hdead : m.disk.DeadEnd loc)
    (hplace : ∀ mode, m.disk.get? loc ≠ some (.directory mode)) (mode : Nat) (bytes : ByteArray) :
    Machine.Leads { m with disk := m.disk.put loc (.file mode bytes) } path loc := by
  exact ⟨Disk.resolve_put_deadEnd hloc (by rintro ⟨⟩) hdead hplace mode bytes,
    Disk.plain_of_file (Disk.get?_put (Disk.ne_root hplace) _)⟩

end PoolKeeper
