import PoolKeeper.Proofs.SameWays

/-!
# `PoolKeeper/Proofs/SameFiles.lean` — what handing over a request leaves alone

To hand over a request, a process makes the spool if it is not there, sees to its permissions and puts one
file into it. `Disk.Grows` is what none of these steps breaks: every file and every link stays what it is,
and every directory stays a directory, so whoever found a text finds it still (`Disk.Grows.text?`).

So there are two outcomes and no others (`Spool.submit_outcome`). Either the request is in the spool, in a
file of its own and in a place that was empty, and there is no other new file (`Disk.OneMore`), or there is
no new file at all (`Disk.SameFiles`).
-/

set_option autoImplicit false

namespace PoolKeeper

namespace Disk

variable {d d' d'' : Disk} {follow : Bool} {links : Nat} {dir loc place : Loc} {steps : List String}
  {e : Entry} {bytes : ByteArray}

/-- The files and links of `d` are on `d'`, and its directories are directories there. -/
structure Grows (d d' : Disk) : Prop where
  kept {loc : Loc} {e : Entry} (he : e.isDirectory = false) (h : d.get? loc = some e) :
    d'.get? loc = some e
  directory {loc : Loc} (h : d.IsDirectory loc) : d'.IsDirectory loc

/-- There are no other files and links on `d'` than on `d`. -/
structure SameFiles (d d' : Disk) : Prop extends Grows d d' where
  back {loc : Loc} {e : Entry} (he : e.isDirectory = false) (h : d'.get? loc = some e) :
    d.get? loc = some e

/-- There is one more on `d'`, a private file in a place that was empty. -/
structure OneMore (d : Disk) (place : Loc) (bytes : ByteArray) (d' : Disk) : Prop
    extends Grows d d' where
  free : d.get? place = none
  found : d'.get? place = some (.privateFile bytes)
  back {loc : Loc} {e : Entry} (hne : loc ≠ place) (he : e.isDirectory = false)
    (h : d'.get? loc = some e) : d.get? loc = some e

namespace Grows

theorem refl (d : Disk) : d.Grows d := ⟨fun _ h => h, fun h => h⟩

theorem trans (h : d.Grows d') (h' : d'.Grows d'') : d.Grows d'' :=
  ⟨fun he hloc => h'.kept he (h.kept he hloc), fun hdir => h'.directory (h.directory hdir)⟩

theorem ways (h : d.Grows d') : d.Ways d' := ⟨h.directory, h.kept rfl⟩

/-- Whoever found a text finds it still. -/
theorem text? {m m' : Machine} {path text : String} (h : m.disk.Grows m'.disk) (hcwd : m'.cwd = m.cwd)
    (htext : m.text? path = some text) : m'.text? path = some text :=
  Machine.text?_of_ways h.ways hcwd (h.kept rfl) htext

/-- Where a walk that stays at a last link ended, it ends still, whatever came to be there. -/
theorem walks (h : d.Grows d') (hwalks : Walks d false links dir steps loc) :
    Walks d' false links dir steps loc := by
  apply h.ways.walks_of_last id hwalks
  rintro _ dir name hname hshort rfl - -
  by_cases hdir : d'.IsDirectory (name :: dir)
  · obtain ⟨mode, hmode⟩ := hdir
    exact .down hname hshort hmode .done
  · exact .last hname hshort (fun mode hmode => hdir ⟨mode, hmode⟩) fun _ _ => rfl

theorem get?_eq_none (h : d.Grows d') (hnone : d'.get? loc = none) : d.get? loc = none := by
  rcases hentry : d.get? loc with _ | e
  · rfl
  cases he : e.isDirectory with
  | true =>
    rcases e with _ | mode | _ <;> cases he
    obtain ⟨mode', hmode'⟩ := h.directory ⟨mode, hentry⟩
    cases hnone.symm.trans hmode'
  | false => cases hnone.symm.trans (h.kept he hentry)

end Grows

namespace SameFiles

theorem refl (d : Disk) : d.SameFiles d := ⟨.refl d, fun _ h => h⟩

theorem trans (h : d.SameFiles d') (h' : d'.SameFiles d'') : d.SameFiles d'' :=
  ⟨h.toGrows.trans h'.toGrows, fun he hloc => h.back he (h'.back he hloc)⟩

/-- A directory is made where nothing is, or gets other permissions. -/
theorem put_directory (h : d.get? place = none ∨ d.IsDirectory place) (mode : Nat) :
    d.SameFiles (d.put place (.directory mode)) := by
  by_cases hroot : place = []
  · subst hroot
    -- The root is no part of the table.
    have hsame (loc : Loc) : (d.put [] (.directory mode)).get? loc = d.get? loc := by
      by_cases hloc : loc = []
      · rw [hloc, get?_root, get?_root]
      · exact get?_put_of_ne hloc _
    exact ⟨⟨fun _ he => (hsame _).trans he, fun ⟨mode', hdir⟩ => ⟨mode', (hsame _).trans hdir⟩⟩,
      fun _ he => (hsame _).symm.trans he⟩
  have hput := get?_put (d := d) hroot (.directory mode)
  have hnofile {e : Entry} (he : e.isDirectory = false) : d.get? place ≠ some e := by
    intro hplace
    rcases h with hnone | ⟨mode', hdir⟩
    · cases hnone.symm.trans hplace
    · cases hdir.symm.trans hplace
      cases he
  refine ⟨⟨fun he hloc => ?_, fun {loc} hdir => ?_⟩, fun {loc e} he hloc => ?_⟩
  · refine (get?_put_of_ne ?_ _).trans hloc
    rintro rfl
    exact hnofile he hloc
  · by_cases heq : loc = place
    · exact ⟨mode, heq ▸ hput⟩
    · obtain ⟨mode', hdir⟩ := hdir
      exact ⟨mode', (get?_put_of_ne heq _).trans hdir⟩
  · by_cases heq : loc = place
    · subst heq
      cases hput.symm.trans hloc
      cases he
    · exact (get?_put_of_ne heq _).symm.trans hloc

end SameFiles

/-- After directories were made, one file is put where nothing is. -/
theorem OneMore.of_put (h : d.SameFiles d') (hfree : d'.get? place = none) (bytes : ByteArray) :
    d.OneMore place bytes (d'.put place (.privateFile bytes)) := by
  have hplain := plain_of_none hfree
  have hput := get?_put (d := d') hplain.ne_root (.privateFile bytes)
  have hother {loc : Loc} (hne : loc ≠ place) :
      (d'.put place (.privateFile bytes)).get? loc = d'.get? loc := get?_put_of_ne hne _
  constructor
  · constructor
    · intro loc e he hloc
      have hloc' := h.kept he hloc
      refine (hother ?_).trans hloc'
      rintro rfl
      cases hfree.symm.trans hloc'
    · intro loc hdir
      obtain ⟨mode, hmode⟩ := h.directory hdir
      refine ⟨mode, (hother ?_).trans hmode⟩
      rintro rfl
      cases hfree.symm.trans hmode
  · exact h.toGrows.get?_eq_none hfree
  · exact hput
  · intro loc e hne he hloc
    exact h.back he ((hother hne).symm.trans hloc)

/-- After a directory was made at the end of a walk, the same steps lead to it. -/
theorem Walks.put_directory (h : Walks d false links dir steps loc) (hnone : d.get? loc = none)
    (mode : Nat) : Walks (d.put loc (.directory mode)) true links dir steps loc := by
  have hbelow : d.Below (d.put loc (.directory mode)) := by
    intro place e he
    refine (get?_put_of_ne ?_ _).trans he
    rintro rfl
    cases hnone.symm.trans he
  apply (Ways.of_below hbelow).walks_of_last (fun _ => rfl) h
  rintro _ _ _ hname hshort rfl - -
  exact .down hname hshort (get?_put (List.cons_ne_nil _ _) _) .done

/-- If a path with a name behind it leads anywhere, a link at its end not followed, it leads to the
name. -/
theorem eq_of_resolve_join_unfollowed {cwd loc' : Loc} {path name : String}
    (h : d.resolve cwd true path = .ok loc) (hloc : d.IsDirectory loc) (hname : name ≠ "" ∧ IsName name)
    (hslash : '/' ∉ name.toList) (h' : d.resolve cwd false (Path.join path name) = .ok loc') :
    loc' = name :: loc := by
  obtain ⟨-, -, hwalks⟩ := resolve_eq_ok_iff.mp h'
  have hne := ne_empty_of_resolve h
  have hstart : start cwd (Path.join path name) = start cwd path := by
    rw [start, start, Path.isAbsolute_join hne hslash]
  rw [Path.steps_join hne hname.1 hslash] at hwalks
  have hshort := hwalks.short (List.getLast?_concat ..) hname.2
  have hthere : Walks d false maxLinks (start cwd path)
      ((Path.namesOf path.toList).map String.ofList ++ [name]) (name :: loc) := by
    refine (walks_namesOf h).append hloc (List.cons_ne_nil _ _) fun links => ?_
    by_cases hdir : d.IsDirectory (name :: loc)
    · obtain ⟨mode, hentry⟩ := hdir
      exact .down hname.2 hshort hentry .done
    · exact .last hname.2 hshort (fun mode hmode => hdir ⟨mode, hmode⟩) fun _ _ => rfl
  rw [hstart] at hwalks
  exact hwalks.unique hthere

end Disk

/-! ## Directories -/

namespace Files

variable {m m' : Machine} {path : String} {loc : Loc}

theorem makeDirectory_sameFiles (path : String) (m : Machine) :
    m.disk.SameFiles ((makeDirectory path).run.run m).2.disk := by
  rcases run_putNew path .newDirectory m with ⟨e, hrun⟩ | ⟨loc, -, hnone, hrun⟩
  · rw [makeDirectory, hrun]
    exact .refl _
  · rw [makeDirectory, hrun]
    exact .put_directory (.inl hnone) _

theorem makeDirectories_sameFiles (path : String) (m : Machine) :
    m.disk.SameFiles ((makeDirectories path).run.run m).2.disk :=
  makeDirectories_keeps (P := fun m' => m.disk.SameFiles m'.disk)
    (fun path m' h => h.trans (makeDirectory_sameFiles path m')) path (.refl _)

/-- Whoever makes directories makes the last of them last. -/
theorem exists_ensure (hne : path ≠ "") (h : (makeDirectories path).run.run m = (.ok (), m')) :
    ∃ m₁, (makeDirectories.ensure path).run.run m₁ = (.ok (), m') := by
  rw [makeDirectories] at h
  generalize (Path.components path).length = fuel at h
  cases fuel with
  | zero =>
    rw [makeDirectories.go, if_neg hne] at h
    exact ⟨m, h⟩
  | succ fuel =>
    rw [makeDirectories.go, if_neg hne, run_tryCatch] at h
    rcases hfirst : (makeDirectories.ensure path).run.run m with ⟨e | ⟨⟩, m₁⟩
    · rw [hfirst] at h
      simp only at h
      split at h
      next =>
        split at h
        next => cases h
        next parent _ =>
          rw [run_bind] at h
          rcases hup : (makeDirectories.go fuel parent).run.run m₁ with ⟨e | _, m₂⟩
          · rw [hup] at h
            cases h
          · rw [hup] at h
            exact ⟨m₂, h⟩
      next => cases h
    · rw [hfirst] at h
      exact ⟨m, hfirst.trans h⟩

/-- The path of a directory that was made leads to no file. -/
theorem isDirectory_of_made (hne : path ≠ "") (h : (makeDirectories path).run.run m = (.ok (), m'))
    (hloc : m'.disk.resolve m'.cwd true path = .ok loc) : m'.disk.IsDirectory loc := by
  obtain ⟨hpath, hstart, hwalks⟩ := Disk.resolve_eq_ok_iff.mp hloc
  -- Only a path that ends in a name can lead to something else than a directory.
  by_cases hname : Disk.EndsInName (Path.steps path)
  case neg => exact Disk.Walks.get?_of_stands ((hwalks.stands hstart).resolve_right hname)
  obtain ⟨m₁, hensure⟩ := exists_ensure hne h
  rw [makeDirectories.ensure, run_tryCatch, makeDirectory] at hensure
  rcases run_putNew path .newDirectory m₁ with ⟨e, hrun⟩ | ⟨place, hplace, hnone, hrun⟩
  · rw [hrun] at hensure
    obtain ⟨hmachine, hthere⟩ := run_isDirectory path m₁
    simp only [run_bind, run_liftM, hmachine] at hensure
    split at hensure
    next => cases hensure
    next hdir =>
      cases hensure
      obtain ⟨loc', mode, hloc', hmode⟩ := hthere.mp (by simpa using hdir)
      cases hloc.symm.trans hloc'
      exact ⟨mode, hmode⟩
  · rw [hrun] at hensure
    cases hensure
    rw [Path.dropSlashes_eq hname] at hplace
    obtain ⟨-, -, hwalks'⟩ := Disk.resolve_eq_ok_iff.mp hplace
    obtain rfl := hwalks.unique (hwalks'.put_directory hnone 0o755)
    exact ⟨0o755, Disk.get?_put (Disk.plain_of_none hnone).ne_root _⟩

end Files

/-! ## The spool -/

namespace Spool

variable {m m' : Machine} {dir : String} {loc : Loc}

/-- Seeing to a directory that was made gives it other permissions, if it has not got them yet. -/
theorem setMode_sameFiles (hloc : m.disk.resolve m.cwd true dir = .ok loc) (hdir : m.disk.IsDirectory loc)
    (mode : Nat) : (Files.setMode dir mode).run.run m =
      (.ok (), { m with disk := m.disk.put loc (.directory mode) }) ∧
        m.disk.SameFiles (m.disk.put loc (.directory mode)) := by
  refine ⟨?_, .put_directory (.inr hdir) mode⟩
  obtain ⟨mode', hmode'⟩ := hdir
  rw [Files.run_setMode, hloc]
  simp only [hmode']

/-- Making sure of the spool changes no file; after that its path leads to a directory. -/
theorem ensure_sameFiles (dir : String) (m : Machine) :
    m.disk.SameFiles ((ensure dir).run.run m).2.disk ∧
      (((ensure dir).run.run m).1 = .ok () → ∃ loc,
        ((ensure dir).run.run m).2.disk.resolve ((ensure dir).run.run m).2.cwd true dir = .ok loc ∧
          ((ensure dir).run.run m).2.disk.IsDirectory loc) := by
  have hfiles := Files.makeDirectories_sameFiles dir m
  rw [run_ensure_eq]
  rcases hmade : (Files.makeDirectories dir).run.run m with ⟨e | ⟨⟩, m₁⟩ <;> rw [hmade] at hfiles
  · exact ⟨hfiles, by rintro ⟨⟩⟩
  simp only [Files.run_mode]
  rcases hloc : m₁.disk.resolve m₁.cwd true dir with e | loc
  · exact ⟨hfiles, by rintro ⟨⟩⟩
  have hdir := Files.isDirectory_of_made (Disk.ne_empty_of_resolve hloc) hmade hloc
  obtain ⟨mode, hmode⟩ := hdir
  simp only [hmode]
  split
  · obtain ⟨hset, hsame⟩ := setMode_sameFiles hloc ⟨mode, hmode⟩ 0o700
    rw [hset]
    exact ⟨hfiles.trans hsame, fun _ => ⟨loc, hsame.ways.resolve hloc ⟨mode, hmode⟩,
      hsame.directory ⟨mode, hmode⟩⟩⟩
  · exact ⟨hfiles, fun _ => ⟨loc, hloc, mode, hmode⟩⟩

/-- The request is in the spool, and nothing else came into any directory. -/
structure Queued (dir : String) (r : Request) (m m' : Machine) (loc : Loc) (name : String)
    (bytes : ByteArray) : Prop where
  leads : m'.disk.resolve m'.cwd true dir = .ok loc
  named : isRequestName name = true
  decodes : (Text.decode? bytes).bind Request.ofYaml? = some r
  more : m.disk.OneMore (name :: loc) bytes m'.disk

/-- A request is handed over in a file of its own, or not at all; and no other file is touched. -/
theorem submit_outcome (dir : String) (r : Request) (m : Machine) :
    ∃ m', m'.cwd = m.cwd ∧
      ((∃ f, (submit dir r).run.run m = (.error f, m') ∧ m.disk.SameFiles m'.disk) ∨
        ∃ path loc name bytes, (submit dir r).run.run m = (.ok path, m') ∧
          Queued dir r m m' loc name bytes) := by
  let s : Submission := ⟨r, m.pid, m.clock, m.named⟩
  obtain ⟨hfiles, hleads⟩ := ensure_sameFiles dir m
  have hdisk := ensure_disk dir m
  generalize hensure : (ensure dir).run.run m = ensured at hfiles hleads hdisk
  obtain ⟨e | ⟨⟩, m₁⟩ := ensured
  · refine ⟨m₁, (congrArg Machine.cwd hdisk).trans rfl, .inl ⟨e, ?_, hfiles⟩⟩
    rw [submit, Files.run_bind, hensure]
  obtain ⟨loc, hloc, hdir⟩ := hleads rfl
  have hensure' : (ensure dir).run.run (s.process m) = (.ok (), s.process { m with disk := m₁.disk }) := by
    rw [show s.process m = m from rfl, hensure]
    exact congrArg (Prod.mk _) hdisk
  have hsubmit := run_submit s { m with disk := m₁.disk } hensure'
  have hname : isRequestName s.name = true := isRequestName_requestName
  have hslash : '/' ∉ s.name.toList := noSlash_requestName
  have hcwd : m₁.cwd = m.cwd := (congrArg Machine.cwd hdisk).trans rfl
  rw [show s.process m = m from rfl, show s.request = r from rfl] at hsubmit
  rw [hsubmit]
  rcases hput : (Files.putNew (Path.join dir s.name) (.privateFile r.yaml.toUTF8)).run.run
    (s.processNamed { m with disk := m₁.disk }) with ⟨e | ⟨⟩, m₂⟩
  · obtain rfl := Files.machine_of_putNew hput
    exact ⟨s.processNamed { m with disk := m₁.disk }, rfl, .inl ⟨_, rfl, hfiles⟩⟩
  · obtain ⟨place, hplace, hfree, rfl⟩ := Files.leads_of_putNew hput
    have hloc' : m₁.disk.resolve m.cwd true dir = .ok loc := hcwd ▸ hloc
    -- The file was put where its path led, and that is in the directory that the spool's own path leads to.
    obtain rfl : place = s.name :: loc := Disk.eq_of_resolve_join_unfollowed hloc' hdir
      (isName_of_isRequestName hname) hslash hplace.leads
    refine ⟨{ s.processNamed m with
      disk := m₁.disk.put (s.name :: loc) (.privateFile r.yaml.toUTF8) }, rfl,
      .inr ⟨_, loc, s.name, r.yaml.toUTF8, rfl, ?_⟩⟩
    refine ⟨(hplace.plain.put _ _).there.resolve hloc' hdir, hname, ?_, .of_put hfiles hfree _⟩
    rw [Text.decode?_toUTF8]
    exact Request.ofYaml?_yaml r

end Spool

end PoolKeeper
