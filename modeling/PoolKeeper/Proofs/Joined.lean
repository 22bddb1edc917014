import PoolKeeper.Proofs.Commands
import PoolKeeper.Proofs.SnapshotView

/-!
# `PoolKeeper/Proofs/Joined.lean` — a name in a directory that a path leads to

`Path.join` puts a name behind the text of a path. Where the path leads to a directory, the joined path
leads to the name in that directory or nowhere (`Files.resolve_join`), whether or not the text had slashes
at its end. It leads nowhere only if the path or the name is too long.

How a path leads to a directory depends on the directories and links of the disk alone (`Disk.Ways`). So it
leads there as well after files came and went.
-/

set_option autoImplicit false

namespace PoolKeeper

/-! ## The names in a path -/

namespace Path

/-- What stands between slashes. -/
def namesOf (cs : List Char) : List (List Char) := ((pieces 0 [] cs).map (·.1)).filter (!·.isEmpty)

/-- The text of the pieces does not depend on what came before. -/
theorem map_pieces (cs : List Char) (passed passed' : Nat) (current : List Char) :
    (pieces passed current cs).map (·.1) = (pieces passed' current cs).map (·.1) := by
  induction cs generalizing passed passed' current with
  | nil => rfl
  | cons c cs ih =>
    rw [pieces, pieces]
    split
    · rw [List.map_cons, List.map_cons, ih (passed + 1) (passed' + 1)]
    · exact ih _ _ _

theorem pieces_append (cs ds : List Char) (passed : Nat) (current : List Char) :
    pieces passed current (cs ++ '/' :: ds) =
      pieces passed current cs ++ pieces (passed + cs.length + 1) [] ds := by
  induction cs generalizing passed current with
  | nil => simp [pieces]
  | cons c cs ih =>
    have hlength : passed + 1 + cs.length = passed + (c :: cs).length := by
      rw [List.length_cons]
      omega
    rw [List.cons_append, pieces, pieces]
    split
    · rw [ih, hlength, List.cons_append]
    · rw [ih, hlength]

theorem namesOf_append (cs ds : List Char) : namesOf (cs ++ '/' :: ds) = namesOf cs ++ namesOf ds := by
  rw [namesOf, pieces_append, List.map_append, List.filter_append,
    map_pieces ds (0 + cs.length + 1) 0 []]
  rfl

theorem namesOf_name {cs : List Char} (hne : cs ≠ []) (hslash : '/' ∉ cs) : namesOf cs = [cs] := by
  rw [namesOf, pieces_of_plain hslash]
  simp [hne]

theorem steps_eq (path : String) : steps path = (namesOf path.toList).map String.ofList ++
    if path.toList.getLast? == some '/' then ["."] else [] := by
  rw [steps, List.map_append]
  split <;> rfl

/-- No step has a slash in it. -/
theorem noSlash_of_mem_steps {path step : String} (h : step ∈ steps path) : '/' ∉ step.toList := by
  have hpieces : ∀ (cs current : List Char) (passed : Nat), '/' ∉ current →
      ∀ piece ∈ pieces passed current cs, '/' ∉ piece.1 := by
    intro cs
    induction cs with
    | nil =>
      intro current passed hcurrent piece hpiece
      obtain rfl := List.mem_singleton.mp hpiece
      simpa using hcurrent
    | cons c cs ih =>
      intro current passed hcurrent piece hpiece
      rw [pieces] at hpiece
      split at hpiece
      next =>
        rcases List.mem_cons.mp hpiece with rfl | hpiece
        · simpa using hcurrent
        · exact ih [] _ List.not_mem_nil piece hpiece
      next hc =>
        refine ih (c :: current) _ ?_ piece hpiece
        rw [List.mem_cons, not_or]
        exact ⟨Ne.symm hc, hcurrent⟩
  rw [steps_eq, List.mem_append] at h
  rcases h with h | h
  · obtain ⟨cs, hcs, rfl⟩ := List.mem_map.mp h
    obtain ⟨piece, hpiece, rfl⟩ := List.mem_map.mp (List.mem_filter.mp hcs).1
    rw [String.toList_ofList]
    exact hpieces _ _ _ List.not_mem_nil piece hpiece
  · split at h
    · obtain rfl := List.mem_singleton.mp h
      decide
    · cases h

/-- A name that is put behind a path is one more step. -/
theorem steps_join {dir name : String} (hdir : dir ≠ "") (hname : name ≠ "")
    (hslash : '/' ∉ name.toList) :
    steps (join dir name) = (namesOf dir.toList).map String.ofList ++ [name] := by
  have hne : name.toList ≠ [] := by simpa using hname
  have hrelative := isAbsolute_of_noSlash hslash
  have hopen (first : List Char) : (first ++ name.toList).getLast? ≠ some '/' := by
    rw [List.getLast?_append, List.getLast?_eq_some_getLast hne, Option.some_or]
    exact fun h => hslash (Option.some.inj h ▸ List.getLast_mem hne)
  -- Either way the name stands behind exactly one of the slashes.
  obtain ⟨cs, hjoin, hnames⟩ : ∃ cs, (join dir name).toList = cs ++ '/' :: name.toList ∧
      namesOf cs = namesOf dir.toList := by
    rw [join, hrelative, if_neg Bool.false_ne_true]
    by_cases hend : dir.toList.getLast? = some '/'
    · obtain ⟨cs, hcs⟩ := List.getLast?_eq_some_iff.mp hend
      rw [if_pos (by simp [hend]), String.toList_append, hcs]
      refine ⟨cs, by simp, ?_⟩
      rw [namesOf_append]
      simp [namesOf, pieces]
    · rw [if_neg (by simp [hend, hdir]), String.toList_append, String.toList_append]
      exact ⟨dir.toList, by simp, rfl⟩
  have hlast : (join dir name).toList.getLast? ≠ some '/' := by
    rw [hjoin, List.append_cons]
    exact hopen _
  rw [steps_eq, hjoin, namesOf_append, hnames, namesOf_name hne hslash, ← hjoin]
  simp [hlast]

theorem isAbsolute_join {dir name : String} (hdir : dir ≠ "") (hslash : '/' ∉ name.toList) :
    isAbsolute (join dir name) = isAbsolute dir := by
  have hrelative := isAbsolute_of_noSlash hslash
  have hne : dir.toList ≠ [] := by simpa using hdir
  obtain ⟨c, cs, hchars⟩ := List.exists_cons_of_ne_nil hne
  obtain ⟨more, hjoin⟩ : ∃ more, (join dir name).toList = dir.toList ++ more := by
    rw [join, hrelative, if_neg Bool.false_ne_true]
    split
    · exact ⟨name.toList, String.toList_append⟩
    · exact ⟨"/".toList ++ name.toList, by rw [String.toList_append, String.toList_append,
        List.append_assoc]⟩
  rw [isAbsolute, isAbsolute, hjoin, hchars]
  rfl

/-- The names of a path come first among its steps, and a step on the spot may follow. -/
theorem steps_cases (path : String) : (path.toList.getLast? ≠ some '/' ∧
    steps path = (namesOf path.toList).map String.ofList) ∨
    (path.toList.getLast? = some '/' ∧ steps path = (namesOf path.toList).map String.ofList ++ ["."]) := by
  rw [steps_eq]
  by_cases h : path.toList.getLast? = some '/'
  · exact .inr ⟨h, by simp [h]⟩
  · exact .inl ⟨h, by simp [h]⟩

theorem namesOf_slashes {cs : List Char} (h : ∀ c ∈ cs, c = '/') : namesOf cs = [] := by
  induction cs with
  | nil => rfl
  | cons c cs ih =>
    rw [List.forall_mem_cons] at h
    obtain ⟨rfl, hcs⟩ := h
    have hsplit := namesOf_append [] cs
    rw [List.nil_append] at hsplit
    rw [hsplit, ih hcs]
    rfl

/-- Slashes at the end of a path count for nothing. -/
theorem dropSlashes_cases (path : String) : dropSlashes path = path ∨
    ∃ slashes, path = dropSlashes path ++ slashes ∧ dropSlashes path ≠ "" ∧
      steps (dropSlashes path) = (namesOf path.toList).map String.ofList := by
  by_cases hend : path.toList.getLast? = some '/'
  · have hsplit := List.takeWhile_append_dropWhile (p := (· == '/')) (l := path.toList.reverse)
    have hchars := congrArg List.reverse hsplit
    rw [List.reverse_append, List.reverse_reverse] at hchars
    have hslashes : ∀ c ∈ (path.toList.reverse.takeWhile (· == '/')).reverse, c = '/' := by
      intro c hc
      simpa using List.all_eq_true.mp List.all_takeWhile c (List.mem_reverse.mp hc)
    have hopen : (path.toList.reverse.dropWhile (· == '/')).reverse.getLast? ≠ some '/' := by
      rw [List.getLast?_reverse]
      intro hhead
      have hnot := List.head?_dropWhile_not (p := (· == '/')) (l := path.toList.reverse)
      rw [hhead] at hnot
      simp at hnot
    rw [dropSlashes]
    generalize (path.toList.reverse.dropWhile (· == '/')).reverse = kept at hchars hopen ⊢
    generalize (path.toList.reverse.takeWhile (· == '/')).reverse = slashes at hchars hslashes
    -- A path of slashes alone is the root, and stays as it is.
    by_cases hkept : kept = []
    · exact .inl (if_pos (by simp [hkept]))
    · rw [if_neg (by simp [hkept])]
      refine .inr ⟨String.ofList slashes, ?_, by simpa using hkept, ?_⟩
      · rw [← String.ofList_append, hchars, String.ofList_toList]
      · have hnames : namesOf path.toList = namesOf kept := by
          rw [← hchars]
          cases slashes with
          | nil => rw [List.append_nil]
          | cons c cs =>
            rw [List.forall_mem_cons] at hslashes
            obtain ⟨rfl, hcs⟩ := hslashes
            rw [namesOf_append, namesOf_slashes hcs, List.append_nil]
        rw [steps_eq, String.toList_ofList, hnames]
        simp [hopen]
  · exact .inl (dropSlashes_of_ne_slash hend)

end Path

/-! ## Walks -/

namespace Disk

variable {d d' : Disk} {follow : Bool} {links : Nat} {dir loc loc' : Loc} {name : String}
  {steps more : List String}

namespace Walks

/-- A walk to a directory can be continued. -/
theorem append (h : Walks d true links dir steps loc) (hdir : d.IsDirectory loc) (hne : more ≠ [])
    (hmore : ∀ links, Walks d follow links loc more loc') :
    Walks d follow links dir (steps ++ more) loc' := by
  induction h with
  | done => exact hmore _
  | here _ ih => exact .here (ih hdir hmore)
  | up _ ih => exact .up (ih hdir hmore)
  | last _ _ hno =>
    obtain ⟨mode, hmode⟩ := hdir
    exact absurd hmode (hno mode)
  | down hname hshort hentry _ ih => exact .down hname hshort hentry (ih hdir hmore)
  | @link links dir loc name target rest hname hshort hentry _ htarget _ ih =>
    have hrest := ih hdir hmore
    rw [List.append_assoc] at hrest
    exact .link hname hshort hentry (fun h => absurd (List.append_eq_nil_iff.mp h).2 hne) htarget hrest

/-- Where a walk ends is settled by its steps. -/
theorem unique (h : Walks d follow links dir steps loc) (h' : Walks d follow links dir steps loc') :
    loc = loc' := by
  have heq := h.walk_eq.symm.trans h'.walk_eq
  exact Except.ok.inj heq

/-- A step on the spot at the end of a walk changes nothing. -/
theorem of_append_here (h : Walks d true links dir (steps ++ ["."]) loc) (hdir : d.stands dir) :
    Walks d true links dir steps loc := by
  obtain ⟨loc', hwalks, hstands⟩ := h.split (List.cons_ne_nil _ _) hdir
  have hagain : Walks d true links dir (steps ++ ["."]) loc' :=
    hwalks.append (get?_of_stands hstands) (List.cons_ne_nil _ _) fun _ => .here .done
  exact h.unique hagain ▸ hwalks

end Walks

/-! ## Ways to directories -/

theorem get?_clear_of_ne (d : Disk) (h : loc' ≠ loc) : (d.clear loc).get? loc' = d.get? loc' := by
  have hlookup := lookup_filter (fun x => x ≠ loc) d.entries loc'
  rw [get?, get?, clear, hlookup, if_pos (decide_eq_true h)]

theorem get?_clear (d : Disk) (h : loc ≠ []) : (d.clear loc).get? loc = none := by
  have hlookup := lookup_filter (fun x => x ≠ loc) d.entries loc
  rw [get?, if_neg h, clear, hlookup]
  simp

namespace Ways

/-- A path that leads to a directory leads there as well. -/
theorem resolve {cwd : Loc} {path : String} (hways : d.Ways d')
    (h : d.resolve cwd true path = .ok loc) (hloc : d.IsDirectory loc) :
    d'.resolve cwd true path = .ok loc := by
  obtain ⟨hpath, hstart, hwalks⟩ := resolve_eq_ok_iff.mp h
  exact resolve_eq_ok_iff.mpr ⟨hpath, hways.stands hstart, hways.walks hwalks hloc⟩

/-- Nothing but a file, or a directory where one was, opens no new way. -/
theorem of_put {e : Entry} (hlink : ∀ target, e ≠ .link target)
    (hdir : ∀ mode, e = .directory mode → d.IsDirectory loc) : (d.put loc e).Ways d := by
  by_cases hroot : loc = []
  · subst hroot
    have hsame (loc' : Loc) : (d.put [] e).get? loc' = d.get? loc' := by
      by_cases hloc' : loc' = []
      · rw [hloc', get?_root, get?_root]
      · exact get?_put_of_ne hloc' e
    constructor
    · intro loc' h
      rwa [IsDirectory, hsame] at h
    · intro loc' target h
      rwa [hsame] at h
  · constructor
    · intro loc' h
      obtain ⟨mode, hmode⟩ := h
      by_cases hloc' : loc' = loc
      · subst hloc'
        exact hdir mode (Option.some.inj ((get?_put hroot e).symm.trans hmode))
      · exact ⟨mode, (get?_put_of_ne hloc' e).symm.trans hmode⟩
    · intro loc' target h
      by_cases hloc' : loc' = loc
      · subst hloc'
        exact absurd (Option.some.inj ((get?_put hroot e).symm.trans h)) (hlink target)
      · exact (get?_put_of_ne hloc' e).symm.trans h

/-- No way goes through a file. -/
theorem of_clear {mode : Nat} {bytes : ByteArray} (hfile : d.get? loc = some (.file mode bytes)) :
    d.Ways (d.clear loc) := by
  constructor
  · intro loc' hdir
    obtain ⟨mode', hmode'⟩ := hdir
    refine ⟨mode', (get?_clear_of_ne d fun heq => ?_).trans hmode'⟩
    subst heq
    cases hfile.symm.trans hmode'
  · intro loc' target htarget
    refine (get?_clear_of_ne d fun heq => ?_).trans htarget
    subst heq
    cases hfile.symm.trans htarget

end Ways

/-! ## A name behind a path -/

section Join

variable {cwd : Loc} {path : String}

/-- A path that leads anywhere is not empty. -/
theorem ne_empty_of_resolve (h : d.resolve cwd follow path = .ok loc) : path ≠ "" :=
  (resolve_eq_ok_iff.mp h).1.2.1

/-- The names in a path that leads to a directory lead there too. -/
theorem walks_namesOf (h : d.resolve cwd true path = .ok loc) :
    Walks d true maxLinks (start cwd path) ((Path.namesOf path.toList).map String.ofList) loc := by
  obtain ⟨-, hstart, hwalks⟩ := resolve_eq_ok_iff.mp h
  rcases Path.steps_cases path with ⟨-, hsteps⟩ | ⟨-, hsteps⟩
  · rwa [hsteps] at hwalks
  · rw [hsteps] at hwalks
    exact hwalks.of_append_here hstart

/-- Where a path leads to a directory, the path with a name behind it leads to the name there, unless it
leads nowhere for being too long. -/
theorem resolve_join (h : d.resolve cwd true path = .ok loc) (hloc : d.IsDirectory loc)
    (hname : name ≠ "" ∧ IsName name) (hslash : '/' ∉ name.toList)
    (hlink : ∀ target, d.get? (name :: loc) ≠ some (.link target)) :
    d.resolve cwd follow (Path.join path name) = .ok (name :: loc) ↔
      IsPath (Path.join path name) ∧ name.utf8ByteSize ≤ maxName := by
  have hne := ne_empty_of_resolve h
  have hsteps := Path.steps_join hne hname.1 hslash
  have hstart : start cwd (Path.join path name) = start cwd path := by
    rw [start, start, Path.isAbsolute_join hne hslash]
  have hstands : d.stands (start cwd path) := (resolve_eq_ok_iff.mp h).2.1
  rw [resolve_eq_ok_iff, hstart, hsteps]
  constructor
  · rintro ⟨hpath, -, hwalks⟩
    exact ⟨hpath, hwalks.short (List.getLast?_concat ..) hname.2⟩
  · rintro ⟨hpath, hshort⟩
    refine ⟨hpath, hstands, (walks_namesOf h).append hloc (List.cons_ne_nil _ _) fun links => ?_⟩
    by_cases hdir : d.IsDirectory (name :: loc)
    · obtain ⟨mode, hentry⟩ := hdir
      exact .down hname.2 hshort hentry .done
    · exact .last hname.2 hshort (fun mode hmode => hdir ⟨mode, hmode⟩) fun target htarget =>
        absurd htarget (hlink target)

/-- If the joined path leads anywhere, it leads to the name. -/
theorem eq_of_resolve_join {loc' : Loc} (h : d.resolve cwd true path = .ok loc)
    (hloc : d.IsDirectory loc) (hname : name ≠ "" ∧ IsName name) (hslash : '/' ∉ name.toList)
    (hlink : ∀ target, d.get? (name :: loc) ≠ some (.link target))
    (h' : d.resolve cwd follow (Path.join path name) = .ok loc') : loc' = name :: loc := by
  obtain ⟨hpath, -, hwalks⟩ := resolve_eq_ok_iff.mp h'
  rw [Path.steps_join (ne_empty_of_resolve h) hname.1 hslash] at hwalks
  have hshort := hwalks.short (List.getLast?_concat ..) hname.2
  have hthere : d.resolve cwd follow (Path.join path name) = .ok (name :: loc) :=
    (resolve_join h hloc hname hslash hlink).mpr ⟨hpath, hshort⟩
  exact Except.ok.inj (h'.symm.trans hthere)

end Join

end Disk

/-! ## Directories that are there -/

namespace Files

variable {m : Machine} {path : String}

/-- A directory is there as well without the slashes at the end of its path. -/
theorem hasDirectory_dropSlashes (h : m.HasDirectory path) :
    m.HasDirectory (Path.dropSlashes path) := by
  rcases Path.dropSlashes_cases path with heq | ⟨slashes, hpath, hne, hsteps⟩
  · rwa [heq]
  · obtain ⟨loc, mode, hloc, hentry⟩ := h
    refine ⟨loc, mode, ?_, hentry⟩
    have hwalks := Disk.walks_namesOf hloc
    obtain ⟨⟨hnul, -, hlong⟩, hstart, -⟩ := Disk.resolve_eq_ok_iff.mp hloc
    have habsolute : Disk.start m.cwd (Path.dropSlashes path) = Disk.start m.cwd path := by
      have hchars : (Path.dropSlashes path).toList ≠ [] := by simpa using hne
      obtain ⟨c, cs, hcs⟩ := List.exists_cons_of_ne_nil hchars
      have hwhole : path.toList = c :: (cs ++ slashes.toList) := by
        rw [hpath, String.toList_append, hcs]
        rfl
      rw [Disk.start, Disk.start, Path.isAbsolute, Path.isAbsolute, hcs, hwhole]
      rfl
    rw [← hsteps, ← habsolute] at hwalks
    refine Disk.resolve_eq_ok_iff.mpr ⟨⟨?_, hne, ?_⟩, habsolute ▸ hstart, hwalks⟩
    · have hnul' : '\x00' ∉ path.toList := by simpa using hnul
      have hmem : '\x00' ∉ (Path.dropSlashes path).toList := by
        intro hmem
        refine hnul' ?_
        rw [hpath, String.toList_append]
        exact List.mem_append_left _ hmem
      simpa using hmem
    · rw [hpath, String.utf8ByteSize_append] at hlong
      omega

/-- A directory that is there is not made again, however many slashes its path ends in. -/
theorem run_makeDirectories_standing (h : m.HasDirectory path) :
    (makeDirectories path).run.run m = (.ok (), m) := by
  refine run_makeDirectories_of_ensure ?_
  obtain ⟨hmachine, hthere⟩ := run_isDirectory path m
  rw [makeDirectories.ensure, run_tryCatch, makeDirectory]
  rcases run_putNew path .newDirectory m with ⟨e, hrun⟩ | ⟨loc, hloc, hnone, -⟩
  · rw [hrun]
    simp only [run_bind, run_liftM, hmachine, hthere.mpr h]
    rfl
  · obtain ⟨dir, mode, hdir, hentry⟩ := hasDirectory_dropSlashes h
    obtain ⟨loc', e, hloc', hentry'⟩ := exists_unfollowed hdir hentry
    cases hloc.symm.trans hloc'
    cases hnone.symm.trans hentry'

end Files

end PoolKeeper
