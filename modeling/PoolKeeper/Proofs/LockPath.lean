import PoolKeeper.Proofs.LockFile

/-!
# `PoolKeeper/Proofs/LockPath.lean` — the lock stands beside the state file

The path of a lock is the path of the state file with another extension. Where the two differ at all they
differ in the last name (`Lock.path_eq`), so they have the same parent (`Lock.parent?_path`), and no state
file is in the place of its lock (`Lock.apart`).

Taking the lock makes the directory first. What can be said of the place of the lock is said of the machine
that has the directory (`Lock.housed`), which is the machine itself if the path leads anywhere
(`Lock.housed_eq`). If nothing is there, the lock is taken, unless there is no way to it, and then taking
it is refused: it is not taken for somebody else's (`Lock.acquire_absent`).
-/

set_option autoImplicit false

namespace PoolKeeper

namespace Path

variable {front name other : List Char} {path : String}

/-! ## What stands before the last name -/

/-- What stands before a name: nothing, or something that ends in a slash. -/
inductive Fronts : List Char → Prop
  | none : Fronts []
  | some (cs : List Char) : Fronts (cs ++ ['/'])

/-- Every text ends in something without a slash. -/
theorem exists_front (cs : List Char) : ∃ front name, cs = front ++ name ∧ Fronts front ∧ '/' ∉ name := by
  induction cs with
  | nil => exact ⟨[], [], rfl, .none, List.not_mem_nil⟩
  | cons c cs ih =>
    obtain ⟨front, name, rfl, hfront, hslash⟩ := ih
    cases hfront with
    | none =>
      by_cases hc : c = '/'
      · exact ⟨['/'], name, by rw [hc]; rfl, .some [], hslash⟩
      · exact ⟨[], c :: name, rfl, .none, by simpa [Ne.symm hc] using hslash⟩
    | some cs => exact ⟨c :: cs ++ ['/'], name, by simp, .some (c :: cs), hslash⟩

/-- A name that can be the last component of a path. -/
structure IsLast (name : List Char) : Prop where
  ne_nil : name ≠ []
  noSlash : '/' ∉ name
  not_dot : name ≠ ['.']
  not_dots : name ≠ ['.', '.']

theorem exists_namesOf (hfront : Fronts front) (hne : name ≠ []) (hslash : '/' ∉ name) :
    ∃ names, namesOf (front ++ name) = names ++ [name] := by
  cases hfront with
  | none => exact ⟨[], namesOf_name hne hslash⟩
  | some cs =>
    rw [List.append_assoc, List.singleton_append, namesOf_append, namesOf_name hne hslash]
    exact ⟨_, rfl⟩

theorem getLast?_steps (hfront : Fronts front) (hname : IsLast name) :
    (steps (String.ofList (front ++ name))).getLast? = some (String.ofList name) := by
  obtain ⟨names, hnames⟩ := exists_namesOf hfront hname.ne_nil hname.noSlash
  have hopen : (front ++ name).getLast? ≠ some '/' := by
    have hlast := List.getLast?_eq_some_getLast hname.ne_nil
    rw [List.getLast?_append, hlast]
    intro hslash
    exact hname.noSlash (List.mem_of_getLast? (hlast.trans hslash))
  rw [steps_eq, String.toList_ofList, hnames, if_neg (by simpa using hopen), List.append_nil,
    List.map_append, List.map_singleton, List.getLast?_concat]

theorem le_of_mem_pieces {passed stop : Nat} {current cs piece : List Char}
    (h : (piece, stop) ∈ pieces passed current cs) : stop ≤ passed + cs.length := by
  induction cs generalizing passed current with
  | nil =>
    rw [pieces, List.mem_singleton] at h
    cases h
    exact Nat.le_add_right _ _
  | cons c cs ih =>
    rw [List.length_cons]
    rw [pieces] at h
    split at h
    · rcases List.mem_cons.mp h with heq | h
      · cases heq
        omega
      · have := ih h
        omega
    · have := ih h
      omega

/-- The components before the last name, each of them inside what stands before it. -/
theorem exists_components (hfront : Fronts front) : ∃ before : List (List Char × Nat),
    (∀ x ∈ before, x.2 ≤ front.length) ∧ ∀ name, name ≠ [] → '/' ∉ name → name ≠ ['.'] →
      components (String.ofList (front ++ name)) = before ++ [(name, (front ++ name).length)] := by
  cases hfront with
  | none =>
    refine ⟨[], by simp, fun name hne hslash hdot => ?_⟩
    rw [components, String.toList_ofList, List.nil_append, pieces_of_plain hslash]
    simp [hne, hdot]
  | some cs =>
    refine ⟨components (String.ofList cs), fun x hx => ?_, fun name hne hslash hdot => ?_⟩
    · have hle := le_of_mem_pieces (List.mem_filter.mp hx).1
      rw [String.toList_ofList] at hle
      rw [List.length_append]
      omega
    · rw [components, components, String.toList_ofList, String.toList_ofList, List.append_assoc,
        List.singleton_append, pieces_append, List.filter_append, pieces_of_plain hslash]
      have hlength : (cs ++ '/' :: name).length = cs.length + 1 + name.length := by
        rw [List.length_append, List.length_cons]
        omega
      simp [hne, hdot, hlength]

/-- A slash at the end counts for nothing. -/
theorem components_slash (cs : List Char) :
    components (String.ofList (cs ++ ['/'])) = components (String.ofList cs) := by
  rw [components, components, String.toList_ofList, String.toList_ofList, pieces_append, pieces,
    List.filter_append]
  simp

/-- Neither does a dot that is not the whole path. -/
theorem components_dot (cs : List Char) :
    components (String.ofList (cs ++ ['/', '.'])) = components (String.ofList cs) := by
  rw [components, components, String.toList_ofList, String.toList_ofList, pieces_append,
    List.filter_append]
  simp [pieces]

/-- What a path with a name at its end is made of: what stands before the name, the name, and what counts
for nothing. -/
structure Parts (path : String) (front name rest : List Char) : Prop where
  path_eq : path = String.ofList (front ++ name ++ rest)
  fronts : Fronts front
  isLast : IsLast name
  components_eq : components path = components (String.ofList (front ++ name))

theorem exists_parts {cs : List Char} {stop : Nat}
    (h : (components (String.ofList cs)).getLast? = some (name, stop)) (hdot : name ≠ ['.'])
    (hdots : name ≠ ['.', '.']) : ∃ front name rest, Parts (String.ofList cs) front name rest := by
  induction hlength : cs.length using Nat.strongRecOn generalizing cs with
  | ind length ih =>
    -- What counts for nothing is taken off the end.
    have hshorter {before rest : List Char} (hcs : cs = before ++ rest) (hrest : rest ≠ [])
        (hcomponents : components (String.ofList cs) = components (String.ofList before)) :
        ∃ front name rest, Parts (String.ofList cs) front name rest := by
      have hlt : before.length < length := by
        have := List.length_pos_iff.mpr hrest
        rw [← hlength, hcs, List.length_append]
        omega
      obtain ⟨front, name, more, hparts⟩ := ih _ hlt (hcomponents ▸ h) rfl
      have hchars := congrArg String.toList hparts.path_eq
      rw [String.toList_ofList, String.toList_ofList] at hchars
      refine ⟨front, name, more ++ rest, ?_, hparts.fronts, hparts.isLast,
        hcomponents.trans hparts.components_eq⟩
      rw [hcs, hchars, List.append_assoc _ more]
    obtain ⟨front, last, hcs, hfront, hslash⟩ := exists_front cs
    by_cases hempty : last = []
    · rw [hempty, List.append_nil] at hcs
      cases hfront with
      | none =>
        rw [hcs] at h
        cases h
      | some before => exact hshorter hcs (List.cons_ne_nil _ _) (hcs ▸ components_slash before)
    by_cases hone : last = ['.']
    · rw [hone] at hcs
      cases hfront with
      | none =>
        rw [hcs, show components (String.ofList ([] ++ ['.'])) = [(['.'], 1)] by decide] at h
        cases h
        exact absurd rfl hdot
      | some before =>
        rw [List.append_assoc, List.singleton_append] at hcs
        exact hshorter hcs (List.cons_ne_nil _ _) (hcs ▸ components_dot before)
    obtain ⟨before, -, hcomponents⟩ := exists_components hfront
    rw [hcs, hcomponents last hempty hslash hone, List.getLast?_concat] at h
    cases h
    exact ⟨front, name, [], by rw [hcs, List.append_nil], hfront, ⟨hempty, hslash, hdot, hdots⟩,
      by rw [hcs]⟩

/-- The parent depends neither on the last name nor on what counts for nothing. -/
theorem Parts.parent?_eq {rest : List Char} (h : Parts path front name rest) (hother : IsLast other) :
    parent? (String.ofList (front ++ other)) = parent? path := by
  obtain ⟨before, hbefore, hcomponents⟩ := exists_components h.fronts
  have habsolute : isAbsolute (String.ofList (front ++ other)) = isAbsolute path := by
    obtain ⟨c, other, rfl⟩ := List.exists_cons_of_ne_nil hother.ne_nil
    obtain ⟨d, name, rfl⟩ := List.exists_cons_of_ne_nil h.isLast.ne_nil
    have hc : (c == '/') = false := beq_false_of_ne fun heq =>
      hother.noSlash (heq ▸ List.mem_cons_self)
    have hd : (d == '/') = false := beq_false_of_ne fun heq =>
      h.isLast.noSlash (heq ▸ List.mem_cons_self)
    rw [h.path_eq, isAbsolute, isAbsolute, String.toList_ofList, String.toList_ofList]
    cases h.fronts with
    | none => simp [hc, hd]
    | some cs => cases cs <;> rfl
  rw [parent?, parent?, h.components_eq,
    hcomponents _ h.isLast.ne_nil h.isLast.noSlash h.isLast.not_dot,
    hcomponents _ hother.ne_nil hother.noSlash hother.not_dot, List.reverse_append, List.reverse_append,
    List.reverse_singleton, List.reverse_singleton, habsolute]
  rcases hlast : before.reverse with _ | ⟨⟨piece, stop⟩, more⟩
  · rfl
  · have hle : stop ≤ front.length :=
      hbefore (piece, stop) (List.mem_reverse.mp (hlast ▸ List.mem_cons_self))
    have htake (cs : List Char) : (front ++ cs).take stop = front.take stop :=
      List.take_append_of_le_length hle
    simp only [List.singleton_append, h.path_eq, String.toList_ofList, List.append_assoc, htake]

/-- Nothing comes after the name where a walk along the path ends with it. -/
theorem exists_last (h : Disk.EndsInName (steps path)) : ∃ front name, Parts path front name [] := by
  obtain ⟨front, name, hchars, hfront, hslash⟩ := exists_front path.toList
  have hopen := getLast?_ne_slash h
  obtain ⟨last, hlast, hdot, hdots⟩ := h
  have hne : name ≠ [] := by
    rintro rfl
    rw [hchars] at hopen
    rw [steps_eq, hchars] at hlast
    cases hfront with
    | none => cases hlast
    | some cs => simp at hopen
  obtain ⟨names, hnames⟩ := exists_namesOf hfront hne hslash
  rw [steps_eq, if_neg (by simpa using hopen), List.append_nil, hchars, hnames, List.map_append,
    List.map_singleton, List.getLast?_concat] at hlast
  cases hlast
  have hpath : path = String.ofList (front ++ name ++ []) := by
    rw [List.append_nil, ← hchars, String.ofList_toList]
  refine ⟨front, name, hpath, hfront, ⟨hne, hslash, ?_, ?_⟩, by rw [hpath, List.append_nil]⟩
  · rintro rfl
    exact hdot rfl
  · rintro rfl
    exact hdots rfl

/-! ## Another extension -/

theorem stem_begins (name : List Char) : stem name <+: name := by
  rw [stem]
  split
  next c rest hdropped =>
    have hsuffix : c :: rest <:+ name.reverse :=
      (List.suffix_cons _ _).trans (hdropped ▸ List.dropWhile_suffix _)
    simpa using List.reverse_prefix.mpr hsuffix
  next => exact List.prefix_rfl

theorem Parts.withExtension_eq {rest : List Char} (h : Parts path front name rest)
    (extension : String) : withExtension path extension =
      String.ofList (front ++ (stem name ++ '.' :: extension.toList)) := by
  obtain ⟨before, -, hcomponents⟩ := exists_components h.fronts
  have hkept : path.toList.take ((front ++ name).length - name.length + (stem name).length) =
      front ++ stem name := by
    have hlength : (front ++ name).length - name.length + (stem name).length =
        front.length + (stem name).length := by
      rw [List.length_append]
      omega
    have htake : (name ++ rest).take (stem name).length = stem name := by
      rw [List.take_append_of_le_length (stem_begins name).length_le]
      exact (List.prefix_iff_eq_take.mp (stem_begins name)).symm
    rw [h.path_eq, String.toList_ofList, hlength, List.append_assoc, List.take_append,
      List.take_of_length_le (Nat.le_add_right _ _), Nat.add_sub_cancel_left, htake]
  have hproper : (name = ['.'] || name = ['.', '.']) = false := by
    simp [h.isLast.not_dot, h.isLast.not_dots]
  rw [withExtension, h.components_eq,
    hcomponents _ h.isLast.ne_nil h.isLast.noSlash h.isLast.not_dot, List.getLast?_concat]
  simp only [hproper, Bool.false_eq_true, if_false, hkept, List.append_assoc]

/-- Only a path that has a name at its end can get another extension. -/
theorem exists_parts_of_ne {extension : String} (h : withExtension path extension ≠ path) :
    ∃ front name rest, Parts path front name rest := by
  rw [withExtension] at h
  split at h
  next name stop hlast =>
    split at h
    next => exact absurd rfl h
    next hproper =>
      simp only [Bool.or_eq_true, decide_eq_true_eq, not_or] at hproper
      rw [← String.ofList_toList (s := path)] at hlast ⊢
      exact exists_parts hlast hproper.1 hproper.2
  next => exact absurd rfl h

end Path

/-- A walk that stays at a last link ends at its last name. -/
theorem Disk.Walks.head?_eq {d : Disk} {links : Nat} {dir loc : Loc} {steps : List String}
    {name : String} (h : Walks d false links dir steps loc) (hlast : steps.getLast? = some name)
    (hname : IsName name) : loc.head? = some name := by
  obtain ⟨_, place, hend, -⟩ := h.exists_last hlast hname
  rw [hend.eq_cons hname, List.head?_cons]

namespace Lock

variable {m : Machine} {statePath : String} {state lock : Loc} {name : List Char}

/-- The name of a lock is a name. -/
theorem isLast_pid (hname : Path.IsLast name) :
    Path.IsLast (Path.stem name ++ '.' :: "pid".toList) := by
  have hlength : 2 < (Path.stem name ++ '.' :: "pid".toList).length := by
    rw [List.length_append]
    exact Nat.lt_of_lt_of_le (by decide) (Nat.le_add_left ..)
  constructor
  · simp
  · rw [List.mem_append, not_or]
    exact ⟨fun hmem => hname.noSlash ((Path.stem_begins name).subset hmem), by decide⟩
  all_goals
    intro heq
    rw [heq] at hlength
    exact absurd hlength (by decide)

/-- The lock is in the directory that the state file is in. -/
theorem parent?_path (h : path statePath ≠ statePath) :
    Path.parent? (path statePath) = Path.parent? statePath := by
  obtain ⟨front, name, rest, hparts⟩ := Path.exists_parts_of_ne h
  rw [path, hparts.withExtension_eq]
  exact hparts.parent?_eq (isLast_pid hparts.isLast)

/-- A lock that has another path has another place. -/
theorem apart (h : path statePath ≠ statePath) (hname : Disk.EndsInName (Path.steps statePath))
    (hstate : m.disk.resolve m.cwd false statePath = .ok state)
    (hlock : m.disk.resolve m.cwd false (path statePath) = .ok lock) : state ≠ lock := by
  obtain ⟨front, name, hparts⟩ := Path.exists_last hname
  have hother := isLast_pid hparts.isLast
  have hpath : path statePath = String.ofList (front ++ (Path.stem name ++ '.' :: "pid".toList)) :=
    hparts.withExtension_eq "pid"
  have hpath' : statePath = String.ofList (front ++ name) := by
    rw [hparts.path_eq, List.append_nil]
  obtain ⟨-, -, hwalks⟩ := Disk.resolve_eq_ok_iff.mp hstate
  obtain ⟨-, -, hwalks'⟩ := Disk.resolve_eq_ok_iff.mp hlock
  have hisName {name : List Char} (h : Path.IsLast name) : Disk.IsName (String.ofList name) :=
    ⟨fun heq => h.not_dot (by simpa using congrArg String.toList heq),
      fun heq => h.not_dots (by simpa using congrArg String.toList heq)⟩
  rw [hpath'] at hwalks
  rw [hpath] at hwalks'
  have hhead := hwalks.head?_eq (Path.getLast?_steps hparts.fronts hparts.isLast)
    (hisName hparts.isLast)
  have hhead' := hwalks'.head?_eq (Path.getLast?_steps hparts.fronts hother) (hisName hother)
  rintro rfl
  have hsame := String.ofList_injective (Option.some.inj (hhead.symm.trans hhead'))
  exact h (hpath.trans (hsame ▸ hpath'.symm))

end Lock

/-! ## A path that leads nowhere -/

namespace Disk

/-- A walk is not refused because of what is at its end. -/
theorem walk_ne_alreadyExists (d : Disk) (follow : Bool) (links : Nat) (dir : Loc)
    (steps : List String) : d.walk follow links dir steps ≠ .error .alreadyExists := by
  -- The induction is the one of the walk: on the links that are left, then on the steps.
  induction links using Nat.strongRecOn generalizing dir steps with
  | ind links ihlinks =>
    induction steps generalizing dir with
    | nil =>
      rw [walk_nil]
      rintro ⟨⟩
    | cons name rest ih =>
      by_cases hhere : name = "."
      · rw [hhere, walk_here]
        exact ih dir
      by_cases hup : name = ".."
      · rw [hup, walk_up]
        exact ih dir.tail
      rw [walk_name ⟨hhere, hup⟩]
      split
      · rintro ⟨⟩
      split
      · split <;> rintro ⟨⟩
      · exact ih _
      · split <;> rintro ⟨⟩
      split
      · rintro ⟨⟩
      cases links with
      | zero => rintro ⟨⟩
      | succ links =>
        simp only
        split
        · rintro ⟨⟩
        · exact ihlinks links (Nat.lt_succ_self _) _ _

theorem resolve_ne_alreadyExists (d : Disk) (cwd : Loc) (follow : Bool) (path : String) :
    d.resolve cwd follow path ≠ .error .alreadyExists := by
  rw [resolve]
  generalize (if Path.isAbsolute path then [] else cwd) = start
  split
  · rintro ⟨⟩
  split
  · rintro ⟨⟩
  split
  · rintro ⟨⟩
  split
  · exact d.walk_ne_alreadyExists follow maxLinks _ _
  · rintro ⟨⟩

end Disk

/-- Where a path leads nowhere, no file can be put, and not because there is one. -/
theorem Files.run_putNew_nowhere {m : Machine} {path : String} {e : OsError}
    (h : m.disk.resolve m.cwd false path = .error e) (mode : Nat) (bytes : ByteArray) :
    ∃ err, err ≠ .alreadyExists ∧ (putNew path (.file mode bytes)).run.run m = (.error err, m) := by
  rw [putNew, run_bind, run_locate]
  rcases hloc : m.disk.resolve m.cwd false (Path.dropSlashes path) with err | loc
  · refine ⟨err, ?_, rfl⟩
    rintro rfl
    exact m.disk.resolve_ne_alreadyExists _ _ _ hloc
  · have hslash : Path.dropSlashes path ≠ path := by
      intro hslash
      rw [hslash, h] at hloc
      cases hloc
    have hclosed : (decide (Path.dropSlashes path ≠ path) && !(Entry.file mode bytes).isDirectory) =
        true := by simp [hslash, Entry.isDirectory]
    refine ⟨.isDirectory, by rintro ⟨⟩, ?_⟩
    simp only [hclosed, if_true]
    rfl

/-! ## Taking the lock where there is none -/

namespace Lock

variable {m : Machine} {path : String} {loc : Loc}

/-- The machine with the directory for what is at the path, as far as it could be made. -/
def housed (path : String) (m : Machine) : Machine :=
  match Path.parent? path with
  | some parent => ((Files.makeDirectories parent).run.run m).2
  | none => m

/-- A path that leads anywhere has its directory. -/
theorem housed_eq (hloc : m.disk.resolve m.cwd false path = .ok loc) : housed path m = m := by
  rw [housed]
  cases hparent : Path.parent? path with
  | none => rfl
  | some parent => exact congrArg Prod.snd (Files.run_makeDirectories_parent hloc hparent)

/-- The path leads nowhere, or nothing is there. -/
def Absent (path : String) (m : Machine) : Prop :=
  ∀ loc, m.disk.resolve m.cwd false path = .ok loc → m.disk.get? loc = none

/-- Where nothing is, the lock is made, if there is a way to it. -/
theorem attempt_absent (h : Absent path m) (rounds : Nat) :
    (∃ e, (attempt path (rounds + 1)).run.run m = (.error e, m)) ∨
      ∃ loc, m.Leads path loc ∧ m.disk.get? loc = none ∧ (attempt path (rounds + 1)).run.run m =
        (.ok true, { m with disk := m.disk.put loc (file m.pid) }) := by
  rcases hloc : m.disk.resolve m.cwd false path with e | loc
  · obtain ⟨err, hne, hput⟩ := Files.run_putNew_nowhere hloc 0o644 (content m.pid).toUTF8
    refine .inl ⟨err, ?_⟩
    rw [run_attempt, show file m.pid = .file 0o644 (content m.pid).toUTF8 from rfl, hput]
    cases err
    case alreadyExists => exact absurd rfl hne
    all_goals rfl
  · have hleads : m.Leads path loc := ⟨hloc, Disk.plain_of_none (h loc hloc)⟩
    exact .inr ⟨loc, hleads, h loc hloc, attempt_free hleads rounds (h loc hloc)⟩

/-- So it is with the whole of it, once the directory is there. -/
theorem acquire_absent (h : Absent path (housed path m)) :
    (∃ e, (acquire path).run.run m = (.error e, housed path m)) ∨
      ∃ loc, (housed path m).Leads path loc ∧ (housed path m).disk.get? loc = none ∧
        (acquire path).run.run m = (.ok true,
          { housed path m with disk := (housed path m).disk.put loc (file (housed path m).pid) }) := by
  rw [acquire, maxRounds]
  rw [housed] at h ⊢
  generalize Path.parent? path = parent? at h ⊢
  rcases parent? with _ | parent
  · exact attempt_absent h 2
  · simp only at h ⊢
    rw [Files.run_bind]
    generalize (Files.makeDirectories parent).run.run m = made at h ⊢
    obtain ⟨e | _, m₁⟩ := made
    · exact .inl ⟨e, rfl⟩
    · exact attempt_absent h 2

end Lock

end PoolKeeper
