import PoolKeeper.Proofs.Files
import PoolKeeper.Proofs.Paths
import PoolKeeper.Record.File

/-!
# `PoolKeeper/Proofs/SavedFile.lean` — what a reader finds where something was saved

`Machine.text?` is the text that a reader of a path finds. After a form was saved it is that form, and if
it could not be saved there is nothing to be found: whatever keeps the writer from the path keeps the
reader from it as well (`Form.text?_save`). So there is no state of the disk in which a save is refused
and an older text is still read.
-/

set_option autoImplicit false

namespace PoolKeeper

variable {m m' : Machine} {path : String} {loc : Loc}

/-- The text that a reader finds at the end of the path. -/
def Machine.text? (m : Machine) (path : String) : Option String :=
  ((Files.readText path).run.run m).1.toOption

def Machine.HasDirectory (m : Machine) (path : String) : Prop :=
  ∃ loc mode, m.disk.resolve m.cwd true path = .ok loc ∧ m.disk.get? loc = some (.directory mode)

/-- The directory that a form is saved in. -/
def Path.directory (path : String) : String :=
  match Path.parent? path with
  | none | some "" => "."
  | some parent => parent

namespace Disk

/-- The text can be a path at all. -/
def IsPath (path : String) : Prop :=
  path.toList.contains '\x00' = false ∧ path ≠ "" ∧ path.utf8ByteSize ≤ maxPath

instance (path : String) : Decidable (IsPath path) := inferInstanceAs (Decidable (_ ∧ _ ∧ _))

/-- Where a walk along the path starts. -/
def start (cwd : Loc) (path : String) : Loc := if Path.isAbsolute path then [] else cwd

theorem resolve_eq_ok_iff {d : Disk} {cwd : Loc} {follow : Bool} :
    d.resolve cwd follow path = .ok loc ↔ IsPath path ∧ d.stands (start cwd path) ∧
      Walks d follow maxLinks (start cwd path) (Path.steps path) loc := by
  rw [← walk_eq_ok_iff]
  unfold resolve IsPath start
  cases path.toList.contains '\x00' with
  | true => simp
  | false =>
    by_cases hempty : path = ""
    · simp [hempty]
    by_cases hlong : path.utf8ByteSize > maxPath
    · simp [hempty, hlong, Nat.not_le.mpr hlong]
    cases hstands : d.stands (if Path.isAbsolute path then [] else cwd) with
    | true => simp [hempty, hlong, Nat.not_lt.mp hlong, hstands]
    | false => simp [hempty, hlong, hstands]

end Disk

namespace Files

theorem text?_of_file {mode : Nat} {bytes : ByteArray}
    (hloc : m.disk.resolve m.cwd true path = .ok loc)
    (hfile : m.disk.get? loc = some (.file mode bytes)) : m.text? path = Text.decode? bytes := by
  rw [Machine.text?, run_readText, hloc]
  simp only [hfile]
  cases Text.decode? bytes <;> rfl

/-- Whoever finds a text found a file. -/
theorem exists_file {text : String} (h : m.text? path = some text) : ∃ loc mode bytes,
    m.disk.resolve m.cwd true path = .ok loc ∧ m.disk.get? loc = some (.file mode bytes) ∧
      Text.decode? bytes = some text := by
  rcases hloc : m.disk.resolve m.cwd true path with e | loc
  · rw [Machine.text?, run_readText, hloc] at h
    cases h
  rcases hentry : m.disk.get? loc with _ | ⟨mode, bytes⟩ | mode | target
  case some.file => exact ⟨loc, mode, bytes, rfl, hentry, (text?_of_file hloc hentry).symm.trans h⟩
  all_goals
    rw [Machine.text?, run_readText, hloc] at h
    simp only [hentry] at h
    cases h

theorem run_readText_text {text : String} (h : m.text? path = some text) :
    (readText path).run.run m = (.ok text, m) := by
  obtain ⟨loc, mode, bytes, hloc, hfile, hdecode⟩ := exists_file h
  rw [run_readText, hloc]
  simp only [hfile, hdecode, Option.elim]

theorem text?_of_readText {text : String} (h : ((readText path).run.run m).1 = .ok text) :
    m.text? path = some text := by
  rw [Machine.text?, h]
  rfl

theorem text?_of_refused {e : OsError} (h : ((readText path).run.run m).1 = .error e) :
    m.text? path = none := by
  rw [Machine.text?, h]
  rfl

/-- A path that leads to anything but a directory ends in a name. -/
theorem endsInName_of_noDirectory {follow : Bool} (hloc : m.disk.resolve m.cwd follow path = .ok loc)
    (hplace : ∀ mode, m.disk.get? loc ≠ some (.directory mode)) : Disk.EndsInName (Path.steps path) := by
  obtain ⟨-, hstart, hwalks⟩ := Disk.resolve_eq_ok_iff.mp hloc
  refine (hwalks.stands hstart).resolve_left fun hstands => ?_
  obtain ⟨mode, hdir⟩ := Disk.Walks.get?_of_stands hstands
  exact hplace mode hdir

theorem endsInName_of_file {mode : Nat} {bytes : ByteArray}
    (hloc : m.disk.resolve m.cwd true path = .ok loc)
    (hfile : m.disk.get? loc = some (.file mode bytes)) : Disk.EndsInName (Path.steps path) :=
  endsInName_of_noDirectory hloc (by simp [hfile])

/-! ## Refused steps -/

theorem run_putNew (path : String) (e : Entry) (m : Machine) :
    (∃ err, (putNew path e).run.run m = (.error err, m)) ∨ ∃ loc,
      m.disk.resolve m.cwd false (Path.dropSlashes path) = .ok loc ∧ m.disk.get? loc = none ∧
      (putNew path e).run.run m = (.ok (), { m with disk := m.disk.put loc e }) := by
  rw [putNew, run_bind, run_locate]
  rcases m.disk.resolve m.cwd false (Path.dropSlashes path) with err | loc
  · exact .inl ⟨err, rfl⟩
  simp only
  split
  · exact .inl ⟨_, rfl⟩
  · rw [run_get]
    cases hentry : m.disk.get? loc with
    | some _ => exact .inl ⟨_, rfl⟩
    | none => exact .inr ⟨loc, rfl, hentry, rfl⟩

/-- A file is put at a path that ends in a name, unless a directory is in its place; nothing else is. -/
theorem run_replace (path : String) (bytes : ByteArray) (m : Machine) :
    (∃ e, (replace path bytes).run.run m = (.error e, m) ∧
      (Disk.EndsInName (Path.steps path) → ∀ loc, m.disk.resolve m.cwd false path = .ok loc →
        ∃ mode, m.disk.get? loc = some (.directory mode))) ∨
    ∃ loc, Disk.EndsInName (Path.steps path) ∧ m.disk.resolve m.cwd false path = .ok loc ∧
      (∀ mode, m.disk.get? loc ≠ some (.directory mode)) ∧ (replace path bytes).run.run m =
        (.ok (), { m with disk := m.disk.put loc (.privateFile bytes) }) := by
  rw [replace, run_bind, run_locate]
  rcases hloc : m.disk.resolve m.cwd false (Path.dropSlashes path) with e | loc
  · refine .inl ⟨e, rfl, fun hname loc hloc' => ?_⟩
    rw [Path.dropSlashes_eq hname] at hloc
    cases hloc.symm.trans hloc'
  simp only
  split
  next hdots =>
    refine .inl ⟨_, rfl, fun hname loc hloc' => ?_⟩
    rw [Path.dropSlashes_eq hname] at hdots
    obtain ⟨name, hlast, hdot, hdotdot⟩ := hname
    simp [hlast, hdot, hdotdot] at hdots
  next hdots =>
    split
    next hslash => exact .inl ⟨_, rfl, fun hname => absurd (Path.dropSlashes_eq hname) hslash⟩
    next hslash =>
      rw [Decidable.of_not_not hslash] at hloc
      by_cases hdir : ∃ mode, m.disk.get? loc = some (.directory mode)
      · obtain ⟨mode, hentry⟩ := hdir
        refine .inl ⟨.isDirectory, by rw [run_get, hentry]; rfl, fun _ loc' hloc' => ?_⟩
        cases hloc.symm.trans hloc'
        exact ⟨mode, hentry⟩
      · have hname := endsInName_of_noDirectory hloc fun mode hmode => hdir ⟨mode, hmode⟩
        refine .inr ⟨loc, hname, hloc, fun mode hmode => hdir ⟨mode, hmode⟩, ?_⟩
        rw [run_get]
        split
        next mode hentry => exact absurd ⟨mode, hentry⟩ hdir
        next => rfl

theorem run_isDirectory (path : String) (m : Machine) : ((isDirectory path).run m).2 = m ∧
    (((isDirectory path).run m).1 = true ↔ m.HasDirectory path) := by
  rw [isDirectory, run_test, run_found?, Machine.HasDirectory]
  rcases m.disk.resolve m.cwd true path with e | loc
  · simp [Except.map, Except.toOption]
  rcases hentry : m.disk.get? loc with _ | _ | _ | _ <;>
    simp [Except.map, Except.toOption, Entry.isDirectory, hentry]

/-- A directory that could not be made is not there, and nothing was changed in the attempt. -/
theorem ensure_refused {e : OsError}
    (h : (makeDirectories.ensure path).run.run m = (.error e, m')) : m' = m ∧ ¬ m.HasDirectory path := by
  rw [makeDirectories.ensure, run_tryCatch, makeDirectory] at h
  rcases run_putNew path .newDirectory m with ⟨err, hrun⟩ | ⟨loc, -, -, hrun⟩
  · rw [hrun] at h
    obtain ⟨hmachine, hthere⟩ := run_isDirectory path m
    simp only [run_bind, run_liftM, hmachine] at h
    split at h
    next hnot =>
      refine ⟨(congrArg Prod.snd h).symm, fun hdir => ?_⟩
      simp [hthere.mpr hdir] at hnot
    next => cases h
  · rw [hrun] at h
    cases h

/-- A path that leads anywhere has a directory for its parent. -/
theorem hasDirectory_parent {follow : Bool} {parent : String}
    (hloc : m.disk.resolve m.cwd follow path = .ok loc) (hparent : Path.parent? path = some parent) :
    (parent = "" ∧ m.HasDirectory ".") ∨ parent ≠ "" ∧ m.HasDirectory parent := by
  obtain ⟨hpath, hstart, hwalks⟩ := Disk.resolve_eq_ok_iff.mp hloc
  rcases Path.steps_parent hparent with ⟨rfl, habsolute⟩ | ⟨rfl, habsolute⟩ |
    ⟨hne, -, habsolute, ⟨more, rfl⟩, rest, hrest, hsteps⟩
  · refine .inl ⟨rfl, m.cwd, ?_⟩
    rw [Disk.start, habsolute] at hstart
    obtain ⟨mode, hdir⟩ := Disk.Walks.get?_of_stands hstart
    exact ⟨mode, Disk.resolve_eq_ok_iff.mpr ⟨by decide, hstart, .here .done⟩, hdir⟩
  · refine .inr ⟨by decide, [], _, ?_, m.disk.get?_root⟩
    exact Disk.resolve_eq_ok_iff.mpr ⟨by decide, rfl, .here .done⟩
  · refine .inr ⟨hne, ?_⟩
    have hsame : Disk.start m.cwd parent = Disk.start m.cwd (parent ++ more) := by
      rw [Disk.start, Disk.start, habsolute]
    rw [hsteps] at hwalks
    obtain ⟨loc', hwalks', hstands⟩ := hwalks.split hrest hstart
    obtain ⟨mode, hdir⟩ := Disk.Walks.get?_of_stands hstands
    refine ⟨loc', mode, Disk.resolve_eq_ok_iff.mpr ⟨?_, hsame ▸ hstart, hsame ▸ hwalks'⟩, hdir⟩
    obtain ⟨hnul, -, hlong⟩ := hpath
    refine ⟨?_, hne, ?_⟩
    · simp_all [String.toList_append]
    · rw [String.utf8ByteSize_append] at hlong
      omega

/-- A path that leads somewhere by a name leads through the directory it is in. -/
theorem hasDirectory_directory {follow : Bool} (hloc : m.disk.resolve m.cwd follow path = .ok loc)
    (hname : Disk.EndsInName (Path.steps path)) : m.HasDirectory (Path.directory path) := by
  obtain ⟨parent, hparent⟩ := Path.exists_parent hname
  rw [Path.directory, hparent]
  rcases hasDirectory_parent hloc hparent with ⟨rfl, hdir⟩ | ⟨hne, hdir⟩
  · exact hdir
  · simpa [hne] using hdir

/-- What a refused attempt to make directories leaves behind is not the directory that was wanted. -/
theorem makeDirectories_refused {e : OsError}
    (h : (makeDirectories path).run.run m = (.error e, m')) : path ≠ "" ∧ ¬ m'.HasDirectory path := by
  have hgo (fuel : Nat) : ∀ (path : String) (m m' : Machine) (e : OsError),
      (makeDirectories.go fuel path).run.run m = (.error e, m') → path ≠ "" ∧ ¬ m'.HasDirectory path := by
    induction fuel with
    | zero =>
      intro path m m' e h
      rw [makeDirectories.go] at h
      split at h
      next => cases h
      next hne =>
        obtain ⟨rfl, hdir⟩ := ensure_refused h
        exact ⟨hne, hdir⟩
    | succ fuel ih =>
      intro path m m' e h
      rw [makeDirectories.go] at h
      split at h
      next => cases h
      next hne =>
        refine ⟨hne, ?_⟩
        rw [run_tryCatch] at h
        rcases hensure : (makeDirectories.ensure path).run.run m with ⟨err | _, m₁⟩
        · obtain ⟨rfl, hdir⟩ := ensure_refused hensure
          rw [hensure] at h
          simp only at h
          split at h
          next =>
            split at h
            next =>
              cases h
              exact hdir
            next parent hparent =>
              rw [run_bind] at h
              rcases hup : (makeDirectories.go fuel parent).run.run m₁ with ⟨err | _, m₂⟩
              · rw [hup] at h
                cases h
                -- The parent was refused as well, and without a parent there is no directory in it.
                obtain ⟨hparentNe, hnone⟩ := ih _ _ _ _ hup
                rintro ⟨loc, -, hloc, -⟩
                rcases hasDirectory_parent hloc hparent with ⟨rfl, -⟩ | ⟨-, hthere⟩
                · exact hparentNe rfl
                · exact hnone hthere
              · rw [hup] at h
                obtain ⟨rfl, hdir'⟩ := ensure_refused h
                exact hdir'
          next =>
            cases h
            exact hdir
        · rw [hensure] at h
          cases h
  exact hgo _ _ _ _ _ h

end Files

theorem Form.save_eq (f : Form) (path : String) : f.save path =
    ((Files.makeDirectories (Path.directory path)).orFault .state "create" (Path.directory path) >>=
      fun _ => (Files.replace path f.yaml.toUTF8).orFault .state "rename" path) := rfl

theorem Form.run_save (f : Form) (path : String) (m : Machine) : ((f.save path).run.run m).2 =
    match (Files.makeDirectories (Path.directory path)).run.run m with
      | (.error _, m') => m'
      | (.ok _, m') => ((Files.replace path f.yaml.toUTF8).run.run m').2 := by
  rw [save_eq, Files.run_bind, Files.run_orFault]
  rcases (Files.makeDirectories (Path.directory path)).run.run m with ⟨e | _, m'⟩
  · rfl
  · change (((Files.replace path f.yaml.toUTF8).orFault .state "rename" path).run.run m').2 = _
    rw [Files.run_orFault]

theorem Text.decode?_toUTF8 (s : String) : Text.decode? s.toUTF8 = some s := by
  rw [Text.decode?, String.fromUTF8?]
  exact dif_pos s.isValidUTF8

/-- After a form was saved, or could not be, a reader of the path finds the form or nothing. -/
theorem Form.text?_save {f : Form} {text : String}
    (h : ((f.save path).run.run m).2.text? path = some text) : text = f.yaml := by
  obtain ⟨loc, mode, bytes, hloc, hfile, hdecode⟩ := Files.exists_file h
  have hname := Files.endsInName_of_file hloc hfile
  have hdirectory := Files.hasDirectory_directory hloc hname
  rw [run_save] at hloc hfile hdirectory
  rcases hmade : (Files.makeDirectories (Path.directory path)).run.run m with ⟨e | _, m₁⟩
  · rw [hmade] at hdirectory
    exact absurd hdirectory (Files.makeDirectories_refused hmade).2
  rw [hmade] at hloc hfile
  simp only at hloc hfile
  rcases Files.run_replace path f.yaml.toUTF8 m₁ with ⟨e, hrun, hrefused⟩ |
    ⟨loc', -, hloc', hdir, hrun⟩
  · -- The reader would have met the directory that was in the way.
    rw [hrun] at hloc hfile
    obtain ⟨hpath, hstart, hwalks⟩ := Disk.resolve_eq_ok_iff.mp hloc
    obtain ⟨loc', hwalks', hend⟩ := hwalks.unfollowed
    obtain ⟨mode', hdir⟩ := hrefused hname loc' (Disk.resolve_eq_ok_iff.mpr ⟨hpath, hstart, hwalks'⟩)
    rcases hend with rfl | ⟨target, hlink⟩
    · cases hfile.symm.trans hdir
    · cases hlink.symm.trans hdir
  · rw [hrun] at hloc hfile
    obtain ⟨-, -, hwalks⟩ := Disk.resolve_eq_ok_iff.mp hloc
    obtain ⟨-, hstart, hwalks'⟩ := Disk.resolve_eq_ok_iff.mp hloc'
    obtain rfl := hwalks'.put hstart hdir hname hwalks
    cases hfile.symm.trans (Disk.get?_put (Disk.ne_root hdir) _)
    exact Option.some.inj (hdecode.symm.trans (Text.decode?_toUTF8 _))

/-- What is loaded by whoever reads this at the path. -/
def Record.loaded (path : String) : Except OsError String → Except Fault Record
  | .error .notFound => .ok {}
  | .error e => .error ⟨.state, Files.refusal "read" path e⟩
  | .ok text => (ofYaml? text).elim (.error ⟨.state, "parse " ++ path ++ ": not a record"⟩) fun r =>
    .ok r.recovered

/-- Loading depends on the machine only by what is read, and leaves it as it is. -/
theorem Record.run_load (path : String) (m : Machine) :
    (load path).run.run m = (loaded path ((Files.readText path).run.run m).1, m) := by
  have hsame : ((Files.readText path).run.run m).2 = m := by rw [Files.run_readText]
  rw [load, ExceptT.run_mk, StateT.run_bind]
  generalize (Files.readText path).run.run m = read at hsame ⊢
  obtain ⟨e | text, m₁⟩ := read
  · obtain rfl : m₁ = m := hsame
    cases e <;> rfl
  · obtain rfl : m₁ = m := hsame
    cases hrecord : ofYaml? text <;> simp only [bind, hrecord, loaded] <;> rfl

/-- A text that is not a record is not loaded. -/
theorem Record.loaded_eq_ok_iff {text : String} {r : Record} :
    loaded path (.ok text) = .ok r ↔ ∃ r₀, ofYaml? text = some r₀ ∧ r = r₀.recovered := by
  rw [loaded]
  cases ofYaml? text <;> simp [eq_comm]

/-- Whoever finds a text finds it on a machine that has all the ways and all the files as well. -/
theorem Machine.text?_of_ways {text : String} (hways : m.disk.Ways m'.disk) (hcwd : m'.cwd = m.cwd)
    (hfiles : ∀ {loc mode bytes}, m.disk.get? loc = some (.file mode bytes) →
      m'.disk.get? loc = some (.file mode bytes))
    (h : m.text? path = some text) : m'.text? path = some text := by
  obtain ⟨loc, mode, bytes, hloc, hfile, hdecode⟩ := Files.exists_file h
  obtain ⟨hpath, hstart, hwalks⟩ := Disk.resolve_eq_ok_iff.mp hloc
  have hloc' : m'.disk.resolve m'.cwd true path = .ok loc := by
    rw [hcwd]
    exact Disk.resolve_eq_ok_iff.mpr
      ⟨hpath, hways.stands hstart, hways.walks_kept hwalks hfile (hfiles hfile)⟩
  exact (Files.text?_of_file hloc' (hfiles hfile)).trans hdecode

/-- Where things were only taken away, a reader finds what was there before or nothing. -/
theorem Machine.text?_of_below {d : Disk} {text : String} (hbelow : d.Below m.disk)
    (h : Machine.text? { m with disk := d } path = some text) : m.text? path = some text :=
  Machine.text?_of_ways (m := { m with disk := d }) (.of_below hbelow) rfl (hbelow _ _) h

/-- To remove a file is to take things away. -/
theorem Files.removeFile_below (file : String) (m : Machine) :
    ∃ d, d.Below m.disk ∧ ((removeFile file).run.run m).2 = { m with disk := d } := by
  rw [removeFile, run_bind, run_locate]
  rcases m.disk.resolve m.cwd false file with e | loc
  · exact ⟨m.disk, fun _ _ => id, rfl⟩
  simp only [run_get]
  rcases m.disk.get? loc with _ | _ | _ | _
  case none | some.directory => exact ⟨m.disk, fun _ _ => id, rfl⟩
  all_goals exact ⟨_, Disk.clear_below m.disk loc, rfl⟩

/-- So it is with a directory. -/
theorem Files.removeTree_below (dir : String) (m : Machine) :
    ∃ d, d.Below m.disk ∧ ((removeTree dir).run.run m).2 = { m with disk := d } := by
  rw [removeTree, run_bind, run_locate]
  rcases m.disk.resolve m.cwd false dir with e | loc
  · exact ⟨m.disk, fun _ _ => id, rfl⟩
  simp only [run_get]
  rcases m.disk.get? loc with _ | _ | _ | _
  case none | some.file => exact ⟨m.disk, fun _ _ => id, rfl⟩
  all_goals exact ⟨_, Disk.clearTree_below m.disk loc, rfl⟩

theorem Files.text?_removeFile {file text : String}
    (h : ((Files.removeFile file).run.run m).2.text? path = some text) : m.text? path = some text := by
  obtain ⟨d, hbelow, hm⟩ := removeFile_below file m
  exact Machine.text?_of_below hbelow (hm ▸ h)

theorem Files.text?_removeTree {dir text : String}
    (h : ((Files.removeTree dir).run.run m).2.text? path = some text) : m.text? path = some text := by
  obtain ⟨d, hbelow, hm⟩ := removeTree_below dir m
  exact Machine.text?_of_below hbelow (hm ▸ h)

end PoolKeeper
