import PoolKeeper.Proofs.LockOwner

/-!
# `PoolKeeper/Proofs/LockBesideState.lean` — the lock and the state file

Taking the lock and giving it back touch the place of the lock and no other (`Lock.passed_spares`): a round
of taking it makes a file there or removes one. So the state file is safe wherever it has a place of its own.

It has not if its path is the path of its own lock, which an operator can configure, or if it is a link that
leads there. Then its text is taken for the text of a lock, and unless that names a live process, the file is
removed as one left over from a crash.

The other way round, a save puts the state file in its place and leaves the lock where it is, as long as the
two paths differ (`Beside`).
-/

set_option autoImplicit false

namespace PoolKeeper

variable {m m' m'' n n' : Machine} {path statePath text : String} {loc place lock state : Loc} {mode : Nat}
  {bytes : ByteArray}

/-! ## One place is touched -/

/-- Nothing but what is at the place became different, and every path that led somewhere, a link at its end
not followed, leads there still. -/
structure Machine.Spares (m : Machine) (place : Loc) (m' : Machine) : Prop where
  elsewhere {loc : Loc} (h : loc ≠ place) : m'.disk.get? loc = m.disk.get? loc
  leads {path : String} {loc : Loc} (h : m.disk.resolve m.cwd false path = .ok loc) :
    m'.disk.resolve m'.cwd false path = .ok loc
  ways : m'.disk.Ways m.disk

namespace Machine.Spares

theorem refl (m : Machine) (place : Loc) : m.Spares place m := ⟨fun _ => rfl, id, ⟨id, id⟩⟩

theorem trans (h : m.Spares place m') (h' : m'.Spares place m'') : m.Spares place m'' where
  elsewhere hne := (h'.elsewhere hne).trans (h.elsewhere hne)
  leads hloc := h'.leads (h.leads hloc)
  ways := ⟨fun hdir => h.ways.directory (h'.ways.directory hdir),
    fun hlink => h.ways.link (h'.ways.link hlink)⟩

/-- Where no way goes on, a file may come and go. -/
theorem of_touch {d : Disk} (hdead : m.disk.DeadEnd place)
    (hplace : ∀ mode, m.disk.get? place ≠ some (.directory mode)) (htouch : m.disk.Touch place d) :
    m.Spares place { m with disk := d } where
  elsewhere := htouch.elsewhere
  leads hother := htouch.resolve hother (by rintro ⟨⟩) hdead hplace
  ways := htouch.ways

end Machine.Spares

theorem Machine.Leads.deadEnd (h : m.Leads path loc) : m.disk.DeadEnd loc := by
  have hopens : m.FileOrNone path := .reached h.followed h.plain
  exact hopens.deadEnd h.endsInName h.leads

/-- Behind a file that is there no way goes on, even if a link leads to it. -/
theorem Files.deadEnd_of_file (hstate : m.disk.resolve m.cwd true path = .ok state)
    (hfile : m.disk.get? state = some (.file mode bytes))
    (hloc : m.disk.resolve m.cwd false path = .ok loc) : m.disk.DeadEnd loc := by
  have hopens : m.FileOrNone path := .reached hstate (Disk.plain_of_file hfile)
  exact hopens.deadEnd (endsInName_of_file hstate hfile) hloc

namespace Files

theorem Removable.deadEnd (h : Removable path m loc) (htext : m.text? path = some text) :
    m.disk.DeadEnd loc := by
  obtain ⟨_, _, _, hfollowed, hfile, -⟩ := exists_file htext
  exact deadEnd_of_file hfollowed hfile h.leads

/-- Where a path leads, it still leads when a file that was read is removed, if that is not where it
ends. -/
theorem Removable.resolve {follow : Bool} {other : String} (h : Removable path m loc)
    (htext : m.text? path = some text) (hother : m.disk.resolve m.cwd follow other = .ok place)
    (hplace : follow = true → m.disk.IsDirectory place) :
    (m.disk.clear loc).resolve m.cwd follow other = .ok place :=
  (Disk.Touch.clear h.ne_root).resolve hother hplace (h.deadEnd htext) h.noDirectory

/-- A file that was read can be removed without harm to others. -/
theorem Removable.spares (h : Removable path m loc) (htext : m.text? path = some text) :
    m.Spares loc { m with disk := m.disk.clear loc } :=
  .of_touch (h.deadEnd htext) h.noDirectory (.clear h.ne_root)

end Files

namespace Lock

/-! ## Taking the lock and giving it back -/

/-- Each round makes a file at the place of the lock, removes what is there, or changes nothing. -/
theorem attempt_spares (hlock : m.disk.resolve m.cwd false path = .ok lock) (rounds : Nat) :
    m.Spares lock ((attempt path rounds).run.run m).2 := by
  induction rounds generalizing m with
  | zero => exact .refl m lock
  | succ rounds ih =>
    have hround := attempt_round path rounds m
    generalize (attempt path (rounds + 1)).run.run m = ended at hround ⊢
    cases hround with
    | held | barred _ _ | unread _ _ => exact .refl m lock
    | vanished => exact ih hlock
    | @taken loc hleads =>
      obtain rfl : loc = lock := Except.ok.inj (hleads.leads.symm.trans hlock)
      exact .of_touch hleads.deadEnd hleads.plain.not_directory (.put hleads.plain.ne_root _ _)
    | @stale text loc htext _ hremovable =>
      obtain rfl : loc = lock := Except.ok.inj (hremovable.leads.symm.trans hlock)
      have hremoved := hremovable.spares htext
      exact hremoved.trans (ih (hremoved.leads hlock))

/-- Where another path with the same parent leads somewhere, no directory has to be made for the lock. -/
theorem acquire_eq_attempt {follow : Bool} {other : String}
    (hother : m.disk.resolve m.cwd follow other = .ok loc)
    (hparent : Path.parent? path = Path.parent? other) :
    (acquire path).run.run m = (attempt path maxRounds).run.run m := by
  rw [acquire, hparent]
  cases hparent : Path.parent? other with
  | none => rfl
  | some parent =>
    simp only
    rw [Files.run_bind, Files.run_makeDirectories_parent hother hparent]

/-- A lock has the parent of its state file. -/
theorem parent?_eq (statePath : String) :
    Path.parent? (Lock.path statePath) = Path.parent? statePath := by
  by_cases h : Lock.path statePath = statePath
  · rw [h]
  · exact parent?_path h

theorem acquire_spares (hlock : m.disk.resolve m.cwd false path = .ok lock) :
    m.Spares lock ((acquire path).run.run m).2 := by
  rw [acquire_eq_attempt hlock rfl]
  exact attempt_spares hlock maxRounds

theorem release_spares (hlock : m.disk.resolve m.cwd false path = .ok lock) :
    m.Spares lock ((release path).run m).2 := by
  rw [run_release]
  split
  next hown =>
    obtain ⟨text, htext, -⟩ := (Option.any_eq_true ..).mp hown
    obtain ⟨place, hremovable⟩ := Files.exists_removable htext
    obtain rfl : place = lock := Except.ok.inj (hremovable.leads.symm.trans hlock)
    rw [hremovable.run_removeFile]
    exact hremovable.spares htext
  next => exact .refl m lock

/-- The machine after the lock was taken, and given back if it could be taken. -/
def passed (path : String) (m : Machine) : Machine :=
  match (acquire path).run.run m with
  | (.ok true, m') => ((release path).run m').2
  | (_, m') => m'

theorem passed_spares (hlock : m.disk.resolve m.cwd false path = .ok lock) :
    m.Spares lock (passed path m) := by
  have htaken := acquire_spares hlock
  rw [passed]
  generalize (acquire path).run.run m = taken at htaken ⊢
  rcases taken with ⟨_ | _ | _, m'⟩
  · exact htaken
  · exact htaken
  · exact htaken.trans (release_spares (htaken.leads hlock))

/-- Where the path of the lock leads nowhere although that of the state file leads somewhere, the lock
cannot be taken. -/
theorem acquire_nowhere {e : OsError} (hstate : m.disk.resolve m.cwd true statePath = .ok state)
    (h : m.disk.resolve m.cwd false (Lock.path statePath) = .error e) :
    ∃ err, (acquire (Lock.path statePath)).run.run m = (.error err, m) := by
  obtain ⟨err, hne, hnew⟩ := Files.run_putNew_nowhere h 0o644 (content m.pid).toUTF8
  have hput : (Files.putNew (Lock.path statePath) (file m.pid)).run.run m = (.error err, m) := hnew
  rw [acquire_eq_attempt hstate (parent?_eq statePath), maxRounds, run_attempt, hput]
  cases err
  case alreadyExists => exact absurd rfl hne
  all_goals exact ⟨_, rfl⟩

/-- The text of the file is that of a lock that was left over. -/
def LeftOver (m : Machine) (bytes : ByteArray) : Prop :=
  ∃ text, Text.decode? bytes = some text ∧ ∀ pid, holder? text = some pid → pid ∉ m.alive

/-- A file that is left over is replaced by the lock, and is gone when that is given back. -/
theorem passed_leftOver (hlock : m.disk.resolve m.cwd false path = .ok lock)
    (hfile : m.disk.get? lock = some (.file mode bytes)) (h : LeftOver m bytes) :
    (passed path m).disk.get? lock = none := by
  obtain ⟨text, hdecode, hstale⟩ := h
  have hleads : m.Leads path lock := ⟨hlock, Disk.plain_of_file hfile⟩
  have htext : m.text? path = some text := (hleads.text?_of_file hfile).trans hdecode
  have hmarks := marks_of_put hleads.clear m.pid
  rw [passed, acquire_stale hleads htext hfile hstale]
  simp only
  rw [release_marked hmarks]
  exact hmarks.leads.plain.get?_clear

/-- Any other file stays as it is. -/
theorem passed_kept (hlock : m.disk.resolve m.cwd false path = .ok lock)
    (hfile : m.disk.get? lock = some (.file mode bytes)) (h : ¬ LeftOver m bytes) :
    ((acquire path).run.run m).2 = m ∧ passed path m = m := by
  have hleads : m.Leads path lock := ⟨hlock, Disk.plain_of_file hfile⟩
  cases hdecode : Text.decode? bytes with
  | none =>
    rw [passed, acquire_unreadable hleads hfile hdecode]
    exact ⟨rfl, rfl⟩
  | some text =>
    have hheld : ∃ pid, holder? text = some pid ∧ pid ∈ m.alive := by
      refine Decidable.byContradiction fun hnone => h ⟨text, hdecode, ?_⟩
      intro pid hholder halive
      exact hnone ⟨pid, hholder, halive⟩
    obtain ⟨pid, hholder, halive⟩ := hheld
    have htext : m.text? path = some text := (hleads.text?_of_file hfile).trans hdecode
    rw [passed, acquire_held htext hholder halive]
    exact ⟨rfl, rfl⟩

/-- The process holds the lock: its number is in the file, whoever else wants the lock finds it held, and
giving it back removes the file and nothing else. -/
structure Holds (path : String) (holder : UInt32) (lock : Loc) (n : Machine) : Prop where
  marks : Marks n path holder lock
  busy {other : Machine} (hshare : n.Share other) (halive : holder ∈ other.alive) :
    (acquire path).run.run other = (.ok false, other)
  release : ((release path).run n).2 = { n with disk := n.disk.clear lock }

end Lock

/-! ## While the lock is held -/

/-- The machine after the records were saved one after the other, as far as they could be. -/
def Machine.afterSaves (statePath : String) (n : Machine) (rs : List Record) : Machine :=
  rs.foldl (fun n r => ((r.save statePath).run.run n).2) n

/-- The process holds the lock, and no way goes on behind the path of the state file. -/
structure Beside (statePath : String) (holder : UInt32) (lock : Loc) (n : Machine) : Prop where
  pid : n.pid = holder
  marks : Lock.Marks n (Lock.path statePath) holder lock
  deadEnd {loc : Loc} (h : n.disk.resolve n.cwd false statePath = .ok loc) : n.disk.DeadEnd loc

namespace Beside

variable {holder : UInt32}

/-- A lock that was taken is beside the state file that was there before. -/
theorem of_acquired (hstate : m.disk.resolve m.cwd true statePath = .ok state)
    (hfile : m.disk.get? state = some (.file mode bytes))
    (htaken : (Lock.acquire (Lock.path statePath)).run.run m = (.ok true, m')) :
    ∃ lock, Beside statePath m.pid lock m' := by
  obtain ⟨hmachine, hmarks⟩ := Lock.acquired (Lock.path statePath) m
  rw [htaken] at hmachine hmarks
  obtain ⟨lock, hmarks⟩ := hmarks rfl
  have hpid : m'.pid = m.pid := by
    simp only at hmachine
    rw [hmachine]
  have hspares : ∃ place, m.Spares place m' := by
    cases hlock : m.disk.resolve m.cwd false (Lock.path statePath) with
    | error e =>
      obtain ⟨err, hrefused⟩ := Lock.acquire_nowhere hstate hlock
      cases htaken.symm.trans hrefused
    | ok place =>
      have hspares := Lock.acquire_spares hlock
      rw [htaken] at hspares
      exact ⟨place, hspares⟩
  obtain ⟨place, hspares⟩ := hspares
  obtain ⟨loc, -, hloc, -⟩ := Files.exists_unfollowed hstate hfile
  refine ⟨lock, hpid, hmarks, ?_⟩
  intro loc' hloc'
  obtain rfl : loc = loc' := Except.ok.inj ((hspares.leads hloc).symm.trans hloc')
  exact (Files.deadEnd_of_file hstate hfile hloc).of_ways hspares.ways

/-- What happens at the place of the state file leaves the lock where it is. -/
theorem of_spares (h : Beside statePath holder lock n) (hspares : n.Spares state n')
    (hpid : n'.pid = n.pid) (hstate : n.disk.resolve n.cwd false statePath = .ok state)
    (hne : state ≠ lock) : Beside statePath holder lock n' := by
  have hlock := hspares.elsewhere hne.symm
  constructor
  · exact hpid.trans h.pid
  · exact ⟨⟨hspares.leads h.marks.leads.leads, h.marks.leads.plain.of_eq hlock⟩, hlock.trans h.marks.found⟩
  · intro loc hloc
    obtain rfl : state = loc := Except.ok.inj ((hspares.leads hstate).symm.trans hloc)
    exact (h.deadEnd hstate).of_ways hspares.ways

/-- A save puts the state file in its place and leaves the lock in its own. -/
theorem save (h : Beside statePath holder lock n) (hne : Lock.path statePath ≠ statePath) (r : Record) :
    Beside statePath holder lock ((r.save statePath).run.run n).2 := by
  rcases r.save_cases hne h.marks.leads with hsave | ⟨state, hname, hstate, hplace, hsave⟩
  · rw [hsave]
    exact h
  rw [hsave]
  have htouch := Disk.Touch.put (d := n.disk) (Disk.ne_root hplace) 0o600 r.form.yaml.toUTF8
  have hspares := Machine.Spares.of_touch (h.deadEnd hstate) hplace htouch
  exact h.of_spares hspares rfl hstate (Lock.apart hne hname hstate h.marks.leads.leads)

/-- So do any number of saves. -/
theorem saves (h : Beside statePath holder lock n) (hne : Lock.path statePath ≠ statePath)
    (rs : List Record) : Beside statePath holder lock (n.afterSaves statePath rs) := by
  induction rs generalizing n with
  | nil => exact h
  | cons r rs ih =>
    rw [Machine.afterSaves, List.foldl_cons]
    exact ih (h.save hne r)

theorem holds (h : Beside statePath holder lock n) : Lock.Holds (Lock.path statePath) holder lock n := by
  obtain ⟨rfl, hmarks, -⟩ := h
  constructor
  · exact hmarks
  · intro other hshare halive
    exact Lock.acquire_held (hmarks.share hshare).text? (Lock.holder?_content n.pid) halive
  · exact Lock.release_marked hmarks

end Beside

/-! ## Both together -/

/-- Let a state file be found. Taking the lock and giving it back leaves it as it is, unless the path of the
lock leads to it and its text is that of a lock that was left over; then it is gone. If the state file is not
found through a link, the first is so exactly if it has the path of its own lock, and its path leads to the
same place afterwards. If it has another path, then a lock that was taken is held however often the state is
saved. -/
theorem state_file_beside_lock (hstate : m.disk.resolve m.cwd true statePath = .ok state)
    (hfile : m.disk.get? state = some (.file mode bytes)) :
    (¬ (m.disk.resolve m.cwd false (Lock.path statePath) = .ok state ∧ Lock.LeftOver m bytes) →
      ((Lock.acquire (Lock.path statePath)).run.run m).2.disk.get? state = some (.file mode bytes) ∧
      (Lock.passed (Lock.path statePath) m).disk.get? state = some (.file mode bytes)) ∧
    (m.disk.resolve m.cwd false (Lock.path statePath) = .ok state → Lock.LeftOver m bytes →
      (Lock.passed (Lock.path statePath) m).disk.get? state = none) ∧
    (m.disk.resolve m.cwd false statePath = .ok state →
      (m.disk.resolve m.cwd false (Lock.path statePath) = .ok state ↔ Lock.path statePath = statePath) ∧
      (Lock.passed (Lock.path statePath) m).disk.resolve (Lock.passed (Lock.path statePath) m).cwd false
        statePath = .ok state) ∧
    (Lock.path statePath ≠ statePath → ∀ m',
      (Lock.acquire (Lock.path statePath)).run.run m = (.ok true, m') →
        ∃ lock, ∀ rs, Lock.Holds (Lock.path statePath) m.pid lock (m'.afterSaves statePath rs)) := by
  refine ⟨?_, ?_, ?_, ?_⟩
  · intro hsafe
    cases hlock : m.disk.resolve m.cwd false (Lock.path statePath) with
    | error e =>
      obtain ⟨err, hrefused⟩ := Lock.acquire_nowhere hstate hlock
      rw [Lock.passed, hrefused]
      exact ⟨hfile, hfile⟩
    | ok lock =>
      by_cases hplace : state = lock
      · subst hplace
        have hkept := Lock.passed_kept hlock hfile fun hleft => hsafe ⟨hlock, hleft⟩
        rw [hkept.1, hkept.2]
        exact ⟨hfile, hfile⟩
      · exact ⟨((Lock.acquire_spares hlock).elsewhere hplace).trans hfile,
          ((Lock.passed_spares hlock).elsewhere hplace).trans hfile⟩
  · intro hlock hleft
    exact Lock.passed_leftOver hlock hfile hleft
  · intro hplace
    constructor
    · constructor
      · intro hlock
        refine Decidable.byContradiction fun hne => ?_
        exact Lock.apart hne (Files.endsInName_of_file hstate hfile) hplace hlock rfl
      · intro heq
        rwa [heq]
    · cases hlock : m.disk.resolve m.cwd false (Lock.path statePath) with
      | error e =>
        obtain ⟨err, hrefused⟩ := Lock.acquire_nowhere hstate hlock
        rw [Lock.passed, hrefused]
        exact hplace
      | ok lock => exact (Lock.passed_spares hlock).leads hplace
  · intro hne m' htaken
    obtain ⟨lock, hbeside⟩ := Beside.of_acquired hstate hfile htaken
    exact ⟨lock, fun rs => (hbeside.saves hne rs).holds⟩

/-- A machine with a host file that names the state file, and with a state file there. -/
def stateAt (name : String) : Machine where
  disk := ⟨[([name], .privateFile "config: {}\n".toUTF8),
    (["host.yaml"], .newFile ("statePath: " ++ name ++ "\n").toUTF8)]⟩

/-- Under its usual name the state file survives the lock, and the lock survives the saves. -/
theorem state_file_beside_lock_usual :
    (Lock.passed "state.pid" (stateAt "state.yaml")).disk.get? ["state.yaml"] =
      some (.privateFile "config: {}\n".toUTF8) ∧
    ∃ lock m', (Lock.acquire "state.pid").run.run (stateAt "state.yaml") = (.ok true, m') ∧
      ∀ rs, Lock.Holds "state.pid" 2 lock (m'.afterSaves "state.yaml" rs) := by
  have hpath : Lock.path "state.yaml" = "state.pid" := by decide
  have hne : Lock.path "state.yaml" ≠ "state.yaml" := by decide
  have hlock : (stateAt "state.yaml").disk.resolve [] false "state.pid" = .ok ["state.pid"] := rfl
  have hleads : (stateAt "state.yaml").Leads "state.pid" ["state.pid"] :=
    ⟨hlock, Disk.plain_of_none rfl⟩
  have hstate : (stateAt "state.yaml").disk.resolve [] true "state.yaml" = .ok ["state.yaml"] := rfl
  obtain ⟨hkept, -, -, hheld⟩ := state_file_beside_lock hstate rfl
  have htaken := Lock.acquire_free hleads rfl
  rw [hpath] at hkept hheld
  constructor
  · refine (hkept fun hsame => ?_).2
    exact absurd (Except.ok.inj (hlock.symm.trans hsame.1)) (by decide)
  · obtain ⟨lock, hholds⟩ := hheld hne _ htaken
    exact ⟨lock, _, htaken, hholds⟩

/-- An operator can give the state file the name of its own lock. Then it is gone after the program took the
lock and gave it back. -/
theorem state_file_as_lock_lost : ∃ s,
    ((Settings.load "host.yaml").run.run (stateAt "state.pid")).1 = .ok s ∧
    (stateAt "state.pid").disk.resolve [] false s.statePath = .ok ["state.pid"] ∧
    (stateAt "state.pid").disk.get? ["state.pid"] = some (.privateFile "config: {}\n".toUTF8) ∧
    (Lock.passed (Lock.path s.statePath) (stateAt "state.pid")).disk.get? ["state.pid"] = none := by
  have hload : (((Settings.load "host.yaml").run.run (stateAt "state.pid")).1.toOption.map
      (·.statePath)) = some "state.pid" := by decide +kernel
  have hleft : Lock.LeftOver (stateAt "state.pid") "config: {}\n".toUTF8 := by
    refine ⟨_, Text.decode?_toUTF8 _, ?_⟩
    have hnobody : Lock.holder? "config: {}\n" = none := by decide
    simp [hnobody]
  cases hsettings : ((Settings.load "host.yaml").run.run (stateAt "state.pid")).1 with
  | error f =>
    rw [hsettings] at hload
    cases hload
  | ok s =>
    rw [hsettings] at hload
    have hpath : s.statePath = "state.pid" := Option.some.inj hload
    have hlock : Lock.path s.statePath = "state.pid" := by
      rw [hpath]
      decide
    refine ⟨s, rfl, ?_, rfl, ?_⟩
    · rw [hpath]
      rfl
    · rw [hlock]
      exact Lock.passed_leftOver rfl rfl hleft

end PoolKeeper
