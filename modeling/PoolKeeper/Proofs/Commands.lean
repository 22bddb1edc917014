import PoolKeeper.CommandLine.Run
import PoolKeeper.Proofs.Ensures
import PoolKeeper.Proofs.SavedFile

/-!
# `PoolKeeper/Proofs/Commands.lean` — runs of commands

A command is put together from parts that each go on or end it. What a part does is said here by one
equation each, so that a proof about a command follows its text from part to part.

The lock decides between the two halves of most commands. Where its file names a live process, taking it
fails and leaves no trace (`Lock.acquire_held`): the directory is there already, the file is there
already, and neither is touched.
-/

set_option autoImplicit false

namespace PoolKeeper

variable {m : Machine} {path : String}

/-! ## Making what is there already -/

namespace Files

/-- Where a path leads to something, it still does if a link at its end is not followed. -/
theorem exists_unfollowed {loc : Loc} {e : Entry} (hloc : m.disk.resolve m.cwd true path = .ok loc)
    (hentry : m.disk.get? loc = some e) :
    ∃ loc' e', m.disk.resolve m.cwd false path = .ok loc' ∧ m.disk.get? loc' = some e' := by
  obtain ⟨hpath, hstart, hwalks⟩ := Disk.resolve_eq_ok_iff.mp hloc
  obtain ⟨loc', hwalks', hend⟩ := hwalks.unfollowed
  have hloc' := Disk.resolve_eq_ok_iff.mpr ⟨hpath, hstart, hwalks'⟩
  rcases hend with rfl | ⟨target, hlink⟩
  · exact ⟨loc', e, hloc', hentry⟩
  · exact ⟨loc', .link target, hloc', hlink⟩

/-- Nothing is put where something is, be it only a link. -/
theorem run_putNew_entry {loc : Loc} {e : Entry} (new : Entry)
    (hloc : m.disk.resolve m.cwd false path = .ok loc) (hentry : m.disk.get? loc = some e)
    (hslash : Path.dropSlashes path = path) :
    (putNew path new).run.run m = (.error .alreadyExists, m) := by
  have hopen : (decide (path ≠ path) && !new.isDirectory) = false := by simp
  rw [putNew, run_bind, run_locate, hslash, hloc]
  simp only [hopen, Bool.false_eq_true, if_false]
  rw [run_get, hentry]
  rfl

theorem run_putNew_there {loc : Loc} {e : Entry} (new : Entry)
    (hloc : m.disk.resolve m.cwd true path = .ok loc) (hentry : m.disk.get? loc = some e)
    (hslash : Path.dropSlashes path = path) :
    (putNew path new).run.run m = (.error .alreadyExists, m) := by
  obtain ⟨loc', e', hloc', hentry'⟩ := exists_unfollowed hloc hentry
  exact run_putNew_entry new hloc' hentry' hslash

/-- Something is put where nothing is. -/
theorem run_putNew_free {loc : Loc} (e : Entry)
    (hloc : m.disk.resolve m.cwd false path = .ok loc) (hnone : m.disk.get? loc = none)
    (hslash : Path.dropSlashes path = path) :
    (putNew path e).run.run m = (.ok (), { m with disk := m.disk.put loc e }) := by
  rw [putNew, run_bind, run_locate, hslash, hloc]
  have hopen : (decide (path ≠ path) && !e.isDirectory) = false := by simp
  simp only [hopen, Bool.false_eq_true, if_false]
  rw [run_get, hnone]
  rfl

/-- Where nothing is made at the end of the path, nothing is made on the way. -/
theorem run_makeDirectories_of_ensure (h : (makeDirectories.ensure path).run.run m = (.ok (), m)) :
    (makeDirectories path).run.run m = (.ok (), m) := by
  have hgo (fuel : Nat) : (makeDirectories.go fuel path).run.run m = (.ok (), m) := by
    cases fuel with
    | zero =>
      rw [makeDirectories.go]
      split
      · rfl
      · exact h
    | succ fuel =>
      rw [makeDirectories.go]
      split
      · rfl
      · rw [run_tryCatch, h]
  exact hgo _

/-- A directory that is there is not made again. -/
theorem run_makeDirectories_there (hdir : m.HasDirectory path)
    (hslash : Path.dropSlashes path = path) : (makeDirectories path).run.run m = (.ok (), m) := by
  refine run_makeDirectories_of_ensure ?_
  obtain ⟨loc, mode, hloc, hentry⟩ := hdir
  obtain ⟨hmachine, hthere⟩ := run_isDirectory path m
  rw [makeDirectories.ensure, run_tryCatch, makeDirectory, run_putNew_there _ hloc hentry hslash]
  simp only [run_bind, run_liftM, hmachine, hthere.mpr ⟨loc, mode, hloc, hentry⟩]
  rfl

/-- A path that leads anywhere has the directory that it needs. -/
theorem run_makeDirectories_parent {follow : Bool} {parent : String} {loc : Loc}
    (hloc : m.disk.resolve m.cwd follow path = .ok loc) (hparent : Path.parent? path = some parent) :
    (makeDirectories parent).run.run m = (.ok (), m) := by
  rcases hasDirectory_parent hloc hparent with ⟨rfl, -⟩ | ⟨-, hdir⟩
  · rfl
  · exact run_makeDirectories_there hdir (Path.dropSlashes_parent hparent)

end Files

namespace Lock

/-- The lock of a live process is not taken, and nothing changes in the attempt. -/
theorem acquire_held {text : String} {pid : UInt32} (htext : m.text? path = some text)
    (hholder : holder? text = some pid) (halive : pid ∈ m.alive) :
    (acquire path).run.run m = (.ok false, m) := by
  obtain ⟨loc, mode, bytes, hloc, hfile, hdecode⟩ := Files.exists_file htext
  have hname := Files.endsInName_of_file hloc hfile
  obtain ⟨parent, hparent⟩ := Path.exists_parent hname
  -- The directory is there, so is the file, and its holder is alive: the first round is the last.
  rw [acquire, hparent]
  simp only
  rw [Files.run_bind, Files.run_makeDirectories_parent hloc hparent]
  simp only [maxRounds]
  rw [attempt]
  have hnew := Files.run_putNew_there (.newFile (content m.pid).toUTF8) hloc hfile (Path.dropSlashes_eq hname)
  rw [Files.run_get, Files.run_bind, Files.run_outcome, hnew]
  simp only
  rw [Files.run_bind, Files.run_outcome, Files.run_readText_text htext]
  simp only [hholder]
  rw [Files.run_bind, Files.run_liftM]
  have hheld : ((Files.isAlive pid).run m).1 = true := List.contains_iff_mem.mpr halive
  simp only [hheld, if_true]
  rfl

/-- Giving the lock back takes no other text away and brings none. -/
theorem text?_release {lock text : String}
    (h : Machine.text? ((release lock).run m).2 path = some text) : m.text? path = some text := by
  rw [release, StateT.run_bind] at h
  rcases hread : (Files.readText lock).run.run m with ⟨e | content, m₁⟩
  all_goals
    obtain rfl : m₁ = m := by
      rw [Files.run_readText] at hread
      exact (congrArg Prod.snd hread).symm
    rw [hread] at h
  case error => exact h
  change ((if Text.trimBlanks content.toList = Text.decimal m₁.pid.toNat then do
    let _ ← (Files.removeFile lock).run
    else pure () : StateM Machine Unit).run m₁).2.text? path = some text at h
  split at h
  next => exact Files.text?_removeFile h
  next => exact h

end Lock

/-! ## The parts of a command -/

namespace CommandLine

variable {σ : Type} {α β : Type} {ctx : Context σ} {w w' : World σ}

/-- Runs a part of a command. -/
def runPart (ctx : Context σ) (part : Program σ α) (w : World σ) : Except Ending α × World σ :=
  (part ctx).run w

@[simp] theorem runPart_pure (a : α) : runPart ctx (pure a) w = (.ok a, w) := rfl

@[simp] theorem runPart_throw (e : Ending) :
    runPart ctx (throw e : Program σ α) w = (.error e, w) := rfl

@[simp] theorem runPart_settings : runPart ctx settings w = (.ok ctx.settings, w) := rfl

@[simp] theorem runPart_lockPath :
    runPart ctx lockPath w = (.ok (Lock.path ctx.settings.statePath), w) := rfl

@[simp] theorem runPart_modify (f : World σ → World σ) :
    runPart ctx (modify f) w = (.ok (), f w) := rfl

theorem runPart_bind (part : Program σ α) (next : α → Program σ β) :
    runPart ctx (part >>= next) w = match runPart ctx part w with
      | (.ok a, w') => runPart ctx (next a) w'
      | (.error e, w') => (.error e, w') := by
  change (do let x ← part ctx |>.run; ExceptT.bindCont (fun a => next a ctx) x : StateM _ _) w = _
  simp only [runPart, ExceptT.run]
  rcases hpart : (part ctx : StateM _ _) w with ⟨a | e, w'⟩ <;>
    simp [bind, StateT.bind, hpart] <;> rfl

/-- A part that goes on hands its value to the rest. -/
theorem runPart_bind_ok {part : Program σ α} {next : α → Program σ β} {a : α}
    (h : runPart ctx part w = (.ok a, w')) :
    runPart ctx (part >>= next) w = runPart ctx (next a) w' := by
  rw [runPart_bind, h]

/-- A part that ends the command ends all of it. -/
theorem runPart_bind_error {part : Program σ α} {next : α → Program σ β} {e : Ending}
    (h : runPart ctx part w = (.error e, w')) :
    runPart ctx (part >>= next) w = (.error e, w') := by
  rw [runPart_bind, h]

theorem runPart_operate (contexts : List String) (op : Operation σ α) :
    runPart ctx (operate contexts op) w =
      ((op.runIn ctx w).1.mapError (Ending.ofFault contexts), (op.runIn ctx w).2) := rfl

theorem runPart_onFiles {step : FileStep α} {a : α} {m : Machine} (contexts : List String)
    (h : step.run.run w.machine = (.ok a, m)) :
    runPart ctx (onFiles contexts step) w = (.ok a, { w with machine := m }) := by
  have hrun : Operation.runIn ctx (Operation.onFiles step) w = (.ok a, { w with machine := m }) := by
    rw [Operation.onFiles, Operation.runIn_bind, Operation.runIn_onMachine, h]
    rfl
  rw [onFiles, runPart_operate, hrun]
  rfl

/-- The lock was taken, or belongs to a live process. -/
theorem runPart_takeLock {taken : Bool} {m : Machine}
    (h : (Lock.acquire (Lock.path ctx.settings.statePath)).run.run w.machine = (.ok taken, m)) :
    runPart ctx takeLock w = (.ok taken, { w with machine := m }) := by
  have hrun : runPart ctx (onMachine (Lock.acquire (Lock.path ctx.settings.statePath)).run) w =
      (.ok (.ok taken), { w with machine := m }) := by
    rw [onMachine, runPart_operate, Operation.runIn_onMachine, h]
    rfl
  rw [takeLock, runPart_bind_ok runPart_lockPath, runPart_bind_ok hrun]
  rfl

/-- Beside a live process a command does the other thing. -/
theorem runPart_locked_busy {held busy : Program σ Ending} {m : Machine}
    (h : (Lock.acquire (Lock.path ctx.settings.statePath)).run.run w.machine = (.ok false, m)) :
    runPart ctx (locked held busy) w = runPart ctx busy { w with machine := m } := by
  rw [locked, runPart_bind_ok (runPart_takeLock h)]
  rfl

/-- With the lock a command does its own thing, and gives the lock back however that ended. -/
theorem runPart_locked_held {held busy : Program σ Ending} {m : Machine} {e : Ending}
    (h : (Lock.acquire (Lock.path ctx.settings.statePath)).run.run w.machine = (.ok true, m))
    (hheld : runPart ctx held { w with machine := m } = (.ok e, w') ∨
      runPart ctx held { w with machine := m } = (.error e, w')) :
    runPart ctx (locked held busy) w = (.ok e, { w' with
      machine := ((Lock.release (Lock.path ctx.settings.statePath)).run w'.machine).2 }) := by
  have hcaught : runPart ctx (tryCatch held pure) { w with machine := m } = (.ok e, w') := by
    change (ExceptT.tryCatch (held ctx) fun e => pure e).run.run { w with machine := m } = _
    simp only [ExceptT.tryCatch, ExceptT.run_mk, StateT.run_bind]
    rcases hheld with hheld | hheld <;>
      rw [show StateT.run (held ctx) { w with machine := m } = _ from hheld] <;> rfl
  rw [locked, runPart_bind_ok (runPart_takeLock h), if_pos rfl, runPart_bind_ok hcaught,
    runPart_bind_ok runPart_lockPath]
  rfl

/-- What a command comes to on a machine whose host file can be read. -/
theorem Arguments.run_of_runPart {a : Arguments} {host : Settings → Host σ} {rounds : Nat}
    {s : Settings} {m : Machine} {e : Ending}
    (hload : (Settings.load (a.config.getD hostFile)).run.run w.machine = (.ok s, m))
    (hrun : runPart ⟨s, host s⟩ (a.command.run rounds) { w with machine := m } = (.ok e, w')) :
    a.run host rounds w = (e, w') := by
  simp only [runPart] at hrun
  change (Settings.load (a.config.getD hostFile)).run w.machine = _ at hload
  simp only [Arguments.run, hload, hrun]

/-! ## A default installation -/

/-- A machine without a host file where a record was saved; perhaps a process holds the lock. -/
def installed (r : Record) (holder : Option UInt32) : Machine where
  disk := ⟨[(["var"], .newDirectory), (["lib", "var"], .newDirectory),
      (["poolvault", "lib", "var"], .newDirectory),
      (["state.yaml", "poolvault", "lib", "var"], .privateFile r.yaml.toUTF8)] ++
    holder.toList.map fun pid =>
      (["state.pid", "poolvault", "lib", "var"], .newFile (Lock.content pid).toUTF8)⟩

theorem lockPath_default :
    Lock.path "/var/lib/poolvault/state.yaml" = "/var/lib/poolvault/state.pid" := by decide +kernel

theorem installed_saved (r : Record) (holder : Option UInt32) :
    (installed r holder).text? "/var/lib/poolvault/state.yaml" = some r.yaml := by
  have hloc : (installed r holder).disk.resolve (installed r holder).cwd true
      "/var/lib/poolvault/state.yaml" = .ok ["state.yaml", "poolvault", "lib", "var"] := rfl
  rw [Files.text?_of_file hloc rfl, Text.decode?_toUTF8]

theorem installed_locked (r : Record) (pid : UInt32) :
    (installed r (some pid)).text? (Lock.path "/var/lib/poolvault/state.yaml") =
      some (Lock.content pid) := by
  have hloc : (installed r (some pid)).disk.resolve (installed r (some pid)).cwd true
      "/var/lib/poolvault/state.pid" = .ok ["state.pid", "poolvault", "lib", "var"] := rfl
  rw [lockPath_default, Files.text?_of_file hloc rfl, Text.decode?_toUTF8]

/-- Where no process holds the lock, it can be taken, and the record is still there. -/
theorem installed_unlocked (r : Record) : ∃ m,
    (Lock.acquire (Lock.path "/var/lib/poolvault/state.yaml")).run.run (installed r none) =
      (.ok true, m) ∧ m.text? "/var/lib/poolvault/state.yaml" = some r.yaml := by
  let taken : Disk := (installed r none).disk.put ["state.pid", "poolvault", "lib", "var"]
    (.newFile (Lock.content 2).toUTF8)
  let m : Machine := { installed r none with disk := taken }
  have hloc : m.disk.resolve m.cwd true "/var/lib/poolvault/state.yaml" =
      .ok ["state.yaml", "poolvault", "lib", "var"] := rfl
  refine ⟨m, ?_, ?_⟩
  · rw [lockPath_default]
    rfl
  · rw [Files.text?_of_file hloc rfl, Text.decode?_toUTF8]

theorem installed_settings (r : Record) (holder : Option UInt32) :
    ∃ s, s.statePath = "/var/lib/poolvault/state.yaml" ∧
      (Settings.load hostFile).run.run (installed r holder) = (.ok s, installed r holder) := by
  cases holder with
  | none => exact ⟨_, rfl, rfl⟩
  | some pid => exact ⟨_, rfl, rfl⟩

end CommandLine

end PoolKeeper
