import PoolKeeper.Proofs.SameFiles

/-!
# `PoolKeeper/Proofs/BesideOwner.lean` — commands beside the owner of the lock

While the file of the lock names a live process, that process owns the state. Every command finds this out
before it does anything else, except that `update` reads the configuration it was given first. What is left
to do then is little: `status` reads the state file, `daemon` gives up, and the others hand over a request
(`CommandLine.runPart_beside`). No tool is called and no record is changed, so all that can differ
afterwards is the machine.
-/

set_option autoImplicit false

namespace PoolKeeper

/-! ## Reading changes nothing -/

theorem Record.load_machine (path : String) (m : Machine) : ((load path).run.run m).2 = m := by
  rw [run_load]

theorem Config.load_machine (path : String) (m : Machine) : ((load path).run.run m).2 = m := by
  have hread : ((Files.readText path).run.run m).2 = m := by rw [Files.run_readText]
  rw [load, Files.run_orFault_bind]
  generalize (Files.readText path).run.run m = read at hread ⊢
  rcases read with ⟨e | text, m₁⟩ <;> obtain rfl : m₁ = m := hread
  · rfl
  · cases hconfig : Yaml.read? ofSource? text <;> simp only [hconfig] <;> rfl

theorem Settings.load_machine (path : String) (m : Machine) : ((load path).run.run m).2 = m := by
  have hfound : ((Files.found? path).run.run m).2 = m := by rw [Files.run_found?]
  have hlook : (liftM (Files.found? path).run : FileStep _).run.run m =
      (.ok ((Files.found? path).run.run m).1, m) := congrArg (Prod.mk _) hfound
  have hread : ((Files.readText path).run.run m).2 = m := by rw [Files.run_readText]
  rw [load, Files.run_bind, hlook]
  generalize ((Files.found? path).run.run m).1 = found
  simp only [pure_bind]
  split
  · cases ofChoices {} <;> rfl
  · cases ofChoices {} <;> rfl
  · rw [Files.run_orFault_bind]
    generalize (Files.readText path).run.run m = read at hread ⊢
    rcases read with ⟨e | text, m₁⟩ <;> obtain rfl : m₁ = m := hread
    · rfl
    · cases hchoices : Yaml.read? HostChoices.ofSource? text with
      | none =>
        simp only [hchoices]
        rfl
      | some choices =>
        simp only [hchoices]
        cases ofChoices choices <;> rfl

namespace CommandLine

variable {σ : Type} {α : Type} {ctx : Context σ} {w : World σ} {m m' : Machine}

/-! ## How a part ends -/

theorem Ending.ofFault_code (contexts : List String) (f : Fault) : (ofFault contexts f).code ≠ 0 := by
  rw [ofFault, Fault.exitCode]
  split
  · exact (by decide : (2 : Nat) ≠ 0)
  · exact (by decide : (1 : Nat) ≠ 0)

theorem runPart_onFiles_error {step : FileStep α} {f : Fault} (contexts : List String)
    (h : step.run.run w.machine = (.error f, m)) : runPart ctx (onFiles contexts step) w =
      (.error (Ending.ofFault contexts f), { w with machine := m }) := by
  have hrun : Operation.runIn ctx (Operation.onFiles step) w = (.error f, { w with machine := m }) := by
    rw [Operation.onFiles, Operation.runIn_bind, Operation.runIn_onMachine, h]
    rfl
  rw [onFiles, runPart_operate, hrun]
  rfl

/-- A part ends the command or goes on to its end; the ending is the same to the caller. -/
def EndsWith (result : Except Ending Ending × World σ) (e : Ending) (w : World σ) : Prop :=
  result = (.ok e, w) ∨ result = (.error e, w)

theorem exists_endsWith (result : Except Ending Ending × World σ) :
    ∃ e, EndsWith result e result.2 := by
  obtain ⟨e | e, w⟩ := result
  · exact ⟨e, .inr rfl⟩
  · exact ⟨e, .inl rfl⟩

theorem Arguments.run_of_endsWith {a : Arguments} {host : Settings → Host σ} {rounds : Nat}
    {s : Settings} {e : Ending} {w' : World σ}
    (hload : (Settings.load (a.config.getD hostFile)).run.run w.machine = (.ok s, m))
    (hrun : EndsWith (runPart ⟨s, host s⟩ (a.command.run rounds) { w with machine := m }) e w') :
    a.run host rounds w = (e, w') := by
  rcases hrun with hrun | hrun
  · exact run_of_runPart hload hrun
  · simp only [runPart] at hrun
    change (Settings.load (a.config.getD hostFile)).run w.machine = _ at hload
    simp only [Arguments.run, hload, hrun]

/-! ## What is left to do -/

/-- What a command hands over to the owner of the lock. -/
def handedOver? (m : Machine) : Command → Option Request
  | .update file => ((Config.load file).run.run m).1.toOption.map .update
  | .backup => some .backup
  | .restore snapshot => some (.restore snapshot)
  | .daemon | .status _ => none

/-- What a command that has something to hand over comes to: the request is in the spool, in one new
file, or the command failed and no file is new. No other file differs. -/
def HandsOver (spoolDir : String) (m : Machine) (c : Command) (e : Ending) (m' : Machine) : Prop :=
  (e.code = 0 ∧ ∃ r loc name bytes, handedOver? m c = some r ∧
    Spool.Queued spoolDir r m m' loc name bytes) ∨
  (e.code ≠ 0 ∧ m.disk.SameFiles m'.disk)

/-- What a command comes to that finds the lock held. -/
def EndsBeside (spoolDir : String) (m : Machine) (c : Command) (e : Ending) (m' : Machine) : Prop :=
  match c with
  | .daemon => e.code = 3 ∧ m' = m
  | .status _ => m' = m
  | c => HandsOver spoolDir m c e m'

/-- Whatever came of it, all files are still there. -/
theorem EndsBeside.grows {spoolDir : String} {c : Command} {e : Ending}
    (h : EndsBeside spoolDir m c e m') : m.disk.Grows m'.disk := by
  have hsame (h : m' = m) : m.disk.Grows m'.disk := h ▸ .refl m'.disk
  have hhanded (h : HandsOver spoolDir m c e m') : m.disk.Grows m'.disk := by
    rcases h with ⟨-, _, _, _, _, -, hqueued⟩ | ⟨-, hfiles⟩
    · exact hqueued.more.toGrows
    · exact hfiles.toGrows
  cases c with
  | daemon => exact hsame h.2
  | status _ => exact hsame h
  | update _ => exact hhanded h
  | backup => exact hhanded h
  | restore _ => exact hhanded h

theorem runPart_queue (ctx : Context σ) (w : World σ) (c : Command) (r : Request)
    (hr : handedOver? w.machine c = some r) : ∃ e m', m'.cwd = w.machine.cwd ∧
      EndsWith (runPart ctx (queue r) w) e { w with machine := m' } ∧
      HandsOver ctx.settings.spoolDir w.machine c e m' := by
  obtain ⟨m', hcwd, ⟨f, hrun, hfiles⟩ | ⟨path, loc, name, bytes, hrun, hqueued⟩⟩ :=
    Spool.submit_outcome ctx.settings.spoolDir r w.machine
  · refine ⟨_, m', hcwd, .inr ?_,
      .inr ⟨Ending.ofFault_code ["failed to queue " ++ r.kind ++ " request"] f, hfiles⟩⟩
    rw [queue, runPart_bind_ok runPart_settings, runPart_bind_error (runPart_onFiles_error _ hrun)]
  · refine ⟨⟨"daemon is running; queued " ++ r.kind ++ " request " ++ path
      ++ "\nrun `poolvault status` to follow it\n", 0⟩, m', hcwd, .inl ?_,
      .inl ⟨rfl, r, loc, name, bytes, hr, hqueued⟩⟩
    rw [queue, runPart_bind_ok runPart_settings, runPart_bind_ok (runPart_onFiles _ hrun)]
    rfl

/-- A read of the state file that ends the command one way or another. -/
theorem runPart_fromFile (ctx : Context σ) (w : World σ) : ∃ e, EndsWith (runPart ctx (do
    return ⟨(← onFiles [] (Record.load (← settings).statePath)).report, 0⟩ : Program σ Ending) w) e w := by
  have hmachine := Record.load_machine ctx.settings.statePath w.machine
  rcases hload : (Record.load ctx.settings.statePath).run.run w.machine with ⟨f | r, m₁⟩
  all_goals
    rw [hload] at hmachine
    obtain rfl : m₁ = w.machine := hmachine
  · refine ⟨Ending.ofFault [] f, .inr ?_⟩
    rw [runPart_bind_ok runPart_settings, runPart_bind_error (runPart_onFiles_error [] hload)]
  · refine ⟨⟨r.report, 0⟩, .inl ?_⟩
    rw [runPart_bind_ok runPart_settings, runPart_bind_ok (runPart_onFiles [] hload)]
    rfl

/-! ## Every command -/

/-- Beside the owner of the lock a command leaves the record, the journal and the tools alone. -/
theorem runPart_beside (ctx : Context σ) (w : World σ) (rounds : Nat) (c : Command)
    (hheld : (Lock.acquire (Lock.path ctx.settings.statePath)).run.run w.machine =
      (.ok false, w.machine)) :
    ∃ e m', m'.cwd = w.machine.cwd ∧
      EndsWith (runPart ctx (c.run rounds) w) e { w with machine := m' } ∧
      EndsBeside ctx.settings.spoolDir w.machine c e m' := by
  cases c with
  | daemon =>
    refine ⟨⟨"another poolvault instance holds " ++ Lock.path ctx.settings.statePath ++ "\n", 3⟩,
      w.machine, rfl, .inl ?_, rfl, rfl⟩
    rw [Command.run, daemon, runPart_locked_busy hheld, runPart_bind_ok runPart_lockPath]
    rfl
  | status refresh =>
    obtain ⟨e, hends⟩ := runPart_fromFile ctx w
    refine ⟨e, w.machine, rfl, ?_, rfl⟩
    cases refresh with
    | false => exact hends
    | true =>
      rw [Command.run, status]
      simp only [Bool.not_true, Bool.false_eq_true, if_false]
      rw [runPart_locked_busy hheld]
      exact hends
  | update file =>
    have hmachine := Config.load_machine file w.machine
    rcases hload : (Config.load file).run.run w.machine with ⟨f | config, m₁⟩
    all_goals
      rw [hload] at hmachine
      obtain rfl : m₁ = w.machine := hmachine
    · refine ⟨Ending.ofFault ["cannot use " ++ file] f, w.machine, rfl, .inr ?_,
        .inr ⟨Ending.ofFault_code _ f, .refl _⟩⟩
      rw [Command.run, update, runPart_bind_error (runPart_onFiles_error _ hload)]
    · have hr : handedOver? w.machine (.update file) = some (.update config) := by
        rw [handedOver?, hload]
        rfl
      obtain ⟨e, m', hcwd, hends, hhanded⟩ := runPart_queue ctx w _ _ hr
      refine ⟨e, m', hcwd, ?_, hhanded⟩
      rw [Command.run, update, runPart_bind_ok (runPart_onFiles _ hload), runPart_locked_busy hheld]
      exact hends
  | backup =>
    obtain ⟨e, m', hcwd, hends, hhanded⟩ := runPart_queue ctx w .backup .backup rfl
    refine ⟨e, m', hcwd, ?_, hhanded⟩
    rw [Command.run, backup, runPart_locked_busy hheld]
    exact hends
  | restore snapshot =>
    obtain ⟨e, m', hcwd, hends, hhanded⟩ := runPart_queue ctx w (.restore snapshot) (.restore snapshot) rfl
    refine ⟨e, m', hcwd, ?_, hhanded⟩
    rw [Command.run, restore, runPart_locked_busy hheld]
    exact hends

end CommandLine

end PoolKeeper
