import PoolKeeper.Proofs.Commands
import PoolKeeper.Proofs.Reopening
import PoolKeeper.Proofs.Session

/-!
# `PoolKeeper/Proofs/RestoreCommand.lean` — a restore from the command line

`restore` takes the lock, takes the record over from its file and asks for the restore as the configured
trigger does. A record that was just taken over knows of no session, and nothing on this path opens one
before the restore looks for it: `apply` connects first for a backup and not for a restore, and `update`
connects only after the order was carried out. So the restore is refused before it asks the pool
anything, whatever the record and the tools are like (`restore_command_refused`).
-/

set_option autoImplicit false

namespace PoolKeeper

/-! ## Trimming twice -/

namespace Text

theorem dropBlanks_dropBlanks (cs : List Char) : dropBlanks (dropBlanks cs) = dropBlanks cs := by
  induction cs with
  | nil => rfl
  | cons c cs ih =>
    by_cases hblank : isBlank c
    · simpa [dropBlanks, hblank] using ih
    · simp [dropBlanks, hblank]

/-- What is left when blanks were cut off the end begins as it did. -/
theorem dropBlanks_of_suffix {cs ds : List Char} (h : cs <:+ ds.reverse) (hds : dropBlanks ds = ds) :
    dropBlanks cs.reverse = cs.reverse := by
  obtain ⟨front, hfront⟩ := h
  have hds' : ds = cs.reverse ++ front.reverse := by
    rw [← List.reverse_append, hfront, List.reverse_reverse]
  cases hcs : cs.reverse with
  | nil => rfl
  | cons c rest =>
    rw [hds', hcs] at hds
    by_cases hblank : isBlank c
    · -- Then something would have been dropped from the front of `ds` too.
      have hlength := congrArg List.length hds
      have hdropped := (List.dropWhile_sublist isBlank (l := rest ++ front.reverse)).length_le
      simp only [dropBlanks, List.cons_append, List.dropWhile_cons, hblank, if_true, List.length_cons]
        at hlength
      omega
    · simp [dropBlanks, hblank]

theorem trim_trim (s : String) : trim (trim s) = trim s := by
  have hchars (cs : List Char) : trimBlanks (trimBlanks cs) = trimBlanks cs := by
    have hfront : dropBlanks (trimBlanks cs) = trimBlanks cs :=
      dropBlanks_of_suffix (List.dropWhile_suffix _) (dropBlanks_dropBlanks cs)
    rw [trimBlanks, hfront, trimBlanks, List.reverse_reverse, dropBlanks_dropBlanks]
  rw [trim, trim, String.toList_ofList, hchars]

end Text

namespace Service

open Operation

variable {σ : Type} {ctx : Context σ} {w : World σ}

/-- The fault of a restore that finds no session. -/
def noSession : Fault := ⟨.restoreRefused, "repository not connected"⟩

/-- The record after a restore found no session. -/
def sessionMissed (r : Record) : Record := r.say ("Restore failed: " ++ noSession.detail)

theorem tryRestore_disconnected {id : String} (hidle : w.record.status.inProgress = false)
    (hconnected : w.record.status.connected = false) (hid : id ≠ "") :
    runIn ctx (tryRestore id) w =
      (.error noSession, w.setRecord ctx.settings.statePath (sessionMissed w.record)) := by
  rw [tryRestore, admitRestore]
  simp only [runIn_bind, runIn_record, runIn_settings, hidle, hconnected, hid, Bool.false_eq_true,
    if_false, Bool.not_false, if_true, refuseRestore, say, runIn_update, runIn_throw]
  rfl

/-- The order is cleared all the same. -/
theorem restore_disconnected {id : String} (hidle : w.record.status.inProgress = false)
    (hconnected : w.record.status.connected = false) (hid : Text.trim id ≠ "") :
    runIn ctx (restore id) w = (.error noSession,
      (w.setRecord ctx.settings.statePath (sessionMissed w.record)).setRecord ctx.settings.statePath
        { sessionMissed w.record with config := w.record.config.clearTrigger }) := by
  rw [restore]
  simp only [runIn_bind, runIn_outcome, tryRestore_disconnected hidle hconnected hid, runIn_update,
    runIn_ofReply, World.setRecord_record]
  rfl

/-- Asking for a restore by a request changes nothing about that: the order is carried out before a
session is opened for the configuration. -/
theorem apply_restore_disconnected {id : String} (hidle : w.record.status.inProgress = false)
    (hconnected : w.record.status.connected = false)
    (hblank : Text.trim w.record.config.restoreTrigger = "") (hid : Text.trim id ≠ "") :
    runIn ctx (apply (.restore id)) w = (.error noSession,
      (w.setRecord ctx.settings.statePath (sessionMissed w.record)).setRecord ctx.settings.statePath
        { sessionMissed w.record with config := w.record.config.clearTrigger }) := by
  have horder : Config.takeRestoreOrder w.record.config { w.record.config with restoreTrigger := id } =
      (some (Text.trim id), w.record.config.clearTrigger) := by
    simp only [Config.takeRestoreOrder, hblank, hid, decide_false, Bool.or_self, Bool.false_eq_true,
      if_false]
    rfl
  have hkept : (w.record.config.enabled && !w.record.config.enabled) = false := by simp
  have hid' : Text.trim (Text.trim id) ≠ "" := by rwa [Text.trim_trim]
  rw [apply, runIn_bind, runIn_record]
  simp only [update, runIn_bind, runIn_record, hkept, Bool.false_eq_true, if_false, horder,
    restore_disconnected hidle hconnected hid']

end Service

/-! ## The command -/

namespace CommandLine

open Service

variable {σ : Type} {ctx : Context σ} {w : World σ} {m : Machine} {r : Record} {id : String}

/-- The record in the file is taken over without its session. -/
theorem runPart_openService (htimely : r.status.Timely)
    (hsaved : w.machine.text? ctx.settings.statePath = some r.yaml) :
    runPart ctx openService w = (.ok (), { w with record := r.reopened }) := by
  have hopen := openRecord_of_readText (Files.run_readText_text hsaved) htimely
  rw [openService, runPart_bind_ok runPart_settings, runPart_bind_ok (runPart_onFiles [] hopen)]
  rfl

/-- With the lock, a command goes on from the record that was taken over. -/
theorem runPart_locked_opened {rest busy : Program σ Ending} {e : Ending} {w' : World σ}
    (htimely : r.status.Timely)
    (hlock : (Lock.acquire (Lock.path ctx.settings.statePath)).run.run w.machine = (.ok true, m))
    (hsaved : m.text? ctx.settings.statePath = some r.yaml)
    (hrest : runPart ctx rest { w with machine := m, record := r.reopened } = (.ok e, w') ∨
      runPart ctx rest { w with machine := m, record := r.reopened } = (.error e, w')) :
    runPart ctx (locked (do openService; rest) busy) w = (.ok e, { w' with
      machine := ((Lock.release (Lock.path ctx.settings.statePath)).run w'.machine).2 }) := by
  have hopen : runPart ctx openService { w with machine := m } =
      (.ok (), { w with machine := m, record := r.reopened }) := runPart_openService htimely hsaved
  refine runPart_locked_held hlock ?_
  rw [runPart_bind_ok hopen]
  exact hrest

/-- The record that a restore from the command line leaves: as it was taken over, with the order cleared
and the refusal for its last status. -/
def missed (r : Record) : Record :=
  { sessionMissed r.reopened with config := r.config.clearTrigger }

/-- How a restore from the command line ends. -/
def missedEnding (id : String) : Ending :=
  ⟨"restore of " ++ id ++ " failed: repository not connected\n", 1⟩

theorem ofFault_noSession (id : String) :
    Ending.ofFault ["restore of " ++ id ++ " failed"] noSession = missedEnding id := by
  have hcauses : noSession.causes = ["repository not connected"] := by decide
  have hcode : noSession.exitCode = 1 := by decide
  have hrest : " failed" ++ (": " ++ ("repository not connected" ++ "\n")) =
      " failed: repository not connected\n" := by decide
  have hjoined (first second : String) : String.intercalate ": " [first, second] =
      first ++ ": " ++ second := rfl
  rw [Ending.ofFault, missedEnding, Fault.inContext, hcauses, hcode]
  simp only [List.reverse_singleton, List.singleton_append, hjoined, String.append_assoc, hrest]

theorem runPart_restore (ctx : Context σ) (w : World σ) (id : String) (htimely : r.status.Timely)
    (hlock : (Lock.acquire (Lock.path ctx.settings.statePath)).run.run w.machine = (.ok true, m))
    (hsaved : m.text? ctx.settings.statePath = some r.yaml)
    (hblank : Text.trim r.config.restoreTrigger = "") (hid : Text.trim id ≠ "") :
    ∃ w', runPart ctx (restore id) w = (.ok (missedEnding id), w') ∧
      w'.record = missed r ∧ w'.host = w.host ∧
      (∃ first second, w'.events =
        .updated (missed r) second :: .updated (sessionMissed r.reopened) first :: w.events) ∧
      ∀ text, w'.machine.text? ctx.settings.statePath = some text → text = (missed r).yaml := by
  have hidle : r.reopened.status.inProgress = false := by rw [Record.reopened_eq]
  have hconnected : r.reopened.status.connected = false := by rw [Record.reopened_eq]
  have hconfig : r.reopened.config = r.config := by rw [Record.reopened_eq]
  let opened : World σ := { w with machine := m, record := r.reopened }
  let refused := opened.setRecord ctx.settings.statePath (sessionMissed r.reopened)
  let cleared := refused.setRecord ctx.settings.statePath (missed r)
  have happly : Operation.runIn ctx (apply (.restore id)) opened = (.error noSession, cleared) := by
    rw [apply_restore_disconnected hidle hconnected (hconfig ▸ hblank) hid, hconfig]
    rfl
  have hasked : runPart ctx (operate ["restore of " ++ id ++ " failed"] (apply (.restore id))) opened =
      (.error (missedEnding id), cleared) := by
    rw [runPart_operate, happly, ← ofFault_noSession]
    rfl
  have hheld : runPart ctx (do
      operate ["restore of " ++ id ++ " failed"] (apply (.restore id))
      showLastStatus) opened = (.error (missedEnding id), cleared) := runPart_bind_error hasked
  have hrecord : cleared.record = missed r := World.setRecord_record ..
  have hhost : cleared.host = w.host := by rw [World.setRecord_host, World.setRecord_host]
  have hevents : cleared.events = .updated (missed r) (refused.saves ctx.settings.statePath (missed r))
      :: .updated (sessionMissed r.reopened)
        (opened.saves ctx.settings.statePath (sessionMissed r.reopened)) :: w.events := by
    rw [World.setRecord_events, World.setRecord_events]
  have hmachine : cleared.machine =
      (((missed r).save ctx.settings.statePath).run refused.machine).2 := World.setRecord_machine ..
  -- What the saves come to is not to be looked into.
  clear_value cleared
  have hrun : runPart ctx (restore id) w = (.ok (missedEnding id), { cleared with
      machine := ((Lock.release (Lock.path ctx.settings.statePath)).run cleared.machine).2 }) :=
    runPart_locked_opened htimely hlock hsaved (.inr hheld)
  refine ⟨_, hrun, hrecord, hhost, ⟨_, _, hevents⟩, ?_⟩
  intro text htext
  have hcleared := Lock.text?_release htext
  rw [hmachine] at hcleared
  exact Form.text?_save hcleared

/-- Whatever record without an order the state file has, whatever was to be restored and whatever the
tools would have answered: who takes the lock and asks for a restore is told that there is no session,
and that is what the state file says afterwards, if it can be read. Nobody was called. -/
theorem restore_command_refused {a : Arguments} (host : Settings → Host σ) (rounds : Nat) {s : Settings}
    {m' : Machine} (hrestore : a.command = .restore id)
    (hload : (Settings.load (a.config.getD hostFile)).run.run w.machine = (.ok s, m))
    (hlock : (Lock.acquire (Lock.path s.statePath)).run.run m = (.ok true, m'))
    (hsaved : m'.text? s.statePath = some r.yaml) (htimely : r.status.Timely)
    (hblank : Text.trim r.config.restoreTrigger = "") (hid : Text.trim id ≠ "") :
    ∃ w', a.run host rounds w = (missedEnding id, w') ∧ w'.record = missed r ∧ w'.host = w.host ∧
      (∃ first second, w'.events =
        .updated (missed r) second :: .updated (sessionMissed r.reopened) first :: w.events) ∧
      ∀ text, w'.machine.text? s.statePath = some text → text = (missed r).yaml := by
  obtain ⟨w', hrun, hends⟩ := runPart_restore ⟨s, host s⟩ { w with machine := m } id htimely
    hlock hsaved hblank hid
  refine ⟨w', Arguments.run_of_runPart hload ?_, hends⟩
  rw [hrestore]
  exact hrun

/-! ## A healthy host -/

/-- Pool and cache are there, no snapshot has the name of another, and whatever is asked succeeds. -/
def healthy : Answers Unit
  | .datasetExists name, _, m => (name == "local/kopia-cache", (), m)
  | c, _, m => agreeable c () m

/-- A service that was configured and does nothing. -/
def settled : Record := { config := sampleConfig }

theorem settled_timely : settled.status.Timely := .of_none rfl rfl

/-- Nobody runs on the machine that the service was configured on. -/
def alone : World Unit := ⟨{}, installed settled none, (), []⟩

theorem restore_command_refused_settled :
    ∃ w', Arguments.run (fun _ => healthy.host) 1 ⟨.restore "k123", none⟩ alone =
      (missedEnding "k123", w') ∧ w'.record = missed settled := by
  obtain ⟨s, hpath, hload⟩ := installed_settings settled none
  obtain ⟨m', hlock, hsaved⟩ := installed_unlocked settled
  rw [← hpath] at hlock hsaved
  have hrestore : (⟨.restore "k123", none⟩ : Arguments).command = .restore "k123" := rfl
  obtain ⟨w', hrun, hrecord, -⟩ := restore_command_refused (w := alone) (fun _ => healthy.host) 1
    hrestore hload hlock hsaved settled_timely (by decide) (by decide)
  exact ⟨w', hrun, hrecord⟩

/-- The record is enabled and complete, it holds no order, and the lock is free; all tools would do what
they are asked to. The command ends with a failure, and so does the record. -/
theorem healthy_restore_refused : settled.config.enabled ∧ settled.config.validate.isOk ∧
    Text.trim settled.config.restoreTrigger = "" ∧
    alone.machine.text? "/var/lib/poolvault/state.yaml" = some settled.yaml ∧
    ∃ w', Arguments.run (fun _ => healthy.host) 1 ⟨.restore "k123", none⟩ alone =
      (⟨"restore of k123 failed: repository not connected\n", 1⟩, w') ∧
      w'.record.status.lastStatus = "Restore failed: repository not connected" := by
  obtain ⟨s, hpath, hload⟩ := installed_settings settled none
  obtain ⟨m', hlock, hsaved⟩ := installed_unlocked settled
  rw [← hpath] at hlock hsaved
  obtain ⟨w', hrun, hrecord, -⟩ := runPart_restore ⟨s, healthy.host⟩ alone "k123"
    settled_timely hlock hsaved (by decide) (by decide)
  have hending : missedEnding "k123" =
      ⟨"restore of k123 failed: repository not connected\n", 1⟩ := by decide
  have hcommand : Arguments.run (fun _ => healthy.host) 1 ⟨.restore "k123", none⟩ alone =
      (missedEnding "k123", w') := Arguments.run_of_runPart hload hrun
  refine ⟨rfl, by decide, by decide, installed_saved .., w', hending ▸ hcommand, ?_⟩
  rw [hrecord]
  decide

end CommandLine

end PoolKeeper
