import PoolKeeper.Proofs.ListedSnapshots
import PoolKeeper.Proofs.RestoreCommand
import PoolKeeper.Proofs.StatusReport

/-!
# `PoolKeeper/Proofs/RefreshCommand.lean` — the status from the command line, with a refresh

With the lock, `status` reads the record as the running service does (`Service.get`), which asks the
repository for its list when there is a session (`Service.runIn_get_listed`). A record that was just taken
over from its file knows of no session, though, whatever the file says, and nothing opens one on the way
to `get`. So the repository is never asked: what is shown is the list that was saved last, under a session
that is closed (`refresh_shows_saved_list`). `RestoreCommand` is about the same oversight.
-/

set_option autoImplicit false

namespace PoolKeeper

namespace Record

/-- The part of a report that is about the snapshots. -/
def snapshotLines (snapshots : List Snapshot) : String :=
  String.join ((("snapshots:   " ++ String.ofList (Text.decimal snapshots.length)) ::
    snapshots.flatMap Snapshot.lines).map (· ++ "\n"))

theorem exists_report_snapshots (r : Record) :
    ∃ above : String, r.report = above ++ snapshotLines r.status.snapshots := by
  refine ⟨String.join ((r.reportLines.take 7).map (· ++ "\n")), ?_⟩
  rw [report, snapshotLines, ← String.join_append, ← List.map_append]
  rfl

/-- Reports with different ends are different. -/
theorem report_ne_of_snapshots {r r' : Record} {c c' : Char} {rest rest' : List Char}
    (h : (snapshotLines r.status.snapshots).toList = rest ++ [c, '\n'])
    (h' : (snapshotLines r'.status.snapshots).toList = rest' ++ [c', '\n']) (hne : c ≠ c') :
    r.report ≠ r'.report := by
  intro hsame
  obtain ⟨above, hreport⟩ := r.exists_report_snapshots
  obtain ⟨above', hreport'⟩ := r'.exists_report_snapshots
  rw [hreport, hreport', ← String.toList_inj, String.toList_append, String.toList_append, h, h'] at hsame
  have hend := congrArg (fun cs => cs.reverse.tail.head?) hsame
  simp only [List.reverse_append, List.reverse_cons, List.reverse_nil, List.nil_append, List.cons_append,
    List.tail_cons, List.head?_cons, Option.some.injEq] at hend
  exact hne hend

end Record

/-! ## The command -/

namespace CommandLine

open Service

variable {σ : Type} {ctx : Context σ} {w : World σ} {m m' : Machine} {r : Record}

theorem runPart_refresh (ctx : Context σ) (w : World σ) (htimely : r.status.Timely)
    (hlock : (Lock.acquire (Lock.path ctx.settings.statePath)).run.run w.machine = (.ok true, m))
    (hsaved : m.text? ctx.settings.statePath = some r.yaml) :
    runPart ctx (status true) w = (.ok ⟨r.reopened.report, 0⟩,
      ⟨r.reopened, ((Lock.release (Lock.path ctx.settings.statePath)).run m).2, w.host, w.events⟩) := by
  have hconnected : r.reopened.status.connected = false := by rw [Record.reopened_eq]
  have hclosed : ¬ InSession r.reopened := fun hopen => Bool.false_ne_true (hconnected.symm.trans hopen.2)
  have hget : runPart ctx (operate [] Service.get) { w with machine := m, record := r.reopened } =
      (.ok r.reopened, { w with machine := m, record := r.reopened }) := by
    rw [runPart_operate, runIn_get_closed hclosed]
    rfl
  have hshown : runPart ctx (do return (⟨(← operate [] Service.get).report, 0⟩ : Ending))
      { w with machine := m, record := r.reopened } =
        (.ok ⟨r.reopened.report, 0⟩, { w with machine := m, record := r.reopened }) := by
    rw [runPart_bind_ok hget]
    rfl
  rw [status]
  simp only [Bool.not_true, Bool.false_eq_true, if_false]
  rw [runPart_locked_opened htimely hlock hsaved (.inl hshown)]

/-- Whatever record the state file has and whatever the tools would answer: who takes the lock and asks
for the status with a refresh is shown the record as it is taken over from the file. Its snapshots are
those that were saved, nobody is called, and nothing is saved. -/
theorem refresh_shows_saved_list {a : Arguments} (host : Settings → Host σ) (rounds : Nat) {s : Settings}
    (hstatus : a.command = .status true)
    (hload : (Settings.load (a.config.getD hostFile)).run.run w.machine = (.ok s, m))
    (hlock : (Lock.acquire (Lock.path s.statePath)).run.run m = (.ok true, m'))
    (hsaved : m'.text? s.statePath = some r.yaml) (htimely : r.status.Timely) :
    ∃ w', a.run host rounds w = (⟨r.reopened.report, 0⟩, w') ∧ w'.record = r.reopened ∧
      r.reopened.status.snapshots = r.status.snapshots ∧ r.reopened.status.connected = false ∧
      w'.host = w.host ∧ w'.events = w.events ∧
      ∀ text, w'.machine.text? s.statePath = some text → text = r.yaml := by
  have hreopened := r.reopened_eq
  have hcommand : status true = a.command.run (σ := σ) rounds := by
    rw [hstatus]
    rfl
  have hrun := runPart_refresh ⟨s, host s⟩ { w with machine := m } htimely hlock hsaved
  rw [hcommand] at hrun
  refine ⟨_, Arguments.run_of_runPart hload hrun, rfl, by rw [hreopened], by rw [hreopened], rfl, rfl,
    fun text htext => ?_⟩
  exact Option.some.inj ((Lock.text?_release htext).symm.trans hsaved)

theorem refresh_shows_saved_list_settled :
    ∃ w', Arguments.run (fun _ => healthy.host) 1 ⟨.status true, none⟩ alone =
      (⟨settled.reopened.report, 0⟩, w') ∧ w'.record = settled.reopened := by
  obtain ⟨s, hpath, hload⟩ := installed_settings settled none
  obtain ⟨m', hlock, hsaved⟩ := installed_unlocked settled
  rw [← hpath] at hlock hsaved
  have hstatus : (⟨.status true, none⟩ : Arguments).command = .status true := rfl
  obtain ⟨w', hrun, hrecord, -⟩ := refresh_shows_saved_list (w := alone) (fun _ => healthy.host) 1
    hstatus hload hlock hsaved settled_timely
  exact ⟨w', hrun, hrecord⟩

/-! ## A repository with a snapshot -/

def kept : Snapshot := { id := "k123", time := ⟨0, 0⟩, size := 5, source := "/local" }

/-- All is as one would wish, and the repository has a snapshot. -/
def stocked : Answers Unit
  | .listSnapshots, _, m => (.ok [kept], (), m)
  | c, _, m => healthy c () m

/-- The record is enabled and complete, the lock is free, all tools would do what they are asked to, and
the repository would list a snapshot. Nobody asks for it, and what is shown is not the report on any
record that has it. -/
theorem stocked_repository_unasked : settled.config.enabled ∧ settled.config.validate.isOk ∧
    alone.machine.text? "/var/lib/poolvault/state.yaml" = some settled.yaml ∧
    alone.machine.text? (Lock.path "/var/lib/poolvault/state.yaml") = none ∧
    (∀ w : World Unit, (stocked.host .listSnapshots w).1 = .ok [kept]) ∧
    ∃ shown w', Arguments.run (fun _ => stocked.host) 1 ⟨.status true, none⟩ alone = (⟨shown, 0⟩, w') ∧
      w'.events = [] ∧ ∀ r : Record, r.status.snapshots = [kept] → shown ≠ r.report := by
  obtain ⟨s, hpath, hload⟩ := installed_settings settled none
  obtain ⟨m', hlock, hsaved⟩ := installed_unlocked settled
  rw [← hpath] at hlock hsaved
  have hrun := runPart_refresh ⟨s, stocked.host⟩ alone settled_timely hlock hsaved
  have hfree : alone.machine.text? (Lock.path "/var/lib/poolvault/state.yaml") = none := by
    rw [lockPath_default]
    rfl
  have hcommand : Arguments.run (fun _ => stocked.host) 1 ⟨.status true, none⟩ alone = _ :=
    Arguments.run_of_runPart hload hrun
  have hlist (w : World Unit) : (stocked.host .listSnapshots w).1 = .ok [kept] := rfl
  -- The one ends with the length of an empty list, the other one with where the snapshot came from.
  have hempty : (Record.snapshotLines []).toList = "snapshots:   ".toList ++ ['0', '\n'] := by
    decide +kernel
  have hkept : (Record.snapshotLines [kept]).toList =
      "snapshots:   1\n  k123  1970-01-01 00:00:00             5  /loca".toList ++ ['l', '\n'] := by
    decide +kernel
  refine ⟨rfl, by decide, installed_saved .., hfree, hlist, settled.reopened.report, _, hcommand, rfl,
    fun r hr => Record.report_ne_of_snapshots hempty (hr ▸ hkept) (by decide)⟩

end CommandLine

end PoolKeeper
