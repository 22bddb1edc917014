import PoolKeeper.Proofs.Commands
import PoolKeeper.Proofs.Life
import PoolKeeper.Proofs.RecordText

/-!
# `PoolKeeper/Proofs/StatusReport.lean` — the status beside a running process

While a process holds the lock, `status` touches nothing and asks nobody: it shows what the state file
says (`runPart_status_held`). It reads the file as a process does that takes the record over, though, and
such a process has to assume that a cycle in the file died with its owner. So the cycle that the live
process is in the middle of is shown as one that was interrupted. All the other lines are those of the
record, and between two cycles so is this one.
-/

set_option autoImplicit false

namespace PoolKeeper

namespace Record

/-- Of the report, only the line about activity tells a record from the one that is taken over. -/
theorem exists_report_parts (r : Record) : ∃ above below : String,
    r.report = above ++ (activityLine r.status ++ "\n" ++ below) ∧
      r.recovered.report = above ++ (activityLine r.recovered.status ++ "\n" ++ below) := by
  have hparts (lines : List String) (line : String) (rest : List String) :
      String.join ((lines ++ line :: rest).map (· ++ "\n")) =
        String.join (lines.map (· ++ "\n")) ++
          (line ++ "\n" ++ String.join (rest.map (· ++ "\n"))) := by
    rw [List.map_append, List.map_cons, String.join_append, String.join_cons]
  -- What the service does stands in the fifth line.
  refine ⟨String.join ((r.reportLines.take 4).map (· ++ "\n")),
    String.join ((r.reportLines.drop 5).map (· ++ "\n")), hparts (r.reportLines.take 4) _ _, ?_⟩
  have hrest : r.recovered.reportLines =
      r.reportLines.take 4 ++ activityLine r.recovered.status :: r.reportLines.drop 5 := by
    cases hbusy : r.status.inProgress with
    | true => simp only [recovered, hbusy]; rfl
    | false => simp only [recovered, hbusy]; rfl
  rw [report, hrest]
  exact hparts _ _ _

/-- A cycle that is running is taken for one that was interrupted. -/
theorem activityLine_recovered (r : Record) : activityLine r.recovered.status =
    "status:      " ++ ((if r.status.inProgress then "Interrupted: " else "") ++ r.status.lastStatus) := by
  cases hbusy : r.status.inProgress with
  | true => simp only [recovered, hbusy]; rfl
  | false => simp only [recovered, activityLine, hbusy, Bool.false_eq_true, if_false, String.empty_append]

theorem report_recovered_iff (r : Record) :
    r.recovered.report = r.report ↔ r.status.inProgress = false := by
  constructor
  · intro hsame
    obtain ⟨above, below, hreport, hrecovered⟩ := r.exists_report_parts
    rw [hreport, hrecovered, String.append_right_inj, String.append_left_inj,
      String.append_left_inj, activityLine_recovered] at hsame
    by_cases hbusy : r.status.inProgress
    · -- One line begins with an `s`, the other one with an `r`.
      have hfirst := congrArg (fun line => line.toList.head?) hsame
      simp [activityLine, hbusy] at hfirst
    · exact Bool.eq_false_iff.mpr hbusy
  · intro hidle
    rw [recovered, hidle]
    rfl

end Record

namespace CommandLine

variable {σ : Type} {ctx : Context σ} {w : World σ} {r : Record} {text : String} {pid : UInt32}

/-- Beside a live process `status` shows the record in the file, taken over. -/
theorem runPart_status_held (refresh : Bool) (htimely : r.status.Timely)
    (hsaved : w.machine.text? ctx.settings.statePath = some r.yaml)
    (hlock : w.machine.text? (Lock.path ctx.settings.statePath) = some text)
    (hholder : Lock.holder? text = some pid) (halive : pid ∈ w.machine.alive) :
    runPart ctx (status refresh) w = (.ok ⟨r.recovered.report, 0⟩, w) := by
  have hload : (Record.load ctx.settings.statePath).run.run w.machine = (.ok r.recovered, w.machine) := by
    rw [Record.run_load, Files.run_readText_text hsaved, Record.loaded, Record.ofYaml?_yaml_eq htimely]
    rfl
  have hfile : runPart ctx (onFiles [] (Record.load ctx.settings.statePath)) w = (.ok r.recovered, w) :=
    runPart_onFiles [] hload
  cases refresh with
  | false =>
    rw [status]
    simp only [Bool.not_false, if_true]
    rw [runPart_bind_ok runPart_settings, runPart_bind_ok hfile]
    rfl
  | true =>
    rw [status]
    simp only [Bool.not_true, Bool.false_eq_true, if_false]
    rw [runPart_locked_busy (Lock.acquire_held hlock hholder halive),
      runPart_bind_ok runPart_settings, runPart_bind_ok hfile]
    rfl

/-- Whatever the record in the file is, and whether or not the repository should be asked: beside a live
process `status` succeeds, changes nothing and calls nobody. Its report is the one on the record, with
one line for what the service does that never says that a cycle is running; so it is exactly the report
on the record if and only if none is. -/
theorem status_beside_holder {a : Arguments} {refresh : Bool} (host : Settings → Host σ)
    (rounds : Nat) {s : Settings} {m : Machine} (hstatus : a.command = .status refresh)
    (hload : (Settings.load (a.config.getD hostFile)).run.run w.machine = (.ok s, m))
    (hsaved : m.text? s.statePath = some r.yaml) (htimely : r.status.Timely)
    (hlock : m.text? (Lock.path s.statePath) = some text) (hholder : Lock.holder? text = some pid)
    (halive : pid ∈ m.alive) :
    ∃ above below shown : String,
      a.run host rounds w = (⟨shown, 0⟩, { w with machine := m }) ∧
        r.report = above ++ (Record.activityLine r.status ++ "\n" ++ below) ∧
        shown = above ++ ("status:      " ++ ((if r.status.inProgress then "Interrupted: " else "") ++
          r.status.lastStatus) ++ "\n" ++ below) ∧
        (shown = r.report ↔ r.status.inProgress = false) := by
  obtain ⟨above, below, hreport, hshown⟩ := r.exists_report_parts
  rw [Record.activityLine_recovered] at hshown
  refine ⟨above, below, r.recovered.report, ?_, hreport, hshown, r.report_recovered_iff⟩
  apply Arguments.run_of_runPart hload
  rw [hstatus]
  exact runPart_status_held refresh htimely hsaved hlock hholder halive

/-! ## A cycle that is under way -/

def halfway : Record :=
  { status := { inProgress := true, progress := 50, lastStatus := "Restoring snapshot" } }

theorem halfway_timely : halfway.status.Timely := .of_none rfl rfl

/-- The process with the number 1 holds the lock in the middle of a cycle. -/
def beside : World Unit := ⟨{}, installed halfway (some 1), (), []⟩

theorem status_beside_holder_halfway : ∃ shown,
    Arguments.run (fun _ => Service.agreeable.host) 1 ⟨.status true, none⟩ beside =
      (⟨shown, 0⟩, beside) ∧ shown ≠ halfway.report := by
  obtain ⟨s, hpath, hload⟩ := installed_settings halfway (some 1)
  have hsaved : (installed halfway (some 1)).text? s.statePath = some halfway.yaml :=
    hpath ▸ installed_saved halfway (some 1)
  have hlock : (installed halfway (some 1)).text? (Lock.path s.statePath) = some (Lock.content 1) :=
    hpath ▸ installed_locked halfway 1
  have hholder : Lock.holder? (Lock.content 1) = some 1 := by decide
  have hstatus : (⟨.status true, none⟩ : Arguments).command = .status true := rfl
  obtain ⟨_, _, shown, hrun, -, -, hiff⟩ := status_beside_holder (w := beside)
    (fun _ => Service.agreeable.host) 1 hstatus hload hsaved halfway_timely hlock hholder (by decide)
  exact ⟨shown, hrun, fun hsame => Bool.noConfusion (hiff.mp hsame)⟩

/-- The process with the number 1 is alive, holds the lock and has saved that it is half way through a
restore; `status` succeeds and shows something else. -/
theorem halfway_not_shown : 1 ∈ beside.machine.alive ∧
    beside.machine.text? (Lock.path "/var/lib/poolvault/state.yaml") = some (Lock.content 1) ∧
    beside.machine.text? "/var/lib/poolvault/state.yaml" = some halfway.yaml ∧
    ∃ shown, Arguments.run (fun _ => Service.agreeable.host) 1 ⟨.status false, none⟩ beside =
      (⟨shown, 0⟩, beside) ∧ shown ≠ halfway.report := by
  obtain ⟨s, hpath, hload⟩ := installed_settings halfway (some 1)
  have hshown : runPart ⟨s, Service.agreeable.host⟩ (status false) beside =
      (.ok ⟨halfway.recovered.report, 0⟩, beside) := by
    apply runPart_status_held false halfway_timely
    · exact hpath ▸ installed_saved halfway (some 1)
    · exact hpath ▸ installed_locked halfway 1
    · exact show Lock.holder? (Lock.content 1) = some 1 by decide
    · decide
  have hrun : Arguments.run (fun _ => Service.agreeable.host) 1 ⟨.status false, none⟩ beside =
      (⟨halfway.recovered.report, 0⟩, beside) := Arguments.run_of_runPart hload hshown
  refine ⟨by decide, installed_locked .., installed_saved .., _, hrun, fun hsame => ?_⟩
  exact Bool.noConfusion (halfway.report_recovered_iff.mp hsame)

end CommandLine

end PoolKeeper
