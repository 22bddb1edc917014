import PoolKeeper.Proofs.Alongside
import PoolKeeper.Proofs.RestoreOrder

/-!
# `PoolKeeper/Proofs/RestoreOutcome.lean` — what a restore comes to

`restoreSteps` are the steps of a restore without any bookkeeping about failures. A restore succeeds
exactly if it is admitted and they do (`restore_ok_iff`).

Starting and stopping units is done as far as it goes. Whatever the units answer, a restore makes the
same calls and comes to the same (`restore_aside`): that is a statement about two runs.
-/

set_option autoImplicit false

namespace PoolKeeper.Service

open Operation

variable {σ : Type} {ctx : Context σ}

/-! ## When a restore succeeds -/

section Steps

variable {w : World σ}

/-- What is done once there is something to go back to, without the bookkeeping about failures; the
first step that fails ends it. -/
def applySteps (id mountpoint : String) : Operation σ Unit := do
  let staging := Path.join mountpoint stagingName
  advance 40 "Creating staging directory"
  onFiles (makeStaging staging)
  advance 50 "Restoring snapshot"
  ofReply (← call (.fetch id staging))
  advance 70 "Applying restored data"
  ofReply (← call (.mirror staging mountpoint keptNames))

/-- The steps of a restore that has the slot, in the same way. -/
def restoreSteps (id : String) : Operation σ Unit := do
  let pool := (← settings).pool
  stopDependents
  advance 20 "Creating safety snapshot"
  let _ ← PoolSnapshot.take pool .safety (← call .now)
  advance 30 "Preparing restore location"
  applySteps id (← ofReply (← call (.mountpoint pool)))

/-- The world of an admitted restore once it has the slot. -/
def claimedWorld (ctx : Context σ) (w : World σ) : World σ :=
  let asked := (runIn ctx (call (.poolExists ctx.settings.pool)) w).2
  asked.setRecord ctx.settings.statePath (asked.record.claim "Stopping services")

theorem fetchAndApply_ok_iff (id : String) (safety : PoolSnapshot) (mountpoint : String)
    (w : World σ) : (runIn ctx (fetchAndApply id safety mountpoint) w).1 = .ok () ↔
      (runIn ctx (applySteps id mountpoint) w).1 = .ok () := by
  simp only [fetchAndApply, applySteps, advance, runIn_bind, runIn_update, runIn_outcome, runIn_call,
    runIn_ofReply]
  rcases runIn ctx (onFiles (makeStaging (Path.join mountpoint stagingName))) _ with ⟨f | ⟨⟩, w₁⟩
  · simp [failKeeping, failCycle, runIn_bind]
  · simp only [runIn_bind, runIn_update, runIn_call]
    generalize ctx.host (.fetch id (Path.join mountpoint stagingName)) _ = fetched
    rcases fetched with ⟨f | ⟨⟩, w₂⟩
    · simp [failCycle, runIn_bind]
    · simp only [runIn_bind, runIn_update, runIn_call, runIn_onMachine]
      generalize ctx.host (.mirror (Path.join mountpoint stagingName) mountpoint keptNames) _ = applied
      rcases applied with ⟨f | ⟨⟩, w₃⟩
      · simp [failCycle, runIn_bind]
      · simp only [runIn_bind, runIn_update]
        generalize World.setRecord _ _ _ = w₄
        have hnever : NeverFails ctx startDependents := startDependents_neverFails
        obtain ⟨⟨⟩, w₅, hstarted⟩ := hnever.ok w₄
        simp [hstarted, completeCycle]

theorem restoreCycle_ok_iff (id : String) (w : World σ) :
    (runIn ctx (restoreCycle id) w).1 = .ok () ↔ (runIn ctx (restoreSteps id) w).1 = .ok () := by
  simp only [restoreCycle, restoreSteps, advance, runIn_bind, runIn_settings]
  rcases runIn ctx stopDependents w with ⟨f | ⟨⟩, w₁⟩
  · simp
  · simp only [runIn_update, runIn_call, runIn_outcome]
    generalize World.note _ _ = w₂
    rcases runIn ctx (PoolSnapshot.take ctx.settings.pool .safety _) w₂ with ⟨f | safety, w₃⟩
    · simp [failCycle, runIn_bind]
    · simp only [runIn_bind, runIn_update, runIn_call, runIn_ofReply]
      generalize ctx.host (.mountpoint ctx.settings.pool) _ = mounted
      rcases mounted with ⟨f | mountpoint, w₄⟩
      · simp [failKeeping, failCycle, runIn_bind]
      · exact fetchAndApply_ok_iff id safety mountpoint _

/-- A restore succeeds exactly if it may begin and each of its steps succeeds. -/
theorem restore_ok_iff (hout : ctx.host.Outside) (id : String) (w : World σ) :
    (runIn ctx (restore id) w).1 = .ok () ↔ Admissible ctx (Text.trim id) w ∧
      (runIn ctx (restoreSteps (Text.trim id)) (claimedWorld ctx w)).1 = .ok () := by
  have hrestore : (runIn ctx (restore id) w).1 = (runIn ctx (tryRestore (Text.trim id)) w).1 := by
    simp [restore, runIn_bind]
  rw [hrestore]
  by_cases hadmissible : Admissible ctx (Text.trim id) w
  · have htry : runIn ctx (tryRestore (Text.trim id)) w
        = runIn ctx (restoreCycle (Text.trim id)) (claimedWorld ctx w) := by
      obtain ⟨hidle, hid, hsession, hpool⟩ := hadmissible
      have hidle' := hidle
      rw [← (hout (.poolExists ctx.settings.pool) w).1] at hidle'
      simp [tryRestore, admitRestore, claim, claimedWorld, runIn_bind, hidle, hid, hsession, hpool,
        hidle']
    rw [htry, restoreCycle_ok_iff]
    simp [hadmissible]
  · have hrefused := tryRestore_ends hout (Text.trim id) w
    unfold Ensures at hrefused
    rcases htry : runIn ctx (tryRestore (Text.trim id)) w with ⟨f | ⟨⟩, w'⟩
    · simp [hadmissible]
    · rw [htry] at hrefused
      exact absurd hrefused.1 hadmissible

end Steps

/-! ## What units answer makes no difference -/

section Units

variable {s : Settings} {a : Answers σ} {orders : Call → σ → Machine → Except Fault Unit}

/-- The same answers, but for the replies of units that are started or stopped. -/
def withUnitReplies (a : Answers σ) (orders : Call → σ → Machine → Except Fault Unit) : Answers σ
  | .start d, host, machine => (orders (.start d) host machine, (a (.start d) host machine).2)
  | .stop d, host, machine => (orders (.stop d) host machine, (a (.stop d) host machine).2)
  | c, host, machine => a c host machine

/-- The event without what a unit replied. -/
def withoutUnitReply : Event → Event
  | .called (.start d) _ => .called (.start d) (.ok ())
  | .called (.stop d) _ => .called (.stop d) (.ok ())
  | e => e

/-- The worlds differ at most in what units replied. -/
def AlikeButUnits (w₁ w₂ : World σ) : Prop :=
  w₁.record = w₂.record ∧ w₁.machine = w₂.machine ∧ w₁.host = w₂.host ∧
    w₁.events.map withoutUnitReply = w₂.events.map withoutUnitReply

/-- Both answers side by side. -/
abbrev UnitsAside (s : Settings) (a : Answers σ) (orders : Call → σ → Machine → Except Fault Unit)
    {α : Type} (op : Operation σ α) : Prop :=
  Alongside ⟨s, a.host⟩ ⟨s, (withUnitReplies a orders).host⟩ AlikeButUnits op

theorem update_aside (f : Record → Record) : UnitsAside s a orders (Operation.update f) := by
  rintro w₁ w₂ ⟨hrecord, hmachine, hhost, hevents⟩
  refine ⟨rfl, ?_, ?_, ?_, ?_⟩
  · simp [hrecord]
  · simp [hrecord, hmachine]
  · simpa using hhost
  · simp [World.saves, hrecord, hmachine, hevents]

theorem onMachine_aside {α : Type} (step : StateM Machine α) :
    UnitsAside s a orders (onMachine step) := by
  rintro w₁ w₂ ⟨hrecord, hmachine, hhost, hevents⟩
  simp only [runIn_onMachine, hmachine]
  exact ⟨trivial, hrecord, rfl, hhost, hevents⟩

theorem settings_aside : UnitsAside s a orders settings := fun _ _ h => ⟨rfl, h⟩

theorem record_aside : UnitsAside s a orders record := fun _ _ h => ⟨by simp [h.1], h⟩

/-- A call that is no order to a unit is answered alike. -/
theorem call_aside {c : Call} (hc : withUnitReplies a orders c = a c) :
    UnitsAside s a orders (call c) := by
  rintro w₁ w₂ ⟨hrecord, hmachine, hhost, hevents⟩
  simp only [runIn_call, Answers.host, hc, hhost, hmachine]
  exact ⟨trivial, hrecord, rfl, rfl, by simp [hevents]⟩

theorem stopUnit_aside (d : Dependent) : UnitsAside s a orders (stopUnit d) := by
  rintro w₁ w₂ ⟨hrecord, hmachine, hhost, hevents⟩
  simp only [stopUnit, runIn_bind, runIn_call, runIn_pure, Answers.host, withUnitReplies, hhost,
    hmachine]
  exact ⟨trivial, hrecord, rfl, rfl, by simp [hevents, withoutUnitReply]⟩

theorem startUnit_aside (d : Dependent) : UnitsAside s a orders (startUnit d) := by
  rintro w₁ w₂ ⟨hrecord, hmachine, hhost, hevents⟩
  simp only [startUnit, runIn_bind, runIn_call, runIn_pure, Answers.host, withUnitReplies, hhost,
    hmachine]
  exact ⟨trivial, hrecord, rfl, rfl, by simp [hevents, withoutUnitReply]⟩

theorem ifManaged_aside {act : Dependent → Operation σ Unit}
    (hact : ∀ d, UnitsAside s a orders (act d)) (d : Dependent) :
    UnitsAside s a orders (ifManaged act d) := by
  refine .bind (.bind settings_aside fun _ => .ite (.pure false) (call_aside rfl)) fun managed => ?_
  exact .ite (hact d) (.pure ())

theorem stopDependents_aside : UnitsAside s a orders stopDependents :=
  .bind (call_aside rfl) fun _ => .bind (.forM stopUnit_aside _) fun _ =>
    .bind (call_aside rfl) fun _ => .forM (ifManaged_aside stopUnit_aside) _

theorem startDependents_aside : UnitsAside s a orders startDependents :=
  .bind (call_aside rfl) fun _ => .bind (.forM (ifManaged_aside startUnit_aside) _) fun _ =>
    .bind (call_aside rfl) fun _ => .forM startUnit_aside _

theorem firstFree?_aside (pool : String) :
    ∀ names, UnitsAside s a orders (PoolSnapshot.firstFree? pool names)
  | [] => .pure none
  | _ :: names => .bind (call_aside rfl) fun _ =>
      .ite (firstFree?_aside pool names) (.pure _)

theorem take_aside (pool : String) (purpose : Purpose) (t : Instant) :
    UnitsAside s a orders (PoolSnapshot.take pool purpose t) := by
  refine .bind (firstFree?_aside pool _) fun found => ?_
  cases found with
  | none => exact .throw _
  | some p => exact .bind (call_aside rfl) fun reply => .bind (.ofReply reply) fun _ => .pure p

theorem onFiles_aside {α : Type} (step : FileStep α) : UnitsAside s a orders (onFiles step) := by
  refine .bind (onMachine_aside _) fun result => ?_
  cases result with
  | ok b => exact .pure b
  | error f => exact .throw f

theorem failKeeping_aside {α : Type} (safety : PoolSnapshot) (what : String) (f result : Fault) :
    UnitsAside s a orders (failKeeping safety what f result : Operation σ α) :=
  .bind (update_aside _) fun _ => .throw result

theorem fetchAndApply_aside (id : String) (safety : PoolSnapshot) (mountpoint : String) :
    UnitsAside s a orders (fetchAndApply id safety mountpoint) := by
  refine .bind (update_aside _) fun _ => .bind (.outcome (onFiles_aside _)) fun made => ?_
  cases made with
  | error f => exact failKeeping_aside _ _ _ _
  | ok _ =>
    refine .bind (update_aside _) fun _ => .bind (call_aside rfl) fun fetched => ?_
    cases fetched with
    | error f => exact .bind (update_aside _) fun _ => .bind (onMachine_aside _) fun _ => .throw _
    | ok _ =>
      refine .bind (update_aside _) fun _ => .bind (call_aside rfl) fun applied => ?_
      refine .bind (onMachine_aside _) fun _ => ?_
      cases applied with
      | error f => exact .bind (update_aside _) fun _ => .throw f
      | ok _ =>
        exact .bind (update_aside _) fun _ => .bind startDependents_aside fun _ => update_aside _

theorem restoreCycle_aside (id : String) : UnitsAside s a orders (restoreCycle id) := by
  refine .bind settings_aside fun _ => .bind stopDependents_aside fun _ => ?_
  refine .bind (update_aside _) fun _ => .bind (call_aside rfl) fun now => ?_
  refine .bind (.outcome (take_aside _ _ now)) fun taken => ?_
  cases taken with
  | error f => exact .bind (update_aside _) fun _ => .throw _
  | ok safety =>
    refine .bind (update_aside _) fun _ => .bind (call_aside rfl) fun mounted => ?_
    cases mounted with
    | error f => exact failKeeping_aside _ _ _ _
    | ok mountpoint => exact fetchAndApply_aside id safety mountpoint

theorem refuseRestore_aside {α : Type} (detail : String) :
    UnitsAside s a orders (refuseRestore detail : Operation σ α) :=
  .bind (update_aside _) fun _ => .throw _

theorem admitRestore_aside (id : String) : UnitsAside s a orders (admitRestore id) := by
  refine .bind record_aside fun r => .bind settings_aside fun s' => ?_
  have hpool (there : Bool) : UnitsAside s a orders
      (if !there then refuseRestore ("pool " ++ s'.pool ++ " not found") else pure ()) :=
    .ite (refuseRestore_aside _) (.pure ())
  exact .guard (.throw _) fun _ => .guard (.throw _) fun _ =>
    .guard (refuseRestore_aside _) fun _ => .bind (call_aside rfl) hpool

theorem restore_aside (id : String) : UnitsAside s a orders (restore id) := by
  have hclaim : UnitsAside s a orders (claim "Stopping services") :=
    .bind record_aside fun r => .bind (update_aside _) fun _ => .pure _
  have htry : UnitsAside s a orders (tryRestore (Text.trim id)) :=
    .bind (admitRestore_aside _) fun _ => .bind hclaim fun claimed =>
      .guard (.throw _) fun _ => restoreCycle_aside _
  exact .bind (.outcome htry) fun result => .bind (update_aside _) fun _ => .ofReply result

end Units

/-! ## A restore, whatever is answered -/

/-- Some update took the slot. -/
def Claims (es : List Event) : Prop :=
  ∃ r saved, .updated r saved ∈ es ∧ r.status.inProgress = true

/-- The slot is free again, and the status says what the restore came to: after a failure, with the name
of every safety snapshot that was taken. -/
def Released (es : List Event) : Except Fault Unit → Status → Prop
  | .ok _, s => Completed s
  | .error _, s => s.inProgress = false ∧ s.progress = 0 ∧
      ∀ name, .called (.snapshot name) (.ok ()) ∈ es →
        ∃ before after, s.lastStatus = before ++ name ++ after

/-- A restore keeps the order. It takes the slot only if it is admitted, and then gives it back. -/
theorem restore_accounts (hout : ctx.host.Outside) (id : String) (w : World σ) :
    ∃ es, (runIn ctx (restore id) w).2.events = es ++ w.events ∧ RestoreOrder ctx.settings.pool es ∧
      (w.record.status.inProgress = false → Claims es → Admissible ctx (Text.trim id) w) ∧
      (Admissible ctx (Text.trim id) w →
        Released es (runIn ctx (restore id) w).1 (runIn ctx (restore id) w).2.record.status) := by
  refine Ensures.of_result (P := fun result w' => ∃ es, w'.events = es ++ w.events ∧
    RestoreOrder ctx.settings.pool es ∧
    (w.record.status.inProgress = false → Claims es → Admissible ctx (Text.trim id) w) ∧
    (Admissible ctx (Text.trim id) w → Released es result w'.record.status))
    ((restore_ends hout id w).mono ?_ ?_)
  · rintro _ w' ⟨hadmissible, name, r, ⟨⟨es, hes, htrail⟩, hr⟩, hcompleted⟩
    exact ⟨es, hes, htrail.ordered, fun _ _ => hadmissible, fun _ => hr ▸ hcompleted⟩
  · rintro f w' (⟨hnot, es, hes, htrail, hslots, -⟩ | ⟨hadmissible, s, r, ⟨⟨es, hes, htrail⟩, hr⟩, h⟩)
    · refine ⟨es, hes, htrail.ordered, ?_, fun hadmissible => absurd hadmissible hnot⟩
      rintro hidle ⟨r, saved, hmem, hclaimed⟩
      rw [hslots r saved hmem, hidle] at hclaimed
      cases hclaimed
    · obtain ⟨hidle, hprogress, hnames⟩ := h
      refine ⟨es, hes, htrail.ordered, fun _ _ => hadmissible, fun _ => ?_⟩
      exact hr ▸ ⟨hidle, hprogress, fun name hmem => hnames name (htrail.safety hmem)⟩

/-- Whatever is answered: a restore keeps the order, it succeeds exactly if it may begin and each of
its steps succeeds, it gives back a slot that it took, and what units answer makes no difference to what
else it does. -/
theorem restore_keeps_data_safe (s : Settings) (a : Answers σ) (id : String) (w : World σ) :
    ∃ result w' es, runIn ⟨s, a.host⟩ (restore id) w = (result, w') ∧ w'.events = es ++ w.events ∧
      RestoreOrder s.pool es ∧
      (result = .ok () ↔ Admissible ⟨s, a.host⟩ (Text.trim id) w ∧
        (runIn ⟨s, a.host⟩ (restoreSteps (Text.trim id)) (claimedWorld ⟨s, a.host⟩ w)).1 = .ok ()) ∧
      (w.record.status.inProgress = false → Claims es →
        Admissible ⟨s, a.host⟩ (Text.trim id) w) ∧
      (Admissible ⟨s, a.host⟩ (Text.trim id) w → Released es result w'.record.status) ∧
      ∀ orders, (runIn ⟨s, (withUnitReplies a orders).host⟩ (restore id) w).1 = result ∧
        AlikeButUnits w' (runIn ⟨s, (withUnitReplies a orders).host⟩ (restore id) w).2 := by
  have hout : (Context.mk s a.host).host.Outside := a.outside
  obtain ⟨es, hes, horder, hclaims, hreleased⟩ := restore_accounts hout id w
  refine ⟨_, _, es, rfl, hes, horder, restore_ok_iff hout id w, hclaims, hreleased, fun orders => ?_⟩
  have haside : UnitsAside s a orders (restore id) := restore_aside id
  obtain ⟨hresult, halike⟩ := haside w w ⟨rfl, rfl, rfl, rfl⟩
  exact ⟨hresult.symm, halike⟩

end PoolKeeper.Service
