import PoolKeeper.Proofs.BusySlot
import PoolKeeper.Proofs.Due

/-!
# `PoolKeeper/Proofs/TickOutcome.lean` — what a look at the schedule comes to

`tick` is put together from an attempt to open a session and a decision. `attended` is the world after the
attempt, and `tick_outcome` says for each case what the tick does from there: it makes a backup if one is
due, it fails and says so if the frequency cannot be used, and otherwise nothing more happens. This holds of
every host, because each case gives the world itself; only what depends on the record being the one that the
tick began with is said of hosts that answer from outside.

That the frequency cannot be used is said once. From then on a tick does no more than look at the clock
(`ticks_told`).
-/

set_option autoImplicit false

namespace PoolKeeper

namespace Service

open Operation Schedule

variable {σ : Type} {ctx : Context σ} {w w' v : World σ} {now : Instant} {d : Config.Defect}

/-! ## The attempt to open a session -/

/-- The service has nobody to make its backups with: it is enabled, has no session, and no cycle runs
that could be using one. -/
def LacksSession (r : Record) : Prop :=
  r.config.enabled = true ∧ r.status.connected = false ∧ r.status.inProgress = false

instance (r : Record) : Decidable (LacksSession r) := inferInstanceAs (Decidable (_ ∧ _))

theorem lacksSession_iff (r : Record) :
    (r.config.enabled && !r.status.connected && !r.status.inProgress) = true ↔ LacksSession r := by
  simp [LacksSession, and_assoc]

/-- The world after a look at the clock, and after the attempt to open a session if there is none. -/
def attended (ctx : Context σ) (w : World σ) : World σ :=
  let w₁ := (runIn ctx (call .now) w).2
  if LacksSession w₁.record then (runIn ctx ensureConnected w₁).2 else w₁

/-- Whatever became of the attempt, the schedule is looked at afterwards. -/
theorem runIn_tick (ctx : Context σ) (w : World σ) :
    runIn ctx tick w = runIn ctx (attend (ctx.host .now w).1) (attended ctx w) := by
  rw [tick_eq, runIn_bind, runIn_call]
  change runIn ctx (record >>= _) (runIn ctx (call .now) w).2 = _
  rw [runIn_bind, runIn_record, attended]
  by_cases hlacks : LacksSession (runIn ctx (call .now) w).2.record
  · dsimp only
    rw [if_pos ((lacksSession_iff _).mpr hlacks), if_pos hlacks, runIn_bind, runIn_outcome]
  · dsimp only
    rw [if_neg (mt (lacksSession_iff _).mp hlacks), if_neg hlacks]

/-! ## What is decided -/

/-- What the last status says of a frequency that cannot be used. -/
def disabledText (d : Config.Defect) : String := "Scheduling disabled: " ++ d.fault.message

/-- The world after it was said that the frequency cannot be used; it is said once. -/
def told (ctx : Context σ) (d : Config.Defect) (v : World σ) : World σ :=
  if v.record.status.lastStatus = disabledText d then v
  else v.setRecord ctx.settings.statePath (v.record.say (disabledText d))

theorem told_record (ctx : Context σ) (d : Config.Defect) (v : World σ) :
    (told ctx d v).record = v.record.say (disabledText d) := by
  unfold told
  split
  next hsaid =>
    rw [← hsaid]
    rfl
  next => exact World.setRecord_record ..

theorem runIn_attend_run {window : String}
    (h : decide v.record ctx.settings.windows now = .ok (.run window)) :
    runIn ctx (attend now) v = runIn ctx (do backup; return .run window) v := by
  simp only [attend, runIn_bind, runIn_record, runIn_settings, h]

theorem runIn_attend_skip {reason : SkipReason}
    (h : decide v.record ctx.settings.windows now = .ok (.skip reason)) :
    runIn ctx (attend now) v = (.ok (.skip reason), v) := by
  simp only [attend, runIn_bind, runIn_record, runIn_settings, h, runIn_pure]

theorem runIn_attend_error (h : decide v.record ctx.settings.windows now = .error d) :
    runIn ctx (attend now) v = (.error d.fault, told ctx d v) := by
  simp only [attend, runIn_bind, runIn_record, runIn_settings, h]
  change runIn ctx (if v.record.status.lastStatus ≠ disabledText d then
    (do say (disabledText d); throw d.fault) else throw d.fault) v = _
  by_cases hsaid : v.record.status.lastStatus = disabledText d
  · rw [told, if_pos hsaid, if_neg (not_not.mpr hsaid), runIn_throw]
  · rw [told, if_neg hsaid, if_pos hsaid, runIn_bind, say, runIn_update]
    dsimp only
    rw [runIn_throw]

/-! ## The calls of a tick -/

theorem attended_calls (hout : ctx.host.Outside) (w : World σ) :
    ∃ opening, calls (attended ctx w).events = opening ++ .now :: calls w.events ∧
      (∀ c ∈ opening, IsConnecting c) ∧ (¬ LacksSession w.record → opening = []) := by
  obtain ⟨hr, he⟩ := hout .now w
  have hr₁ : (runIn ctx (call .now) w).2.record = w.record := hr
  have he₁ : calls (runIn ctx (call .now) w).2.events = .now :: calls w.events := by
    rw [← he]
    rfl
  rw [attended, hr₁]
  split
  next hlacks =>
    have hopen := (ensureConnected_footprint hout (runIn ctx (call .now) w).2).of_runIn
    obtain ⟨opening, hcalls, hconnecting⟩ := (CallsOnly.refl _).steps hopen
    exact ⟨opening, hcalls.trans (by rw [he₁]), hconnecting, fun h => (h hlacks).elim⟩
  next => exact ⟨[], he₁, by simp, fun _ => rfl⟩

/-! ## A frequency that cannot be used -/

/-- The last status says already what is wrong with the frequency. -/
structure Told (ws : List Window) (d : Config.Defect) (r : Record) : Prop where
  faulty : ∃ now, Faulty ws r now d
  said : r.status.lastStatus = disabledText d

theorem told_of_faulty {ws : List Window} {r : Record} (h : Faulty ws r now d) :
    Told ws d (r.say (disabledText d)) :=
  ⟨⟨now, ⟨h.waits.enabled, h.waits.idle, h.waits.connected⟩, h.unusable⟩, rfl⟩

/-- The journal goes on with so many looks at the clock and with nothing else. -/
def OnlyLooks (n : Nat) (es es' : List Event) : Prop :=
  ∃ said : List Instant, said.length = n ∧ es' = said.map (Event.called .now) ++ es

/-- While the last status says what is wrong, a tick does no more than look at the clock. -/
theorem tick_told (hout : ctx.host.Outside) (h : Told ctx.settings.windows d w.record) :
    (runIn ctx tick w).2.record = w.record ∧
      OnlyLooks 1 w.events (runIn ctx tick w).2.events := by
  obtain ⟨hr, he⟩ := hout .now w
  obtain ⟨then', hfaulty⟩ := h.faulty
  have hr₁ : (runIn ctx (call .now) w).2.record = w.record := hr
  have he₁ : OnlyLooks 1 w.events (runIn ctx (call .now) w).2.events :=
    ⟨[(ctx.host .now w).1], rfl, congrArg (Event.called .now _ :: ·) he⟩
  -- A faulty frequency is noticed only by a service with a session, so no session is opened.
  have hattended : attended ctx w = (runIn ctx (call .now) w).2 := by
    rw [attended]
    refine if_neg fun hlacks => ?_
    rw [hr₁] at hlacks
    exact absurd hlacks.2.1 (by rw [hfaulty.waits.connected]; decide)
  have hstays : (runIn ctx tick w).2 = (runIn ctx (call .now) w).2 := by
    rw [runIn_tick, hattended]
    rcases hfaulty.later (ctx.host .now w).1 with hdefect | ⟨reason, hskip⟩
    · rw [runIn_attend_error (by rw [hr₁]; exact hdefect), told, if_pos (by rw [hr₁]; exact h.said)]
    · rw [runIn_attend_skip (by rw [hr₁]; exact hskip)]
  rw [hstays]
  exact ⟨hr₁, he₁⟩

theorem ticks_told (hout : ctx.host.Outside) (h : Told ctx.settings.windows d w.record) :
    ∀ n, (after ctx w (List.replicate n .tick)).record = w.record ∧
      OnlyLooks n w.events (after ctx w (List.replicate n .tick)).events := by
  intro n
  induction n generalizing w with
  | zero => exact ⟨rfl, [], rfl, rfl⟩
  | succ n ih =>
    obtain ⟨hr, said, hlength, hsaid⟩ := tick_told hout h
    have hperform : (runIn ctx (perform .tick) w).2 = (runIn ctx tick w).2 := by
      rw [perform, runIn_bind]
      rcases runIn ctx tick w with ⟨_ | _, w₁⟩ <;> rfl
    have hafter : after ctx w (List.replicate (n + 1) .tick) =
        after ctx (runIn ctx tick w).2 (List.replicate n .tick) := by
      rw [← hperform]
      rfl
    -- The record is the same after the tick, so the hypothesis holds of the world that it leaves.
    obtain ⟨hr', more, hmore, hsaid'⟩ := ih (w := (runIn ctx tick w).2) (by rw [hr]; exact h)
    rw [hafter]
    refine ⟨hr'.trans hr, more ++ said, ?_, ?_⟩
    · rw [List.length_append, hmore, hlength]
    · rw [hsaid', hsaid, List.map_append, List.append_assoc]

/-! ## A tick -/

/-- A tick reads the clock, tries to open a session if the service is enabled and idle and has none, and
then, whatever came of the attempt, goes by the record as it is now and by the time that it read. What is
due by a length of time has its last backup in the past, unless the clock said a leap second. -/
theorem tick_outcome (ctx : Context σ) (w : World σ) :
    let now := (ctx.host .now w).1
    let v := attended ctx w
    (∀ window, Due ctx.settings.windows v.record now window →
      runIn ctx tick w = runIn ctx (do backup; return .run window) v ∧
      ∀ interval last, v.record.config.Reads (.ok (.every interval)) →
        v.record.status.lastBackup = some last → now.isRepresentable →
          last.NotAfter now ∨ (now.isLeap ∧ last.seconds = now.seconds + 1)) ∧
    (∀ d, Faulty ctx.settings.windows v.record now d →
      (∀ window, ¬ Due ctx.settings.windows v.record now window) ∧ d.fault.kind = .config ∧
      runIn ctx tick w = (.error d.fault, told ctx d v) ∧
      (told ctx d v).record = v.record.say (disabledText d) ∧
      (ctx.host.Outside → ∀ n,
        (after ctx (told ctx d v) (List.replicate n .tick)).record = (told ctx d v).record ∧
        OnlyLooks n (told ctx d v).events
          (after ctx (told ctx d v) (List.replicate n .tick)).events)) ∧
    ((∀ window, ¬ Due ctx.settings.windows v.record now window) →
      (∀ d, ¬ Faulty ctx.settings.windows v.record now d) →
      ∃ reason, runIn ctx tick w = (.ok (.skip reason), v)) ∧
    (ctx.host.Outside →
      (v = if LacksSession w.record then (runIn ctx ensureConnected (runIn ctx (call .now) w).2).2
        else (runIn ctx (call .now) w).2) ∧
      ∃ opening, calls v.events = opening ++ .now :: calls w.events ∧
        (∀ c ∈ opening, IsConnecting c) ∧ (¬ LacksSession w.record → opening = [])) := by
  intro now v
  refine ⟨fun window hdue => ⟨?_, ?_⟩, fun d hfaulty => ⟨hfaulty.not_due, rfl, ?_, ?_, ?_⟩, ?_, ?_⟩
  · rw [runIn_tick, runIn_attend_run hdue.decide_eq]
  · exact fun interval last hread hlast hnow => hdue.last_notAfter hread hlast hnow
  · rw [runIn_tick, runIn_attend_error hfaulty.decide_eq]
  · exact told_record ..
  · intro hout n
    refine ticks_told (d := d) hout ?_ n
    rw [told_record]
    exact told_of_faulty hfaulty
  · intro hdue hfaulty
    have hdecides := decides ctx.settings.windows v.record now
    generalize hdecided : decide _ _ _ = decided at hdecides
    cases hdecides with
    | run h => exact (hdue _ h).elim
    | fail h => exact (hfaulty _ h).elim
    | skip => exact ⟨_, by rw [runIn_tick, runIn_attend_skip hdecided]⟩
  · intro hout
    have hr : (runIn ctx (call .now) w).2.record = w.record := (hout .now w).1
    refine ⟨?_, attended_calls hout w⟩
    change attended ctx w = _
    rw [attended, hr]

/-- A service that has a session, and made its last backup at midnight. -/
def midnight (frequency : String) : World Unit where
  record := { config := { sampleConfig with frequency }
              status := { connected := true, lastBackup := some ⟨0, 0⟩ } }
  machine := {}
  host := ()

/-- At midnight a backup is due for the new day, a frequency that cannot be read is refused, and by one
that can it is too soon. -/
theorem tick_outcome_midnight :
    runIn agreeableContext tick (midnight "") =
      runIn agreeableContext (do backup; return .run "always@1970-01-01")
        (attended agreeableContext (midnight "")) ∧
    (runIn agreeableContext tick (midnight "often")).1 =
      .error (Config.Defect.frequencyUnreadable "often" (.numberExpected 0)).fault ∧
    ∃ reason, runIn agreeableContext tick (midnight "6h") =
      (.ok (.skip reason), attended agreeableContext (midnight "6h")) := by
  refine ⟨?_, ?_, ?_⟩
  · have hwaits : (attended agreeableContext (midnight "")).record.Waits :=
      ⟨by decide +kernel, by decide +kernel, by decide +kernel⟩
    have hallows : (attended agreeableContext (midnight "")).record.Allows ⟨0, 0⟩ "always@1970-01-01" :=
      .perWindow (.blank (by decide +kernel)) (by decide +kernel)
    exact ((tick_outcome agreeableContext (midnight "")).1 _ ⟨hwaits, by decide +kernel, hallows⟩).1
  · have hwaits : (attended agreeableContext (midnight "often")).record.Waits :=
      ⟨by decide +kernel, by decide +kernel, by decide +kernel⟩
    have hunusable : (attended agreeableContext (midnight "often")).record.config.Unusable []
        ⟨0, 0⟩ (.frequencyUnreadable "often" (.numberExpected 0)) :=
      .unreadable (Config.reads_iff.mpr (by decide +kernel))
    rw [((tick_outcome agreeableContext (midnight "often")).2.1 _ ⟨hwaits, hunusable⟩).2.2.1]
  · have hsoon : decide (attended agreeableContext (midnight "6h")).record [] ⟨0, 0⟩ =
        .ok (.skip .tooSoon) := by decide +kernel
    refine (tick_outcome agreeableContext (midnight "6h")).2.2.1 (fun window h => ?_) fun d h => ?_
    · exact nomatch hsoon.symm.trans h.decide_eq
    · exact nomatch hsoon.symm.trans h.decide_eq

/-- All goes well, and it is the leap second before midnight. -/
def newYear : Answers Unit
  | .now, _, m => (⟨-1, 1900000000⟩, (), m)
  | c, _, m => agreeable c () m

/-- The settings by default, and a host in the leap second. -/
def newYearContext : Context Unit := ⟨{}, newYear.host⟩

/-- In the leap second a backup is made although the last one lies in the future. -/
theorem tick_before_last_backup :
    (newYearContext.host .now (midnight "500ms")).1.isRepresentable ∧
    (midnight "500ms").record.status.lastBackup = some ⟨0, 0⟩ ∧
    ¬ (⟨0, 0⟩ : Instant).NotAfter (newYearContext.host .now (midnight "500ms")).1 ∧
    .snapshot "local@kopia-19691231-235960" ∈
      calls (runIn newYearContext tick (midnight "500ms")).2.events := by
  unfold Instant.NotAfter
  decide +kernel

end Service

end PoolKeeper
