import PoolKeeper.Proofs.BusySlot
import PoolKeeper.Proofs.Due
import PoolKeeper.Tools.Host

/-!
# `PoolKeeper/Proofs/BackupOutcome.lean` — what a backup comes to

A backup is refused, or it finds the slot taken, or it runs a cycle. `Cycle` gives, for each way in which a
cycle can end, all that was called with the answers, what the cycle comes to, and the record that it
leaves. There are only five ways, because failures after the upload are of no consequence. What is promised
of a cycle (`CycleOutcome`) is read off them.

That there was a view to upload is a statement about the machine at that time. Therefore the ways of a cycle
refer to the runs of its parts, and these to the world in which the slot was just claimed (`begun`).
-/

set_option autoImplicit false

namespace PoolKeeper

/-! ## The rules of a retention policy -/

namespace Retention

variable {p : Retention} {flag : String} {n : UInt32}

/-- All rules in their order, each with the flag that stands for it. -/
def rules (p : Retention) : List (String × Option UInt32) :=
  [("--keep-latest", p.keepLatest), ("--keep-hourly", p.keepHourly), ("--keep-daily", p.keepDaily),
    ("--keep-weekly", p.keepWeekly), ("--keep-monthly", p.keepMonthly),
    ("--keep-annual", p.keepAnnual)]

/-- The policy has a rule with a positive count. -/
def Limits (p : Retention) : Prop := ∃ flag n, (flag, some n) ∈ p.rules ∧ 0 < n

theorem mem_flags : (flag, n) ∈ p.flags ↔ (flag, some n) ∈ p.rules ∧ 0 < n := by
  change (flag, n) ∈ p.rules.filterMap (fun rule => (rule.2.filter (· > 0)).map (rule.1, ·)) ↔ _
  rw [List.mem_filterMap]
  constructor
  · rintro ⟨⟨flag', count⟩, hmem, hpositive⟩
    obtain ⟨n', hn, heq⟩ := Option.map_eq_some_iff.mp hpositive
    obtain ⟨hcount, hn'⟩ := Option.filter_eq_some_iff.mp hn
    cases heq
    exact ⟨hcount ▸ hmem, by simpa using hn'⟩
  · rintro ⟨hmem, hpositive⟩
    refine ⟨(flag, some n), hmem, ?_⟩
    simp [Option.filter, hpositive]

/-- The flags stand in the order of the rules, and none stands twice. -/
theorem flags_sublist (p : Retention) :
    (p.flags.map Prod.fst).Sublist (p.rules.map Prod.fst) ∧ (p.rules.map Prod.fst).Nodup := by
  refine ⟨?_, by simp [rules]⟩
  change ((p.rules.filterMap fun rule =>
    (rule.2.filter (· > 0)).map (rule.1, ·)).map Prod.fst).Sublist _
  induction p.rules with
  | nil => exact .slnil
  | cons rule rules ih =>
    obtain ⟨flag, count⟩ := rule
    simp only [List.filterMap_cons, List.map_cons]
    cases count.filter (· > 0) with
    | none => exact ih.cons flag
    | some n => exact ih.cons_cons flag

theorem isEmpty_eq_false : p.isEmpty = false ↔ p.Limits := by
  rw [isEmpty, List.isEmpty_eq_false_iff_exists_mem]
  constructor
  · rintro ⟨⟨flag, n⟩, hmem⟩
    exact ⟨flag, n, mem_flags.mp hmem⟩
  · rintro ⟨flag, n, hrule⟩
    exact ⟨(flag, n), mem_flags.mpr hrule⟩

end Retention

/-- What is ensured is ensured of the run itself. -/
theorem Ensures.with_run {σ α : Type} {ctx : Context σ} {op : Operation σ α} {w : World σ}
    {Q : α → World σ → Prop} {R : Fault → World σ → Prop} (h : Ensures ctx op w Q R) :
    Ensures ctx op w (fun a w' => Operation.runIn ctx op w = (.ok a, w') ∧ Q a w')
      (fun f w' => Operation.runIn ctx op w = (.error f, w') ∧ R f w') := by
  unfold Ensures at h ⊢
  rcases hrun : Operation.runIn ctx op w with ⟨f | a, w'⟩ <;> rw [hrun] at h <;> exact ⟨rfl, h⟩

namespace Service

open Operation

variable {σ : Type} {ctx : Context σ} {w w' v v' : World σ}

/-! ## Calls with their answers -/

/-- What was called, with what was answered, the latest first. -/
def answered (es : List Event) : List Event := es.filter fun
  | .called .. => true
  | .updated .. => false

theorem answered_called (c : Call) (reply : c.Reply) (es : List Event) :
    answered (.called c reply :: es) = .called c reply :: answered es := rfl

theorem answered_updated (r : Record) (saved : Bool) (es : List Event) :
    answered (.updated r saved :: es) = answered es := rfl

/-- Nothing but questions whether there are such snapshots. -/
def AreNameChecks (asked : List Event) : Prop :=
  ∀ e ∈ asked, ∃ name there, e = .called (.datasetExists name) there

theorem firstFree?_answered (hout : ctx.host.Outside) (pool : String) : ∀ (names : List String)
    (w : World σ), Ensures ctx (PoolSnapshot.firstFree? pool names) w
      (fun _ w' => w'.record = w.record ∧
        ∃ asked, AreNameChecks asked ∧ answered w'.events = asked ++ answered w.events)
      (fun _ _ => False)
  | [], w => .pure ⟨rfl, [], by simp [AreNameChecks], rfl⟩
  | name :: names, w => by
    refine .bind (.call hout fun there w₁ hr he => ?_)
    have hchecked : AreNameChecks [.called (.datasetExists (PoolSnapshot.mk pool name).fullName) there] :=
      fun e he => ⟨_, _, List.mem_singleton.mp he⟩
    refine .ite (fun _ => ?_) fun _ => .pure ⟨hr, _, hchecked, by rw [he]; rfl⟩
    refine (firstFree?_answered hout pool names w₁).mono ?_ fun _ _ => id
    rintro found w₂ ⟨hr₂, asked, hasked, he₂⟩
    refine ⟨hr₂.trans hr, asked ++ [.called (.datasetExists _) there], ?_, ?_⟩
    · exact fun e he => (List.mem_append.mp he).elim (hasked e) (hchecked e)
    · rw [he₂, he, List.append_assoc]
      rfl

theorem take_answered (hout : ctx.host.Outside) (pool : String) (purpose : Purpose) (t : Instant)
    (w : World σ) : Ensures ctx (PoolSnapshot.take pool purpose t) w
      (fun s w' => w'.record = w.record ∧ ∃ asked, AreNameChecks asked ∧
        answered w'.events = .called (.snapshot s.fullName) (.ok ()) :: asked ++ answered w.events)
      (fun f w' => w'.record = w.record ∧ ∃ asked, AreNameChecks asked ∧
        (answered w'.events = asked ++ answered w.events ∨ ∃ name,
          answered w'.events = .called (.snapshot name) (.error f) :: asked ++ answered w.events)) := by
  refine .bind ((firstFree?_answered hout pool _ w).mono ?_ fun _ _ => False.elim)
  rintro (_ | s) w₁ ⟨hr₁, asked, hasked, he₁⟩
  · exact .throw ⟨hr₁, asked, hasked, .inl he₁⟩
  · refine .bind (.call hout fun reply w₂ hr₂ he₂ => .bind (.ofReply ?_ ?_))
    · rintro ⟨⟩ rfl
      exact .pure ⟨hr₂.trans hr₁, asked, hasked, by rw [he₂, answered_called, he₁]; rfl⟩
    · rintro f rfl
      exact ⟨hr₂.trans hr₁, asked, hasked, .inr ⟨_, by rw [he₂, answered_called, he₁]; rfl⟩⟩

theorem view_answered (hout : ctx.host.Outside) (s : PoolSnapshot) (w : World σ) :
    Ensures ctx s.view w
      (fun path w' => ((Files.isThere path).run w'.machine).1 = true ∧ w'.record = w.record ∧
        ∃ reply, answered w'.events = .called (.mountpoint s.pool) reply :: answered w.events)
      (fun _ w' => w'.record = w.record ∧
        ∃ reply, answered w'.events = .called (.mountpoint s.pool) reply :: answered w.events) := by
  refine .bind (.call hout fun reply w₁ hr he => .bind (.ofReply ?_ ?_))
  · intro mountpoint _
    refine .bind (.onMachine_exact (.ite (fun hthere => .pure ⟨?_, hr, reply, ?_⟩)
      fun _ => .throw ⟨hr, reply, ?_⟩))
    · rw [Files.isThere_machine]
      exact hthere
    · exact congrArg answered he
    · exact congrArg answered he
  · exact fun f _ => ⟨hr, reply, congrArg answered he⟩

/-! ## The ways in which a cycle can end -/

/-- The record after a failure: one of the engine costs the session. -/
def lost (f : Fault) (r : Record) : Record := if f.kind = .engine then r.setConnected false else r

/-- What the engine is asked to forget, with its answer. -/
def Expires (retention : Retention) (expired : List Event) : Prop :=
  (retention.Limits ∧ ∃ reply, expired = [.called (.expire retention) reply]) ∨
    (¬ retention.Limits ∧ expired = [])

/-- A cycle that began in `v₀`: what was called with the answers, the latest first, what it came to, and the
record that it left. -/
inductive Cycle (ctx : Context σ) (retention : Retention) (counted : Option String) (now : Instant)
    (v₀ : World σ) : List Event → Except Fault Unit → Record → Prop where
  /-- No name is free. -/
  | nameless {asked : List Event} {f : Fault} (hasked : AreNameChecks asked) :
    Cycle ctx retention counted now v₀ asked (.error f)
      (v₀.record.fail ("Failed to create snapshot: " ++ f.message))
  /-- The pool takes no snapshot. -/
  | untaken {asked : List Event} {name : String} {f : Fault} (hasked : AreNameChecks asked) :
    Cycle ctx retention counted now v₀ (.called (.snapshot name) (.error f) :: asked) (.error f)
      (v₀.record.fail ("Failed to create snapshot: " ++ f.message))
  /-- The snapshot has no view. -/
  | unseen {asked : List Event} {s : PoolSnapshot} {v v' : World σ} {f : Fault}
    {reply : (Call.mountpoint s.pool).Reply} {destroyed : Except Fault Unit}
    (hasked : AreNameChecks asked)
    (htake : runIn ctx (PoolSnapshot.take ctx.settings.pool .backup now) v₀ = (.ok s, v))
    (hview : runIn ctx s.view v = (.error f, v')) :
    Cycle ctx retention counted now v₀
      (.called (.destroy s.fullName) destroyed :: .called (.mountpoint s.pool) reply ::
        .called (.snapshot s.fullName) (.ok ()) :: asked)
      (.error f) (lost f (v₀.record.fail ("Failed to get snapshot path: " ++ f.message)))
  /-- The engine does not take it. -/
  | refused {asked : List Event} {s : PoolSnapshot} {v v' : World σ} {path : String} {f : Fault}
    {reply : (Call.mountpoint s.pool).Reply} {destroyed : Except Fault Unit}
    (hasked : AreNameChecks asked)
    (htake : runIn ctx (PoolSnapshot.take ctx.settings.pool .backup now) v₀ = (.ok s, v))
    (hview : runIn ctx s.view v = (.ok path, v'))
    (hthere : ((Files.isThere path).run v'.machine).1 = true) :
    Cycle ctx retention counted now v₀
      (.called (.destroy s.fullName) destroyed ::
        .called (.upload path (backupDescription s.pool now)) (.error f) ::
        .called (.mountpoint s.pool) reply :: .called (.snapshot s.fullName) (.ok ()) :: asked)
      (.error f) (lost f (v₀.record.fail ("Failed to create Kopia snapshot: " ++ f.message)))
  /-- The engine takes it, and the rest is done as far as it goes. -/
  | done {asked expired : List Event} {s : PoolSnapshot} {v v' : World σ} {path : String}
    {reply : (Call.mountpoint s.pool).Reply} {destroyed : Except Fault Unit} {finished : Instant}
    (hasked : AreNameChecks asked)
    (htake : runIn ctx (PoolSnapshot.take ctx.settings.pool .backup now) v₀ = (.ok s, v))
    (hview : runIn ctx s.view v = (.ok path, v'))
    (hthere : ((Files.isThere path).run v'.machine).1 = true) (hexpired : Expires retention expired) :
    Cycle ctx retention counted now v₀
      (.called .now finished :: .called (.destroy s.fullName) destroyed :: expired ++
        .called (.upload path (backupDescription s.pool now)) (.ok ()) ::
        .called (.mountpoint s.pool) reply :: .called (.snapshot s.fullName) (.ok ()) :: asked)
      (.ok ()) (backedUp finished counted (v₀.record.complete "Backup completed successfully"))

theorem Progresses.fail {r r' : Record} (h : Progresses r r') (status : String) :
    r'.fail status = r.fail status := by
  rw [h]
  rfl

theorem Progresses.complete {r r' : Record} (h : Progresses r r') (status : String) :
    r'.complete status = r.complete status := by
  rw [h]
  rfl

theorem applyRetention_answered (hout : ctx.host.Outside) (retention : Retention) (w : World σ) :
    Ensures ctx (outcome (applyRetention retention)) w
      (fun _ w' => w'.record = w.record ∧ ∃ expired, Expires retention expired ∧
        answered w'.events = expired ++ answered w.events) (fun _ _ => False) := by
  refine .outcome (.ite (fun hrules => .pure ⟨rfl, [], .inr ⟨?_, rfl⟩, rfl⟩) fun hrules => ?_)
  · intro hlimits
    rw [Retention.isEmpty_eq_false.mpr hlimits] at hrules
    cases hrules
  · have hlimits : retention.Limits :=
      Retention.isEmpty_eq_false.mp (Bool.eq_false_iff.mpr hrules)
    refine .bind (.call hout fun reply w₁ hr he => .bind (.ofReply ?_ ?_))
    · exact fun _ _ => .pure ⟨hr, _, .inl ⟨hlimits, reply, rfl⟩, congrArg answered he⟩
    · exact fun f _ => ⟨hr, _, .inl ⟨hlimits, reply, rfl⟩, congrArg answered he⟩

/-- What a cycle can come to from the world `w` on. -/
abbrev CycleFrom (ctx : Context σ) (retention : Retention) (counted : Option String) (now : Instant)
    (v₀ w : World σ) (op : Operation σ Unit) : Prop :=
  Ensures ctx op w
    (fun _ w' => ∃ new, answered w'.events = new ++ answered v₀.events ∧
      Cycle ctx retention counted now v₀ new (.ok ()) w'.record)
    (fun f w' => ∃ new, answered w'.events = new ++ answered v₀.events ∧
      Cycle ctx retention counted now v₀ new (.error f) w'.record)

section Parts

variable {retention : Retention} {counted : Option String} {now : Instant} {v₀ : World σ}

/-- The snapshot is destroyed, the failure is told, and maybe the session ends. -/
theorem fail_cycle (hout : ctx.host.Outside) {s : PoolSnapshot} {status : String} {f : Fault}
    (hprogress : Progresses v₀.record w.record)
    (hcycle : ∀ destroyed, ∃ new, .called (.destroy s.fullName) destroyed :: answered w.events =
      new ++ answered v₀.events ∧
      Cycle ctx retention counted now v₀ new (.error f) (lost f (v₀.record.fail status))) :
    CycleFrom ctx retention counted now v₀ w (do
      let _ ← call (.destroy s.fullName)
      failCycle status
      if f.kind = .engine then Operation.update (·.setConnected false)
      throw f) := by
  refine .bind (.call hout fun destroyed w₁ hr₁ he₁ => .bind (.update fun _ w₂ hr₂ he₂ => ?_))
  have hfailed : w₂.record = v₀.record.fail status := by
    rw [hr₂, hr₁, hprogress.fail]
  have hanswered : answered w₂.events = .called (.destroy s.fullName) destroyed :: answered w.events := by
    rw [he₂, answered_updated, he₁, answered_called]
  obtain ⟨new, hnew, hends⟩ := hcycle destroyed
  -- Only the record differs between the two branches, and `lost` says how.
  refine .ite (fun hengine => .bind (.update fun _ w₃ hr₃ he₃ => .throw ⟨new, ?_, ?_⟩))
    fun hother => .throw ⟨new, ?_, ?_⟩
  · rw [he₃, answered_updated, hanswered, hnew]
  · rw [hr₃, hfailed]
    rwa [lost, if_pos hengine] at hends
  · rw [hanswered, hnew]
  · rw [hfailed]
    rwa [lost, if_neg hother] at hends

/-- After the upload everything is done as far as it goes. -/
theorem finish_cycle (hout : ctx.host.Outside) {s : PoolSnapshot}
    (hprogress : Progresses v₀.record w.record)
    (hcycle : ∀ expired destroyed finished, Expires retention expired → ∃ new,
      .called .now finished :: .called (.destroy s.fullName) destroyed :: expired ++ answered w.events =
        new ++ answered v₀.events ∧ Cycle ctx retention counted now v₀ new (.ok ())
          (backedUp finished counted (v₀.record.complete "Backup completed successfully"))) :
    CycleFrom ctx retention counted now v₀ w (do
      advance 75 "Applying retention policies"
      let _ ← outcome (applyRetention retention)
      advance 90 "Cleaning up ZFS snapshot"
      let _ ← call (.destroy s.fullName)
      let finished ← call .now
      completeCycle "Backup completed successfully" (backedUp finished counted)) := by
  refine .bind (.update fun _ w₁ hr₁ he₁ =>
    .bind ((applyRetention_answered hout retention w₁).mono ?_ fun _ _ => False.elim))
  rintro _ w₂ ⟨hr₂, expired, hexpired, he₂⟩
  refine .bind (.update fun _ w₃ hr₃ he₃ => .bind (.call hout fun destroyed w₄ hr₄ he₄ =>
    .bind (.call hout fun finished w₅ hr₅ he₅ => .update fun _ w₆ hr₆ he₆ => ?_)))
  obtain ⟨new, hnew, hends⟩ := hcycle expired destroyed finished hexpired
  refine ⟨new, ?_, ?_⟩
  · rw [he₆, answered_updated, he₅, answered_called, he₄, answered_called, he₃, answered_updated, he₂,
      he₁, answered_updated, ← hnew]
    rfl
  · have hprogress₅ : Progresses v₀.record w₅.record := by
      rw [hr₅, hr₄, hr₃, hr₂, hr₁, hprogress]
      rfl
    rwa [hr₆, hprogress₅.complete]

end Parts

theorem backupCycle_cycle (hout : ctx.host.Outside) (retention : Retention)
    (counted : Option String) (now : Instant) (v₀ : World σ) :
    CycleFrom ctx retention counted now v₀ v₀ (backupCycle retention counted now) := by
  refine .bind (.settings (.bind (.outcome ((take_answered hout _ _ now v₀).with_run.mono ?_ ?_))))
  · rintro s v ⟨htake, hr, asked, hasked, he⟩
    refine .bind (.bind (.outcome ((view_answered hout s v).with_run.mono ?_ ?_)))
    · rintro path v' ⟨hview, hthere, hr', reply, he'⟩
      refine .bind (.update fun _ w₁ hr₁ he₁ => .bind (.call hout fun uploaded w₂ hr₂ he₂ => .pure ?_))
      have hprogress : Progresses v₀.record w₂.record := by
        rw [hr₂, hr₁, hr', hr]
        rfl
      have hanswered : answered w₂.events = .called (.upload path (backupDescription s.pool now)) uploaded ::
          .called (.mountpoint s.pool) reply :: .called (.snapshot s.fullName) (.ok ()) :: asked ++
            answered v₀.events := by
        rw [he₂, answered_called, he₁, answered_updated, he', he]
        rfl
      -- A failed upload ends the cycle; after one that succeeded no failure counts.
      cases uploaded with
      | error f =>
        refine fail_cycle hout hprogress fun destroyed => ⟨.called (.destroy s.fullName) destroyed ::
          .called (.upload path (backupDescription s.pool now)) (.error f) ::
          .called (.mountpoint s.pool) reply :: .called (.snapshot s.fullName) (.ok ()) :: asked, ?_,
          .refused hasked htake hview hthere⟩
        rw [hanswered]
        rfl
      | ok _ =>
        refine finish_cycle hout hprogress fun expired destroyed finished hexpired =>
          ⟨.called .now finished :: .called (.destroy s.fullName) destroyed :: expired ++
            .called (.upload path (backupDescription s.pool now)) (.ok ()) ::
            .called (.mountpoint s.pool) reply :: .called (.snapshot s.fullName) (.ok ()) :: asked, ?_,
            .done hasked htake hview hthere hexpired⟩
        rw [hanswered]
        simp
    · rintro f v' ⟨hview, hr', reply, he'⟩
      refine .pure (fail_cycle hout ?_ fun destroyed => ⟨.called (.destroy s.fullName) destroyed ::
        .called (.mountpoint s.pool) reply :: .called (.snapshot s.fullName) (.ok ()) :: asked, ?_,
        .unseen hasked htake hview⟩)
      · rw [hr', hr]
        rfl
      · rw [he', he]
        rfl
  · rintro f v ⟨-, hr, asked, hasked, he⟩
    refine .bind (.update fun _ w₁ hr₁ he₁ => .throw ?_)
    have hfailed : w₁.record = v₀.record.fail ("Failed to create snapshot: " ++ f.message) := by
      rw [hr₁, hr]
    rw [he₁, answered_updated, hfailed]
    -- The snapshot failed either because no name is free or at the pool; what is said is the same.
    rcases he with he | ⟨name, he⟩
    · exact ⟨asked, he, .nameless hasked⟩
    · exact ⟨.called (.snapshot name) (.error f) :: asked, he, .untaken hasked⟩

/-! ## What a cycle promises -/

def takesSnapshot : Call → Bool
  | .snapshot _ => true
  | _ => false

/-- The call destroys something on the pool. -/
def destroys : Call → Bool
  | .destroy _ => true
  | _ => false

/-- The call goes to the pool. -/
def asksPool : Call → Bool
  | .poolExists _ | .datasetExists _ | .createDataset .. | .mountpoint _ | .snapshot _ | .destroy _ =>
    true
  | _ => false

/-- The engine took an upload. -/
def Uploads (new : List Event) : Prop :=
  ∃ path description, .called (.upload path description) (.ok ()) ∈ new

/-- What is promised of a cycle that began in `v₀` with the record `r`, for the occurrence `window`. -/
structure CycleOutcome (ctx : Context σ) (now : Instant) (window : String) (r : Record) (v₀ : World σ)
    (new : List Event) (result : Except Fault Unit) (r' : Record) : Prop where
  /-- At most one snapshot is asked for. -/
  once : ((calls new).filter takesSnapshot).length ≤ 1
  /-- The snapshot that was taken is destroyed, once, and after that the pool is left alone. -/
  cleaned : ∀ name, .called (.snapshot name) (.ok ()) ∈ new →
    (calls new).filter destroys = [.destroy name] ∧ (calls new).find? asksPool = some (.destroy name)
  /-- If none was taken, nothing is destroyed. -/
  spared : (∀ name, .called (.snapshot name) (.ok ()) ∉ new) → (calls new).filter destroys = []
  /-- Only the view of the snapshot is uploaded, after the snapshot was taken, and only if it is there. -/
  uploads : ∀ path description reply, .called (.upload path description) reply ∈ new →
    ∃ s v v', runIn ctx (PoolSnapshot.take ctx.settings.pool .backup now) v₀ = (.ok s, v) ∧
      runIn ctx s.view v = (.ok path, v') ∧ ((Files.isThere path).run v'.machine).1 = true ∧
      [.called (.upload path description) reply, .called (.snapshot s.fullName) (.ok ())].Sublist new ∧
      description = backupDescription s.pool now
  /-- The engine is asked to forget something if the upload succeeded and there is a rule to go by. -/
  expires : ∀ policy, .expire policy ∈ calls new ↔
    policy = r.config.retention ∧ Uploads new ∧ policy.Limits
  succeeds : result = .ok () ↔ Uploads new
  /-- A backup that succeeds is written down with the last reading of the clock. -/
  writes : result = .ok () → ∃ finished, new.head? = some (.called .now finished) ∧
    r' = { r with status := { r.status with
      inProgress := false, progress := 100, lastStatus := "Backup completed successfully"
      lastBackup := some finished
      lastWindow :=
        if Text.trim r.config.frequency = "" then some window else r.status.lastWindow } }
  /-- One that fails gives the slot back and says why, and one that the engine failed ends the session. -/
  keeps : ∀ f, result = .error f → ∃ status, r' = r.fail status ∨
    (f.kind = .engine ∧ r' = (r.fail status).setConnected false)

/-- The window that a backup counts for. -/
def countedFor (c : Config) (window : String) : Option String :=
  if c.readFrequency matches .ok .perWindow then some window else none

section Asked

variable {asked : List Event}

theorem AreNameChecks.calls (h : AreNameChecks asked) :
    ∀ c ∈ calls asked, ∃ name, c = .datasetExists name := by
  intro c hc
  obtain ⟨e, he, hcall⟩ := List.mem_filterMap.mp hc
  obtain ⟨name, there, rfl⟩ := h e he
  exact ⟨name, (Option.some.inj hcall).symm⟩

theorem AreNameChecks.filter_eq_nil (h : AreNameChecks asked) {p : Call → Bool}
    (hp : ∀ name, p (.datasetExists name) = false) : (Service.calls asked).filter p = [] := by
  rw [List.filter_eq_nil_iff]
  intro c hc
  obtain ⟨name, rfl⟩ := h.calls c hc
  rw [hp]
  exact Bool.false_ne_true

theorem AreNameChecks.not_mem (h : AreNameChecks asked) {c : Call} {reply : c.Reply}
    (hc : ∀ name, c ≠ .datasetExists name) : .called c reply ∉ asked := by
  intro hmem
  obtain ⟨name, there, heq⟩ := h _ hmem
  injection heq with hcall
  exact hc name hcall

end Asked

theorem calls_called (c : Call) (reply : c.Reply) (es : List Event) :
    calls (.called c reply :: es) = c :: calls es := rfl

theorem calls_append (es es' : List Event) : calls (es ++ es') = calls es ++ calls es' :=
  List.filterMap_append ..

section Ways

variable {retention : Retention} {counted : Option String} {now : Instant} {v₀ : World σ}
  {new : List Event} {result : Except Fault Unit} {r' : Record}

theorem Expires.filter_eq_nil {expired : List Event} (h : Expires retention expired)
    {p : Call → Bool} (hp : p (.expire retention) = false) : (calls expired).filter p = [] := by
  rcases h with ⟨-, reply, rfl⟩ | ⟨-, rfl⟩
  · exact List.filter_cons_of_neg (by rw [hp]; exact Bool.false_ne_true)
  · rfl

theorem Expires.not_mem {expired : List Event} (h : Expires retention expired) {c : Call}
    {reply : c.Reply} (hc : c ≠ .expire retention) : .called c reply ∉ expired := by
  rcases h with ⟨-, reply', rfl⟩ | ⟨-, rfl⟩
  · intro hmem
    injection List.mem_singleton.mp hmem with hcall
    exact hc hcall
  · exact List.not_mem_nil

theorem Expires.mem_calls {expired : List Event} (h : Expires retention expired) {c : Call} :
    c ∈ calls expired ↔ c = .expire retention ∧ retention.Limits := by
  rcases h with ⟨hlimits, reply, rfl⟩ | ⟨hnone, rfl⟩
  · simp [calls, hlimits]
  · simp [calls, hnone]

theorem Cycle.once (h : Cycle ctx retention counted now v₀ new result r') :
    ((calls new).filter takesSnapshot).length ≤ 1 := by
  have hnone {asked : List Event} (hasked : AreNameChecks asked) :
      (calls asked).filter takesSnapshot = [] := hasked.filter_eq_nil fun _ => rfl
  cases h with
  | nameless hasked => simp [hnone hasked]
  | untaken hasked => simp [calls_called, List.filter_cons, takesSnapshot, hnone hasked]
  | unseen hasked => simp [calls_called, List.filter_cons, takesSnapshot, hnone hasked]
  | refused hasked => simp [calls_called, List.filter_cons, takesSnapshot, hnone hasked]
  | done hasked _ _ _ hexpired =>
    simp [calls_called, calls_append, List.filter_cons, takesSnapshot, hnone hasked,
      hexpired.filter_eq_nil (p := takesSnapshot) rfl]

theorem Cycle.cleaned (h : Cycle ctx retention counted now v₀ new result r') {name : String}
    (htaken : .called (.snapshot name) (.ok ()) ∈ new) :
    (calls new).filter destroys = [.destroy name] ∧
      (calls new).find? asksPool = some (.destroy name) := by
  have hnone {asked : List Event} (hasked : AreNameChecks asked) :
      (calls asked).filter destroys = [] := hasked.filter_eq_nil fun _ => rfl
  have hother {asked : List Event} (hasked : AreNameChecks asked) :
      .called (.snapshot name) (.ok ()) ∉ asked := hasked.not_mem fun _ => nofun
  -- In the first two ways no snapshot was taken; in the others the journal has one, which is `name`.
  cases h with
  | nameless hasked => exact (hother hasked htaken).elim
  | untaken hasked => simp [hother hasked] at htaken
  | unseen hasked =>
    obtain rfl : name = _ := by simpa [hother hasked] using htaken
    simp [calls_called, List.filter_cons, destroys, asksPool, hnone hasked]
  | refused hasked =>
    obtain rfl : name = _ := by simpa [hother hasked] using htaken
    simp [calls_called, List.filter_cons, destroys, asksPool, hnone hasked]
  | done hasked _ _ _ hexpired =>
    obtain rfl : name = _ := by
      simpa [hother hasked, hexpired.not_mem (c := .snapshot name) nofun] using htaken
    simp [calls_called, calls_append, List.filter_cons, destroys, asksPool, hnone hasked,
      hexpired.filter_eq_nil (p := destroys) rfl]

theorem Cycle.spared (h : Cycle ctx retention counted now v₀ new result r')
    (hnone : ∀ name, .called (.snapshot name) (.ok ()) ∉ new) : (calls new).filter destroys = [] := by
  have hasked' {asked : List Event} (hasked : AreNameChecks asked) :
      (calls asked).filter destroys = [] := hasked.filter_eq_nil fun _ => rfl
  cases h with
  | nameless hasked => exact hasked' hasked
  | untaken hasked => simp [calls_called, destroys, hasked' hasked]
  | @unseen _ s | @refused _ s | @done _ _ s => exact (hnone s.fullName (by simp)).elim

theorem Cycle.uploads (h : Cycle ctx retention counted now v₀ new result r') {path description : String}
    {reply : Except Fault Unit} (hupload : .called (.upload path description) reply ∈ new) :
    ∃ s v v', runIn ctx (PoolSnapshot.take ctx.settings.pool .backup now) v₀ = (.ok s, v) ∧
      runIn ctx s.view v = (.ok path, v') ∧ ((Files.isThere path).run v'.machine).1 = true ∧
      [.called (.upload path description) reply, .called (.snapshot s.fullName) (.ok ())].Sublist new ∧
      description = backupDescription s.pool now := by
  have hother {asked : List Event} (hasked : AreNameChecks asked) :
      .called (.upload path description) reply ∉ asked := hasked.not_mem fun _ => nofun
  have horder {asked : List Event} (upload taken : Event) (mountpoint : Event) :
      [upload, taken].Sublist (upload :: mountpoint :: taken :: asked) :=
    .cons_cons upload (.cons mountpoint (.cons_cons taken (List.nil_sublist asked)))
  cases h with
  | nameless hasked => exact (hother hasked hupload).elim
  | untaken hasked => simp [hother hasked] at hupload
  | unseen hasked => simp [hother hasked] at hupload
  | refused hasked htake hview hthere =>
    obtain ⟨⟨rfl, rfl⟩, hreply⟩ : (path = _ ∧ description = _) ∧ reply = _ := by
      simpa [hother hasked] using hupload
    exact ⟨_, _, _, htake, hview, hthere, hreply ▸ .cons _ (horder ..), rfl⟩
  | done hasked htake hview hthere hexpired =>
    obtain ⟨⟨rfl, rfl⟩, hreply⟩ : (path = _ ∧ description = _) ∧ reply = _ := by
      simpa [hother hasked, hexpired.not_mem (c := .upload path description) nofun] using hupload
    exact ⟨_, _, _, htake, hview, hthere,
      hreply ▸ .cons _ (.cons _ ((horder ..).trans (List.sublist_append_right ..))), rfl⟩

/-- Only the last of the ways has an upload that succeeded. -/
theorem Cycle.uploads_iff (h : Cycle ctx retention counted now v₀ new result r') :
    Uploads new ↔ result = .ok () := by
  have hother {asked : List Event} (hasked : AreNameChecks asked) (path description : String) :
      .called (.upload path description) (.ok ()) ∉ asked := hasked.not_mem fun _ => nofun
  cases h with
  | nameless hasked => simp [Uploads, hother hasked]
  | untaken hasked => simp [Uploads, hother hasked]
  | unseen hasked => simp [Uploads, hother hasked]
  | refused hasked => simp [Uploads, hother hasked]
  | @done _ _ s _ _ path =>
    exact ⟨fun _ => rfl, fun _ => ⟨path, backupDescription s.pool now, by simp⟩⟩

theorem Cycle.expires (h : Cycle ctx retention counted now v₀ new result r') (policy : Retention) :
    .expire policy ∈ calls new ↔ policy = retention ∧ result = .ok () ∧ policy.Limits := by
  have hother {asked : List Event} (hasked : AreNameChecks asked) : .expire policy ∉ calls asked :=
    fun hmem => by
      obtain ⟨name, heq⟩ := hasked.calls _ hmem
      cases heq
  -- `Expires` is part of the last way only, so what the others called is compared call by call.
  cases h with
  | nameless hasked => simp [hother hasked]
  | untaken hasked => simp [calls_called, hother hasked]
  | unseen hasked => simp [calls_called, hother hasked]
  | refused hasked => simp [calls_called, hother hasked]
  | done hasked _ _ _ hexpired =>
    simp only [calls_append, calls_called, List.cons_append, List.mem_cons, List.mem_append,
      hexpired.mem_calls, hother hasked, reduceCtorEq, false_or, or_false, true_and, Call.expire.injEq]
    constructor
    · rintro ⟨rfl, hlimits⟩
      exact ⟨rfl, hlimits⟩
    · rintro ⟨rfl, hlimits⟩
      exact ⟨rfl, hlimits⟩

theorem countedFor_or (r : Record) (window : String) :
    (countedFor r.config window).or r.status.lastWindow =
      if Text.trim r.config.frequency = "" then some window else r.status.lastWindow := by
  by_cases hblank : Text.trim r.config.frequency = ""
  · have hread : r.config.readFrequency = .ok .perWindow := Config.reads_iff.mp (.blank hblank)
    rw [countedFor, hread, if_pos hblank]
    rfl
  · have hread : r.config.readFrequency ≠ .ok .perWindow := fun h => by
      cases Config.reads_iff.mpr h with
      | blank hblank' => exact hblank hblank'
    rw [if_neg hblank, countedFor]
    split
    next hwindow => exact absurd hwindow hread
    next => rfl

theorem Cycle.writes {r : Record} {window : String}
    (h : Cycle ctx retention (countedFor r.config window) now v₀ new result r')
    (hv₀ : v₀.record = r.claim "Creating ZFS snapshot") (hok : result = .ok ()) :
    ∃ finished, new.head? = some (.called .now finished) ∧
    r' = { r with status := { r.status with
      inProgress := false, progress := 100, lastStatus := "Backup completed successfully"
      lastBackup := some finished
      lastWindow :=
        if Text.trim r.config.frequency = "" then some window else r.status.lastWindow } } := by
  cases h with
  | nameless | untaken | unseen | refused => cases hok
  | done =>
    refine ⟨_, rfl, ?_⟩
    rw [hv₀, ← countedFor_or]
    rfl

theorem Cycle.keeps {r : Record} (h : Cycle ctx retention counted now v₀ new result r')
    (hv₀ : v₀.record = r.claim "Creating ZFS snapshot") {f : Fault} (herror : result = .error f) :
    ∃ status, r' = r.fail status ∨ (f.kind = .engine ∧ r' = (r.fail status).setConnected false) := by
  have hlost (status : String) : lost f (v₀.record.fail status) = r.fail status ∨
      (f.kind = .engine ∧ lost f (v₀.record.fail status) = (r.fail status).setConnected false) := by
    have hfail : v₀.record.fail status = r.fail status := by
      rw [hv₀]
      rfl
    rw [lost, hfail]
    split
    next hengine => exact .inr ⟨hengine, rfl⟩
    next => exact .inl rfl
  cases h with
  | @nameless _ f | @untaken _ _ f =>
    refine ⟨"Failed to create snapshot: " ++ f.message, .inl ?_⟩
    rw [hv₀]
    rfl
  | unseen | refused =>
    cases herror
    exact ⟨_, hlost _⟩
  | done => cases herror

theorem Cycle.outcome {r : Record} {window : String}
    (h : Cycle ctx r.config.retention (countedFor r.config window) now v₀ new result r')
    (hv₀ : v₀.record = r.claim "Creating ZFS snapshot") :
    CycleOutcome ctx now window r v₀ new result r' where
  once := h.once
  cleaned _ := h.cleaned
  spared := h.spared
  uploads _ _ _ := h.uploads
  expires policy := by rw [h.expires, h.uploads_iff]
  succeeds := h.uploads_iff.symm
  writes := h.writes hv₀
  keeps _ := h.keeps hv₀

end Ways

/-! ## Admission -/

/-- Nothing speaks against a backup for the occurrence but, maybe, another cycle. -/
structure Admitted (ctx : Context σ) (w : World σ) (window : String) : Prop where
  enabled : w.record.config.enabled = true
  connected : w.record.status.connected = true
  isOpen : Window.active? ctx.settings.windows (lookedAt ctx w).1 = some window
  there : (lookedAt ctx w).2 = true

theorem refusal?_of_not_admitted (h : ∀ window, ¬ Admitted ctx w window) :
    ∃ text, refusal? ctx.settings w.record (lookedAt ctx w).1 (lookedAt ctx w).2 = some text := by
  rw [← Option.ne_none_iff_exists']
  intro hnone
  unfold refusal? at hnone
  split at hnone
  · cases hnone
  next henabled =>
    split at hnone
    · cases hnone
    next hconnected =>
      split at hnone
      · cases hnone
      next window hopen =>
        split at hnone
        next hthere => exact h window ⟨by simpa using henabled, by simpa using hconnected, hopen, hthere⟩
        · cases hnone

/-- A backup that is not admitted says why, and only asks questions. -/
theorem backup_not_admitted (hout : ctx.host.Outside) (h : ∀ window, ¬ Admitted ctx w window) :
    ∃ f text w', runIn ctx backup w = (.error f, w') ∧
      refusal? ctx.settings w.record (lookedAt ctx w).1 (lookedAt ctx w).2 = some text ∧
      w'.record = w.record.say text ∧ CallsOnly IsQuestion w.events w'.events := by
  obtain ⟨text, htext⟩ := refusal?_of_not_admitted h
  have hends : Ensures ctx backup w (fun _ _ => False) (fun _ w' =>
      w'.record = w.record.say text ∧ CallsOnly IsQuestion w.events w'.events) := by
    refine .bind (.call_exact (.bind (.record ?_)))
    rw [World.note_record, (hout .now w).1]
    refine .bind ((admitBackup_answers hout w).mono ?_ ?_)
    · rintro window w₂ ⟨hnothing, -⟩
      exact nomatch htext.symm.trans hnothing
    · rintro f w₂ ⟨text', htext', hr, hasked⟩
      obtain rfl : text = text' := Option.some.inj (htext.symm.trans htext')
      exact ⟨hr, hasked⟩
  rcases hrun : runIn ctx backup w with ⟨f | ⟨⟩, w'⟩
  · obtain ⟨hr, hasked⟩ := hends.of_error hrun
    exact ⟨f, text, w', rfl, htext, hr, hasked⟩
  · exact (hends.of_ok hrun).elim

/-- The world after the clock and the pool were asked. -/
def asked (ctx : Context σ) (w : World σ) : World σ :=
  (runIn ctx (call (.poolExists ctx.settings.pool)) (runIn ctx (call .now) w).2).2

theorem asked_record (hout : ctx.host.Outside) (w : World σ) : (asked ctx w).record = w.record :=
  (hout (.poolExists ctx.settings.pool) (runIn ctx (call .now) w).2).1.trans (hout .now w).1

theorem asked_events (hout : ctx.host.Outside) (w : World σ) :
    (asked ctx w).events = .called (.poolExists ctx.settings.pool) (lookedAt ctx w).2 ::
      .called .now (lookedAt ctx w).1 :: w.events := by
  obtain ⟨-, hnow⟩ := hout .now w
  obtain ⟨-, hpool⟩ := hout (.poolExists ctx.settings.pool) (runIn ctx (call .now) w).2
  rw [asked, runIn_call, World.note_events, hpool, runIn_call, World.note_events, hnow]
  rfl

/-- The world in which a backup has just claimed the slot. -/
def begun (ctx : Context σ) (w : World σ) : World σ :=
  (asked ctx w).setRecord ctx.settings.statePath (w.record.claim "Creating ZFS snapshot")

/-- A backup that is admitted claims the slot. -/
theorem backup_of_admitted (hout : ctx.host.Outside) {window : String} (h : Admitted ctx w window) :
    runIn ctx backup w = runIn ctx (do
      if !(← claim "Creating ZFS snapshot") then throw backupBusy
      backupCycle w.record.config.retention (countedFor w.record.config window)
        (lookedAt ctx w).1) (asked ctx w) := by
  have hnow : (runIn ctx (call .now) w).2.record = w.record := (hout .now w).1
  have hadmitted : runIn ctx (admitBackup w.record (lookedAt ctx w).1) (runIn ctx (call .now) w).2 =
      (.ok window, asked ctx w) := by
    have hthere : (ctx.host (.poolExists ctx.settings.pool) (runIn ctx (call .now) w).2).1 = true :=
      h.there
    rw [admitBackup, runIn_bind, runIn_settings]
    simp only [h.enabled, h.connected, h.isOpen, Bool.not_true, Bool.false_eq_true, if_false]
    rw [runIn_bind, runIn_call]
    dsimp only
    rw [if_pos hthere, runIn_pure]
    rfl
  rw [backup, runIn_bind, runIn_call]
  change runIn ctx (record >>= _) (runIn ctx (call .now) w).2 = _
  rw [runIn_bind, runIn_record, hnow]
  change runIn ctx (admitBackup w.record (lookedAt ctx w).1 >>= _) (runIn ctx (call .now) w).2 = _
  rw [runIn_bind, hadmitted]
  rfl

theorem backup_of_idle (hout : ctx.host.Outside) {window : String} (h : Admitted ctx w window)
    (hidle : w.record.status.inProgress = false) :
    runIn ctx backup w = runIn ctx (backupCycle w.record.config.retention
      (countedFor w.record.config window) (lookedAt ctx w).1) (begun ctx w) := by
  have hclaimed : runIn ctx (claim "Creating ZFS snapshot") (asked ctx w) =
      (.ok true, begun ctx w) := by
    simp only [claim, runIn_bind, runIn_record, runIn_update, runIn_pure, asked_record hout, hidle,
      Bool.not_false, Bool.false_eq_true, if_false, begun]
  rw [backup_of_admitted hout h, runIn_bind, hclaimed]
  rfl

theorem backup_of_busy (hout : ctx.host.Outside) {window : String} (h : Admitted ctx w window)
    (hbusy : w.record.status.inProgress = true) :
    runIn ctx backup w =
      (.error backupBusy, (asked ctx w).setRecord ctx.settings.statePath w.record) := by
  have hbusy' : (asked ctx w).record.status.inProgress = true := by
    rw [asked_record hout]
    exact hbusy
  rw [backup_of_admitted hout h, runIn_bind, claim_busy _ hbusy', asked_record hout]
  rfl

/-! ## A backup -/

/-- What a backup comes to. If it is not admitted, it only asks questions, and the last status says why. If
it is, it changes nothing while another cycle holds the slot, and otherwise it runs a cycle, which keeps
what `CycleOutcome` promises. The tools let the engine forget by the rules with a positive count, each
of them once and in their order. -/
theorem backup_outcome (hout : ctx.host.Outside) (w : World σ) :
    ((∀ window, ¬ Admitted ctx w window) → ∃ f text w', runIn ctx backup w = (.error f, w') ∧
      refusal? ctx.settings w.record (lookedAt ctx w).1 (lookedAt ctx w).2 = some text ∧
      w'.record = w.record.say text ∧ CallsOnly IsQuestion w.events w'.events) ∧
    (∀ window, Admitted ctx w window →
      (w.record.status.inProgress = true → ∃ w', runIn ctx backup w = (.error backupBusy, w') ∧
        w'.record = w.record ∧ CallsOnly IsQuestion w.events w'.events) ∧
      (w.record.status.inProgress = false → ∃ new,
        answered (runIn ctx backup w).2.events = new ++ .called (.poolExists ctx.settings.pool) true ::
          .called .now (lookedAt ctx w).1 :: answered w.events ∧
        CycleOutcome ctx (lookedAt ctx w).1 window w.record (begun ctx w) new
          (runIn ctx backup w).1 (runIn ctx backup w).2.record)) ∧
    ∀ (s : Settings) (clock : World σ → Instant × World σ) (run : Tools.Runner σ)
      (policy : Retention) (v : World σ), ∃ chosen : List (String × UInt32),
      (chosen.map Prod.fst).Sublist (policy.rules.map Prod.fst) ∧
      (policy.rules.map Prod.fst).Nodup ∧
      (∀ flag n, (flag, n) ∈ chosen ↔ (flag, some n) ∈ policy.rules ∧ 0 < n) ∧
      Tools.host s clock run (.expire policy) v = Tools.effect run
        ⟨s.engineBinary, "snapshot" :: "expire" :: chosen.flatMap fun (flag, n) =>
          [flag, String.ofList (Text.decimal n.toNat)], some s.cacheDir⟩
        (Engine.fault "apply retention policy") v := by
  refine ⟨backup_not_admitted hout, fun window hadmitted => ⟨fun hbusy => ?_, fun hidle => ?_⟩, ?_⟩
  · refine ⟨_, backup_of_busy hout hadmitted hbusy, World.setRecord_record .., ?_⟩
    refine CallsOnly.setRecord ?_ _ _
    rw [asked_events hout]
    exact ((CallsOnly.refl _).called (by trivial) _).called (by trivial) _
  · have hbegun : answered (begun ctx w).events = .called (.poolExists ctx.settings.pool) true ::
        .called .now (lookedAt ctx w).1 :: answered w.events := by
      rw [begun, World.setRecord_events, answered_updated, asked_events hout, answered_called,
        answered_called, hadmitted.there]
    obtain ⟨new, hnew, hcycle⟩ := (backupCycle_cycle hout w.record.config.retention
      (countedFor w.record.config window) (lookedAt ctx w).1 (begun ctx w)).of_result
        (P := fun result w' => ∃ new, answered w'.events = new ++ answered (begun ctx w).events ∧
          Cycle ctx _ (countedFor w.record.config window) (lookedAt ctx w).1 _ new result w'.record)
    rw [backup_of_idle hout hadmitted hidle]
    refine ⟨new, by rw [hnew, hbegun], hcycle.outcome ?_⟩
    rw [begun, World.setRecord_record]
  · intro s clock run policy v
    obtain ⟨hsublist, hnodup⟩ := policy.flags_sublist
    exact ⟨policy.flags, hsublist, hnodup, fun _ _ => Retention.mem_flags, rfl⟩

/-- A machine on which the snapshot of the first second has a view. -/
def viewedMachine : Machine where
  disk := ⟨[([], .newDirectory), (["local"], .newDirectory), ([".zfs", "local"], .newDirectory),
    (["snapshot", ".zfs", "local"], .newDirectory),
    (["kopia-19700101-000000", "snapshot", ".zfs", "local"], .newDirectory)]⟩

/-- A service that has a session and keeps a week of daily snapshots. -/
def viewed : World Unit where
  record := { config := { sampleConfig with retention := { keepDaily := some 7, keepWeekly := some 0 } }
              status := { connected := true } }
  machine := viewedMachine
  host := ()

theorem backup_outcome_viewed : Admitted agreeableContext viewed "always@1970-01-01" ∧
    (runIn agreeableContext backup viewed).1 = .ok () ∧
    ∃ new finished, new.head? = some (.called .now finished) ∧
      CycleOutcome agreeableContext ⟨0, 0⟩ "always@1970-01-01" viewed.record
        (begun agreeableContext viewed) new (runIn agreeableContext backup viewed).1
        (runIn agreeableContext backup viewed).2.record ∧
      (runIn agreeableContext backup viewed).2.record.status.lastBackup = some finished := by
  have hadmitted : Admitted agreeableContext viewed "always@1970-01-01" :=
    ⟨rfl, rfl, by decide +kernel, rfl⟩
  have hok : (runIn agreeableContext backup viewed).1 = .ok () := by decide +kernel
  obtain ⟨new, -, hcycle⟩ := ((backup_outcome agreeable.outside viewed).2.1 _ hadmitted).2 rfl
  obtain ⟨finished, hlast, hrecord⟩ := hcycle.writes hok
  exact ⟨hadmitted, hok, new, finished, hlast, hcycle, by rw [hrecord]⟩

end Service

end PoolKeeper
