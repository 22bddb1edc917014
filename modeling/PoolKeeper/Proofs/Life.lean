import PoolKeeper.Proofs.Footprint

/-!
# `PoolKeeper/Proofs/Life.lean` — one action after the other

Whoever uses the service asks it for one `Action` after the other, and each is carried out before the
next begins. What each action keeps is kept by any number of them (`after_keeps`).
-/

set_option autoImplicit false

namespace PoolKeeper.Service

open Operation

variable {σ : Type} {ctx : Context σ}

/-- What can be asked of the service. -/
inductive Action where
  | update (requested : Config)
  | start
  | stop
  | get
  | tick
  | backup
  | restore (id : String)
  | apply (r : Request)

/-- Does what is asked. What comes of it is for whoever asked. -/
def perform : Action → Operation σ Unit
  | .update requested => update requested
  | .start => start
  | .stop => stop
  | .get => do let _ ← get
  | .tick => do let _ ← tick
  | .backup => backup
  | .restore id => restore id
  | .apply r => apply r

/-- The world after the actions. -/
def after (ctx : Context σ) (w : World σ) (actions : List Action) : World σ :=
  actions.foldl (fun w a => (runIn ctx (perform a) w).2) w

/-- What comes of the actions, one after the other. -/
def outcomes (ctx : Context σ) : World σ → List Action → List (Except Fault Unit)
  | _, [] => []
  | w, a :: actions =>
    (runIn ctx (perform a) w).1 :: outcomes ctx (runIn ctx (perform a) w).2 actions

theorem length_outcomes : ∀ (w : World σ) (actions : List Action),
    (outcomes ctx w actions).length = actions.length
  | _, [] => rfl
  | _, _ :: actions => congrArg Nat.succ (length_outcomes _ actions)

theorem after_keeps {P : World σ → Prop}
    (h : ∀ (a : Action) w, P w → Ensures ctx (perform a) w (fun _ => P) (fun _ => P)) :
    ∀ (actions : List Action) (w : World σ), P w → P (after ctx w actions)
  | [], _, hw => hw
  | a :: actions, w, hw => after_keeps h actions _ (h a w hw).of_runIn

/-! ## A look at the schedule -/

/-- What `tick` does once it has seen to the session. -/
def attend (now : Instant) : Operation σ Decision := do
  let r ← record
  match Schedule.decide r (← settings).windows now with
  | .error defect =>
    let status := "Scheduling disabled: " ++ defect.fault.message
    if r.status.lastStatus ≠ status then say status
    throw defect.fault
  | .ok decision =>
    match decision with
    | .run _ => backup
    | .skip _ => pure ()
    return decision

theorem tick_eq : (tick : Operation σ Decision) = (do
    let now ← call .now
    let r ← record
    if r.config.enabled && !r.status.connected && !r.status.inProgress then
      let _ ← outcome ensureConnected
    attend now) := rfl

/-- Looks at the schedule, and makes nothing of it. -/
def judge (now : Instant) : Operation σ Decision := do
  let r ← record
  match Schedule.decide r (← settings).windows now with
  | .error defect =>
    let status := "Scheduling disabled: " ++ defect.fault.message
    if r.status.lastStatus ≠ status then say status
    throw defect.fault
  | .ok decision => return decision

def follow : Decision → Operation σ Unit
  | .run _ => backup
  | .skip _ => pure ()

theorem attend_eq (now : Instant) : (attend now : Operation σ Decision) = (do
    let decision ← judge now
    follow decision
    return decision) := by
  rw [attend, judge, bind_assoc]
  refine bind_congr fun r => ?_
  rw [bind_assoc]
  refine bind_congr fun s => ?_
  cases Schedule.decide r s.windows now with
  | error defect =>
    dsimp only
    split
    next => rw [bind_assoc]; rfl
    next => rfl
  | ok decision =>
    rw [pure_bind]
    cases decision <;> rfl

/-- What `tick` does before it makes a backup, if it makes one. -/
def look : Operation σ Decision := do
  let now ← call .now
  let r ← record
  if r.config.enabled && !r.status.connected && !r.status.inProgress then
    let _ ← outcome ensureConnected
  judge now

theorem tick_eq_look : (tick : Operation σ Decision) = (do
    let decision ← look
    follow decision
    return decision) := by
  rw [tick_eq, look, bind_assoc]
  refine bind_congr fun now => ?_
  rw [bind_assoc]
  refine bind_congr fun r => ?_
  split
  next => simp only [bind_assoc, attend_eq]
  next => exact attend_eq now

/-! ## What every action keeps

The actions are put together from a few parts. Whatever the parts keep, all actions keep, and so does any
number of them. Taking a configuration over is a part of its own kind, because the configuration that is
taken over depends on the record that there was when the action began.
-/

/-- The operation keeps `P`, however it ends. -/
def Preserves (ctx : Context σ) (P : World σ → Prop) {α : Type} (op : Operation σ α) : Prop :=
  ∀ w, P w → Ensures ctx op w (fun _ => P) (fun _ => P)

/-- The parts of the actions keep `P`. -/
structure PartsPreserve (ctx : Context σ) (P : World σ → Prop) : Prop where
  now : Preserves ctx P (call .now)
  say (status : String) : Preserves ctx P (say status)
  connect : Preserves ctx P ensureConnected
  get : Preserves ctx P get
  stop : Preserves ctx P stop
  backup : Preserves ctx P backup
  restore (id : String) : Preserves ctx P (restore id)
  /-- `w₀` is the world in which the action began. -/
  configure (requested : Config) (w₀ : World σ) (h : P w₀) : Preserves ctx P (Operation.update
    (configured (Config.takeRestoreOrder w₀.record.config requested).2 w₀.record.config))

variable {P : World σ → Prop} {α β : Type}

namespace Preserves

theorem pure (a : α) : Preserves ctx P (pure a : Operation σ α) := fun _ hw => .pure hw

theorem throw (f : Fault) : Preserves ctx P (throw f : Operation σ α) := fun _ hw => .throw hw

theorem bind {op : Operation σ α} {next : α → Operation σ β} (h : Preserves ctx P op)
    (hnext : ∀ a, Preserves ctx P (next a)) : Preserves ctx P (op >>= next) := fun w hw =>
  .bind ((h w hw).mono (fun a w' => hnext a w') fun _ _ hw' => hw')

theorem ite {c : Prop} [Decidable c] {op other : Operation σ α} (hthen : Preserves ctx P op)
    (helse : Preserves ctx P other) : Preserves ctx P (if c then op else other) := fun w hw =>
  .ite (fun _ => hthen w hw) fun _ => helse w hw

/-- Something is done under a condition, and then the rest. -/
theorem guard {c : Prop} [Decidable c] {op : Operation σ Unit} {rest : Unit → Operation σ α}
    (hop : Preserves ctx P op) (hrest : ∀ u, Preserves ctx P (rest u)) :
    Preserves ctx P (if c then op >>= rest else rest ()) := ite (bind hop hrest) (hrest ())

theorem settings : Preserves ctx P Operation.settings := fun _ hw => .settings hw

theorem record : Preserves ctx P Operation.record := fun _ hw => .record hw

theorem outcome {op : Operation σ α} (h : Preserves ctx P op) :
    Preserves ctx P (Operation.outcome op) := fun w hw => .outcome (h w hw)

theorem ofReply (reply : Except Fault α) : Preserves ctx P (Operation.ofReply reply) := fun _ hw =>
  .ofReply (fun _ _ => hw) fun _ _ => hw

theorem forM {γ : Type} {step : γ → Operation σ Unit} (h : ∀ x, Preserves ctx P (step x)) :
    ∀ xs : List γ, Preserves ctx P (xs.forM step)
  | [] => pure ()
  | x :: xs => bind (h x) fun _ => forM h xs

/-- What every change of the record keeps is kept of it. -/
theorem of_footprint {C : Call → Prop} {U : Record → Record → Prop} {P : Record → Prop}
    {op : Operation σ α} (h : Footprint ctx C U op) (hU : ∀ r r', U r r' → P r → P r') :
    Preserves ctx (fun w => P w.record) op := fun w hw =>
  (h w).mono (fun _ _ hsteps => hsteps.keeps_record hU hw) fun _ _ hsteps => hsteps.keeps_record hU hw

/-- An update keeps what its parts keep; `w₀` is the world in which it began. -/
theorem update {requested : Config} (hstop : Preserves ctx P stop)
    (hrestore : ∀ id, Preserves ctx P (restore id)) (hconnect : Preserves ctx P ensureConnected)
    (hconfigure : ∀ w₀, P w₀ → Preserves ctx P (Operation.update
      (configured (Config.takeRestoreOrder w₀.record.config requested).2 w₀.record.config))) :
    Preserves ctx P (Service.update requested) := by
  intro w hw
  refine .bind (.record (.guard P (fun _ => hstop w hw) (fun _ => hw) ?_))
  intro _ w₁ hw₁
  have hconfigured := hconfigure w hw
  rcases htaken : Config.takeRestoreOrder w.record.config requested with ⟨order, requested'⟩
  rw [htaken] at hconfigured
  have hend : Preserves ctx P (do
      Operation.update (configured requested' w.record.config)
      if requested'.enabled then ensureConnected) :=
    hconfigured.bind fun _ w₂ hw₂ => .ite (fun _ => hconnect w₂ hw₂) fun _ => .pure hw₂
  cases order with
  | none => exact hend w₁ hw₁
  | some id => exact (hrestore id).bind (fun _ => hend) w₁ hw₁

/-- A look at the schedule says something, or makes a backup. -/
theorem attend (hsay : ∀ status, Preserves ctx P (say status)) (hbackup : Preserves ctx P backup)
    (now : Instant) : Preserves ctx P (Service.attend now) := by
  refine .bind .record fun r => .bind .settings fun s => ?_
  cases Schedule.decide r s.windows now with
  | error defect => exact .guard (hsay _) fun _ => .throw _
  | ok decision =>
    cases decision with
    | run reason => exact .bind hbackup fun _ => .pure _
    | skip reason => exact .pure _

end Preserves

namespace PartsPreserve

theorem start (h : PartsPreserve ctx P) : Preserves ctx P start := fun w hw =>
  .bind (.bind (.record (.pure (.ite (fun _ => h.connect w hw) fun _ => .pure hw))))

theorem update (h : PartsPreserve ctx P) (requested : Config) : Preserves ctx P (update requested) :=
  .update h.stop h.restore h.connect (h.configure requested)

theorem attend (h : PartsPreserve ctx P) (now : Instant) : Preserves ctx P (attend now) :=
  .attend h.say h.backup now

theorem tick (h : PartsPreserve ctx P) : Preserves ctx P tick := by
  rw [tick_eq]
  refine h.now.bind fun now w hw => .bind (.record (.ite (fun _ => .bind (.outcome ?_))
    fun _ => h.attend now w hw))
  -- The schedule is looked at whether or not there is a session now.
  exact (h.connect w hw).mono (fun _ => h.attend now) fun _ => h.attend now

theorem perform (h : PartsPreserve ctx P) (a : Action) : Preserves ctx P (perform a) := by
  cases a with
  | update requested => exact h.update requested
  | start => exact h.start
  | stop => exact h.stop
  | get => exact h.get.bind fun _ => .pure _
  | tick => exact h.tick.bind fun _ => .pure _
  | backup => exact h.backup
  | restore id => exact h.restore id
  | apply r =>
    cases r with
    | update config => exact h.update config
    | restore id => exact fun w hw => .bind (.record (h.update _ w hw))
    | backup => exact h.start.bind fun _ => h.backup

end PartsPreserve

/-! ## The beginning -/

theorem openRecord_run (path : String) (m : Machine) : (openRecord path).run.run m =
    (((Record.load path).run.run m).1.map (·.setConnected false),
      ((Record.load path).run.run m).2) := by
  unfold openRecord
  rcases hload : (Record.load path).run.run m with ⟨f | r, m'⟩ <;> simp [hload] <;> rfl

/-- Whoever opened a record loaded it, and closed its session. -/
theorem openRecord_ok {path : String} {m m' : Machine} {r : Record}
    (hopen : (openRecord path).run.run m = (.ok r, m')) :
    ∃ r₀ : Record, (Record.load path).run.run m = (.ok r₀, m') ∧ r = r₀.setConnected false := by
  rw [openRecord_run] at hopen
  rcases hload : (Record.load path).run.run m with ⟨f | r₀, m₁⟩
  · rw [hload] at hopen
    cases hopen
  · rw [hload] at hopen
    cases hopen
    exact ⟨r₀, rfl, rfl⟩

/-- A record that was just opened knows of no session. -/
theorem openRecord_disconnected {path : String} {m m' : Machine} {r : Record}
    (hopen : (openRecord path).run.run m = (.ok r, m')) : r.status.connected = false := by
  obtain ⟨_, -, rfl⟩ := openRecord_ok hopen
  rfl

/-- Answers that are all as one would wish. -/
def agreeable : Answers Unit
  | .now, _, m => (⟨0, 0⟩, (), m)
  | .poolExists _, _, m | .shouldStart _, _, m | .engineAvailable, _, m => (true, (), m)
  | .datasetExists _, _, m => (false, (), m)
  | .mountpoint pool, _, m => (.ok ("/" ++ pool), (), m)
  | .listSnapshots, _, m => (.ok [], (), m)
  | .services, _, m | .applications, _, m => ([], (), m)
  | .createDataset .., _, m | .snapshot _, _, m | .destroy _, _, m | .connect .., _, m
  | .create .., _, m | .upload .., _, m | .expire _, _, m | .fetch .., _, m | .mirror .., _, m
  | .start _, _, m | .stop _, _, m => (.ok (), (), m)

end PoolKeeper.Service
