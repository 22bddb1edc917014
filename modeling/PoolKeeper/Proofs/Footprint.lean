import Mathlib.Logic.Relation
import PoolKeeper.Proofs.Ensures
import PoolKeeper.Service.Control

/-!
# `PoolKeeper/Proofs/Footprint.lean` — what the parts of the service touch

An operation works on the world in steps: it makes a call, it replaces the record, or it works on the
machine. `Footprint ctx C U op` says that all calls of an operation are in `C` and that every record it
puts in the place of another is related to it by `U`. What such steps keep is kept by the operation
(`Steps.keeps`), so one footprint serves every statement about what a part of the service leaves alone.

`NeverFails` says that an operation comes to an end without a fault, which many parts of the service do
because they pass faults on as values.
-/

set_option autoImplicit false

namespace PoolKeeper

open Operation

variable {σ : Type} {α β : Type} {ctx : Context σ} {w w' : World σ} {C : Call → Prop}
  {U : Record → Record → Prop}

/-- One step: a call in `C`, a change of the record in `U`, or work on the machine alone. -/
inductive Step (C : Call → Prop) (U : Record → Record → Prop) (w w' : World σ) : Prop where
  | called {c : Call} {reply : c.Reply} (hc : C c) (hr : w'.record = w.record)
      (he : w'.events = .called c reply :: w.events)
  | updated {saved : Bool} (hU : U w.record w'.record)
      (he : w'.events = .updated w'.record saved :: w.events)
  | worked (hr : w'.record = w.record) (he : w'.events = w.events)

def Steps (C : Call → Prop) (U : Record → Record → Prop) : World σ → World σ → Prop :=
  Relation.ReflTransGen (Step C U)

def Untouched (_ _ : Record) : Prop := False

namespace Steps

theorem refl : Steps C U w w := Relation.ReflTransGen.refl

theorem single (h : Step C U w w') : Steps C U w w' := Relation.ReflTransGen.single h

theorem trans {w'' : World σ} (h : Steps C U w w') (h' : Steps C U w' w'') : Steps C U w w'' :=
  Relation.ReflTransGen.trans h h'

/-- What every step keeps is kept. -/
theorem keeps {P : Record → List Event → Prop} (h : Steps C U w w')
    (hcall : ∀ c reply r es, C c → P r es → P r (.called c reply :: es))
    (hupdate : ∀ r r' saved es, U r r' → P r es → P r' (.updated r' saved :: es))
    (hw : P w.record w.events) : P w'.record w'.events := by
  induction h with
  | refl => exact hw
  | tail _ hstep ih =>
    cases hstep with
    | called hc hr he => exact hr ▸ he ▸ hcall _ _ _ _ hc ih
    | updated hU he => exact he ▸ hupdate _ _ _ _ hU ih
    | worked hr he => exact hr ▸ he ▸ ih

/-- What every change of the record keeps is kept of it. -/
theorem keeps_record {P : Record → Prop} (h : Steps C U w w') (hU : ∀ r r', U r r' → P r → P r')
    (hw : P w.record) : P w'.record :=
  h.keeps (P := fun r _ => P r) (fun _ _ _ _ _ hr => hr) (fun r r' _ _ => hU r r') hw

theorem record_eq (h : Steps C Untouched w w') : w'.record = w.record :=
  h.keeps_record (P := (· = w.record)) (fun _ _ hU => hU.elim) rfl

theorem mono {C' : Call → Prop} {U' : Record → Record → Prop} (h : Steps C U w w')
    (hC : ∀ c, C c → C' c) (hU : ∀ r r', U r r' → U' r r') : Steps C' U' w w' := by
  refine Relation.ReflTransGen.mono (fun _ _ hstep => ?_) w w' h
  cases hstep with
  | called hc hr he => exact .called (hC _ hc) hr he
  | updated hu he => exact .updated (hU _ _ hu) he
  | worked hr he => exact .worked hr he

end Steps

/-! ## Footprints -/

/-- Whatever comes of it, the operation makes only steps in `C` and `U`. -/
def Footprint (ctx : Context σ) (C : Call → Prop) (U : Record → Record → Prop)
    (op : Operation σ α) : Prop :=
  ∀ w, Ensures ctx op w (fun _ => Steps C U w) (fun _ => Steps C U w)

namespace Footprint

variable {op : Operation σ α} {next : α → Operation σ β}

theorem pure (a : α) : Footprint ctx C U (pure a) := fun _ => .pure .refl

theorem throw (f : Fault) : Footprint ctx C U (throw f : Operation σ α) := fun _ => .throw .refl

theorem bind (h : Footprint ctx C U op) (hnext : ∀ a, Footprint ctx C U (next a)) :
    Footprint ctx C U (op >>= next) := fun w =>
  .bind ((h w).mono (fun a w' h' => (hnext a w').mono (fun _ _ => h'.trans) fun _ _ => h'.trans)
    fun _ _ h' => h')

theorem ite {c : Prop} [Decidable c] {other : Operation σ α} (hthen : Footprint ctx C U op)
    (helse : Footprint ctx C U other) : Footprint ctx C U (if c then op else other) := fun w =>
  .ite (fun _ => hthen w) fun _ => helse w

/-- Something is done under a condition, and then the rest. -/
theorem guard {c : Prop} [Decidable c] {op : Operation σ Unit} {rest : Unit → Operation σ α}
    (hop : Footprint ctx C U op) (hrest : ∀ u, Footprint ctx C U (rest u)) :
    Footprint ctx C U (if c then op >>= rest else rest ()) := ite (bind hop hrest) (hrest ())

theorem settings : Footprint ctx C U Operation.settings := fun _ => .settings .refl

theorem record : Footprint ctx C U Operation.record := fun _ => .record .refl

theorem call (hout : ctx.host.Outside) {c : Call} (hc : C c) :
    Footprint ctx C U (Operation.call c) := fun _ =>
  .call hout fun _ _ hr he => .single (.called hc hr he)

theorem update {f : Record → Record} (hU : ∀ r, U r (f r)) :
    Footprint ctx C U (Operation.update f) := fun w =>
  .update fun _ _ hr he => .single (.updated (hr ▸ hU w.record) (hr ▸ he))

theorem onMachine (step : StateM Machine α) : Footprint ctx C U (Operation.onMachine step) :=
  fun _ => .onMachine fun _ _ hr he => .single (.worked hr he)

theorem onFiles (step : FileStep α) : Footprint ctx C U (Operation.onFiles step) := fun _ =>
  .onFiles (fun _ _ hr he => .single (.worked hr he)) fun _ _ hr he => .single (.worked hr he)

theorem outcome (h : Footprint ctx C U op) : Footprint ctx C U (Operation.outcome op) := fun w =>
  .outcome (h w)

theorem ofReply (reply : Except Fault α) : Footprint ctx C U (Operation.ofReply reply) := fun _ =>
  .ofReply (fun _ _ => .refl) fun _ _ => .refl

theorem forM {γ : Type} {step : γ → Operation σ Unit} (h : ∀ x, Footprint ctx C U (step x)) :
    ∀ xs : List γ, Footprint ctx C U (xs.forM step)
  | [] => pure ()
  | x :: xs => bind (h x) fun _ => forM h xs

theorem mono {C' : Call → Prop} {U' : Record → Record → Prop} (h : Footprint ctx C U op)
    (hC : ∀ c, C c → C' c) (hU : ∀ r r', U r r' → U' r r') : Footprint ctx C' U' op := fun w =>
  (h w).mono (fun _ _ h' => h'.mono hC hU) fun _ _ h' => h'.mono hC hU

end Footprint

/-! ## Operations that come to an end without a fault -/

/-- The operation comes to an end without a fault. -/
def NeverFails (ctx : Context σ) (op : Operation σ α) : Prop :=
  ∀ w, Ensures ctx op w (fun _ _ => True) (fun _ _ => False)

namespace NeverFails

variable {op : Operation σ α} {next : α → Operation σ β}

theorem pure (a : α) : NeverFails ctx (pure a) := fun _ => .pure trivial

theorem bind (h : NeverFails ctx op) (hnext : ∀ a, NeverFails ctx (next a)) :
    NeverFails ctx (op >>= next) := fun w =>
  .bind ((h w).mono (fun a w' _ => hnext a w') fun _ _ => False.elim)

theorem ite {c : Prop} [Decidable c] {other : Operation σ α} (hthen : NeverFails ctx op)
    (helse : NeverFails ctx other) : NeverFails ctx (if c then op else other) := fun w =>
  .ite (fun _ => hthen w) fun _ => helse w

theorem settings : NeverFails ctx Operation.settings := fun _ => .settings trivial

theorem call (c : Call) : NeverFails ctx (Operation.call c) := fun _ => by
  unfold Ensures
  trivial

theorem outcome (op : Operation σ α) : NeverFails ctx (Operation.outcome op) := fun w => by
  unfold Ensures
  rw [runIn_outcome]
  trivial

theorem forM {γ : Type} {step : γ → Operation σ Unit} (h : ∀ x, NeverFails ctx (step x)) :
    ∀ xs : List γ, NeverFails ctx (xs.forM step)
  | [] => pure ()
  | x :: xs => bind (h x) fun _ => forM h xs

/-- A run gives something. -/
theorem ok (h : NeverFails ctx op) (w : World σ) : ∃ a w', runIn ctx op w = (.ok a, w') := by
  have hrun := h w
  unfold Ensures at hrun
  rcases heq : runIn ctx op w with ⟨f | a, w'⟩
  · rw [heq] at hrun
    exact hrun.elim
  · exact ⟨a, w', rfl⟩

end NeverFails

/-- An operation that never fails does what its footprint says. -/
theorem Footprint.ensures {op : Operation σ α} {Q : α → World σ → Prop}
    {R : Fault → World σ → Prop} (h : Footprint ctx C U op) (hok : NeverFails ctx op)
    (hQ : ∀ a w', Steps C U w w' → Q a w') : Ensures ctx op w Q R :=
  ((h w).and (hok w)).mono (fun a w' h' => hQ a w' h'.1) fun _ _ h' => h'.2.elim

namespace Service

/-- Calls that are made only to know something. -/
def IsQuestion : Call → Prop
  | .now | .poolExists _ | .datasetExists _ | .mountpoint _ | .services | .applications
  | .shouldStart _ => True
  | _ => False

/-! ## Units -/

section Units

variable {act : Dependent → Operation σ Unit}

theorem ifManaged_footprint (hout : ctx.host.Outside) (hC : ∀ d, C (.shouldStart d))
    (hact : ∀ d, Footprint ctx C U (act d)) (d : Dependent) : Footprint ctx C U (ifManaged act d) :=
  .bind (.bind .settings fun _ => .ite (.pure false) (.call hout (hC d))) fun _ =>
    .ite (hact d) (.pure ())

theorem ifManaged_neverFails (hact : ∀ d, NeverFails ctx (act d)) (d : Dependent) :
    NeverFails ctx (ifManaged act d) :=
  .bind (.bind .settings fun _ => .ite (.pure false) (.call _)) fun _ => .ite (hact d) (.pure ())

/-- Questions and orders to stop. -/
def AsksOrStops (c : Call) : Prop := IsQuestion c ∨ ∃ d, c = .stop d

/-- Questions and orders to start. -/
def AsksOrStarts (c : Call) : Prop := IsQuestion c ∨ ∃ d, c = .start d

theorem stopUnit_footprint (hout : ctx.host.Outside) (d : Dependent) :
    Footprint ctx AsksOrStops Untouched (stopUnit d) :=
  .bind (.call hout (.inr ⟨d, rfl⟩)) fun _ => .pure ()

theorem startUnit_footprint (hout : ctx.host.Outside) (d : Dependent) :
    Footprint ctx AsksOrStarts Untouched (startUnit d) :=
  .bind (.call hout (.inr ⟨d, rfl⟩)) fun _ => .pure ()

theorem stopUnit_neverFails (d : Dependent) : NeverFails ctx (stopUnit d) :=
  .bind (.call _) fun _ => .pure ()

theorem startUnit_neverFails (d : Dependent) : NeverFails ctx (startUnit d) :=
  .bind (.call _) fun _ => .pure ()

theorem stopDependents_footprint (hout : ctx.host.Outside) :
    Footprint ctx AsksOrStops Untouched stopDependents :=
  .bind (.call hout (.inl (by trivial))) fun _ => .bind (.forM (stopUnit_footprint hout) _) fun _ =>
    .bind (.call hout (.inl (by trivial))) fun _ =>
      .forM (ifManaged_footprint hout (fun _ => .inl (by trivial)) (stopUnit_footprint hout)) _

theorem stopDependents_neverFails : NeverFails ctx stopDependents :=
  .bind (.call _) fun _ => .bind (.forM stopUnit_neverFails _) fun _ =>
    .bind (.call _) fun _ => .forM (ifManaged_neverFails stopUnit_neverFails) _

theorem startDependents_footprint (hout : ctx.host.Outside) :
    Footprint ctx AsksOrStarts Untouched startDependents :=
  .bind (.call hout (.inl (by trivial))) fun _ =>
    .bind (.forM (ifManaged_footprint hout (fun _ => .inl (by trivial)) (startUnit_footprint hout)) _)
      fun _ => .bind (.call hout (.inl (by trivial))) fun _ => .forM (startUnit_footprint hout) _

theorem startDependents_neverFails : NeverFails ctx startDependents :=
  .bind (.call _) fun _ => .bind (.forM (ifManaged_neverFails startUnit_neverFails) _) fun _ =>
    .bind (.call _) fun _ => .forM startUnit_neverFails _

end Units

/-! ## Snapshots of the pool -/

/-- Calls that look for a name or take a snapshot. -/
def IsSnapshotting : Call → Prop
  | .datasetExists _ | .snapshot _ => True
  | _ => False

theorem firstFree?_footprint (hout : ctx.host.Outside) (pool : String) :
    ∀ names, Footprint ctx IsSnapshotting Untouched (PoolSnapshot.firstFree? pool names)
  | [] => .pure none
  | _ :: names => .bind (.call hout (by trivial)) fun _ =>
      .ite (firstFree?_footprint hout pool names) (.pure _)

theorem take_footprint (hout : ctx.host.Outside) (pool : String) (purpose : Purpose) (t : Instant) :
    Footprint ctx IsSnapshotting Untouched (PoolSnapshot.take pool purpose t) := by
  refine .bind (firstFree?_footprint hout pool _) fun found => ?_
  cases found with
  | none => exact .throw _
  | some s =>
    exact .bind (.call hout (by trivial)) fun reply => .bind (.ofReply reply) fun _ => .pure s

theorem view_footprint (hout : ctx.host.Outside) (s : PoolSnapshot) :
    Footprint ctx (· = .mountpoint s.pool) Untouched s.view :=
  .bind (.call hout rfl) fun reply => .bind (.ofReply reply) fun _ =>
    .bind (.onMachine _) fun _ => .ite (.pure _) (.throw _)

/-! ## A session -/

/-- Calls that prepare the engine's cache or open a session. -/
def IsConnecting : Call → Prop
  | .datasetExists _ | .createDataset .. | .connect .. | .create .. => True
  | _ => False

theorem prepareCache_footprint (hout : ctx.host.Outside) :
    Footprint ctx IsConnecting Untouched prepareCache :=
  .bind .settings fun _ => .bind (.call hout (by trivial)) fun _ =>
    .ite (.pure _) (.call hout (by trivial))

theorem prepareCache_neverFails : NeverFails ctx prepareCache :=
  .bind .settings fun _ => .bind (.call _) fun _ => .ite (.pure _) (.call _)

theorem connectOrCreate_footprint (hout : ctx.host.Outside) (store : Store) (password : String) :
    Footprint ctx IsConnecting U (connectOrCreate store password) := by
  refine .bind (.call hout (by trivial)) fun first => ?_
  cases first with
  | ok _ => exact .pure _
  | error f =>
    refine .bind (.call hout (by trivial)) fun created => ?_
    cases created with
    | ok _ => exact .bind (.call hout (by trivial)) fun _ => .pure _
    | error f => exact .pure _

/-- The records differ at most in whether there is a session and in what is said. -/
def Reconnects (r r' : Record) : Prop :=
  r' = { r with status := { r.status with
    connected := r'.status.connected, lastStatus := r'.status.lastStatus } }

theorem disconnected_footprint {α : Type} (what : String) (f : Fault) :
    Footprint ctx C Reconnects (disconnected what f : Operation σ α) :=
  .bind (.update fun _ => rfl) fun _ => .throw f

theorem ensureConnected_footprint (hout : ctx.host.Outside) :
    Footprint ctx IsConnecting Reconnects ensureConnected := by
  refine .bind .record fun r => ?_
  cases r.config.validate with
  | error defect => exact disconnected_footprint _ _
  | ok store =>
    refine .ite (.pure ()) (.bind ((prepareCache_footprint hout).mono (fun _ h => h)
      fun _ _ h => h.elim) fun made => ?_)
    cases made with
    | error f => exact disconnected_footprint _ _
    | ok _ =>
      refine .bind (connectOrCreate_footprint hout store _) fun opened => ?_
      cases opened with
      | error f => exact disconnected_footprint _ _
      | ok _ => exact .update fun _ => rfl

/-! ## A cycle's account of itself -/

/-- The records differ at most in who holds the slot, how far it has come and what is said. -/
def Progresses (r r' : Record) : Prop :=
  r' = { r with status := { r.status with
    inProgress := r'.status.inProgress, progress := r'.status.progress,
    lastStatus := r'.status.lastStatus } }

theorem claim_footprint (status : String) : Footprint ctx C Progresses (claim status) := by
  refine .bind .record fun r => .bind (.update fun r => ?_) fun _ => .pure _
  unfold Progresses
  split <;> rfl

/-! ## A backup -/

theorem refuseBackup_footprint {α : Type} (status detail : String) :
    Footprint ctx C Progresses (refuseBackup status detail : Operation σ α) :=
  .bind (.update fun _ => rfl) fun _ => .throw _

theorem admitBackup_footprint (hout : ctx.host.Outside) (r : Record) (now : Instant) :
    Footprint ctx (fun c => ∃ pool, c = .poolExists pool) Progresses (admitBackup r now) := by
  refine .bind .settings fun s => .guard (refuseBackup_footprint _ _) fun _ =>
    .guard (refuseBackup_footprint _ _) fun _ => ?_
  cases Window.active? s.windows now with
  | none => exact refuseBackup_footprint _ _
  | some window =>
    exact .bind (.call hout ⟨_, rfl⟩) fun _ => .ite (.pure window) (refuseBackup_footprint _ _)

def IsUploading : Call → Prop
  | .mountpoint _ | .upload .. => True
  | _ => False

theorem upload_footprint (hout : ctx.host.Outside) (s : PoolSnapshot) (now : Instant) :
    Footprint ctx IsUploading Progresses (upload s now) := by
  refine .bind (.outcome ((view_footprint hout s).mono ?_ fun _ _ h => h.elim)) fun path => ?_
  · rintro _ rfl
    trivial
  cases path with
  | error f => exact .pure _
  | ok path =>
    exact .bind (.update fun _ => rfl) fun _ => .bind (.call hout (by trivial)) fun _ => .pure _

theorem applyRetention_footprint (hout : ctx.host.Outside) (policy : Retention) :
    Footprint ctx (· = .expire policy) Untouched (applyRetention policy) :=
  .ite (.pure false) (.bind (.call hout rfl) fun reply => .bind (.ofReply reply) fun _ => .pure true)

/-! ## A restore -/

def IsRestoring : Call → Prop
  | .snapshot _ | .fetch .. | .mirror .. | .stop _ | .start _ => True
  | c => IsQuestion c

theorem IsSnapshotting.isRestoring {c : Call} (h : IsSnapshotting c) : IsRestoring c := by
  cases c <;> first | exact h.elim | trivial

theorem IsQuestion.isRestoring {c : Call} (h : IsQuestion c) : IsRestoring c := by
  cases c <;> first | exact h | trivial

theorem failKeeping_footprint {α : Type} (safety : PoolSnapshot) (what : String)
    (f result : Fault) : Footprint ctx C Progresses (failKeeping safety what f result : Operation σ α) :=
  .bind (.update fun _ => rfl) fun _ => .throw result

theorem fetchAndApply_footprint (hout : ctx.host.Outside) (id : String) (safety : PoolSnapshot)
    (mountpoint : String) :
    Footprint ctx IsRestoring Progresses (fetchAndApply id safety mountpoint) := by
  refine .bind (.update fun _ => rfl) fun _ => .bind (.outcome (.onFiles _)) fun made => ?_
  cases made with
  | error f => exact failKeeping_footprint _ _ _ _
  | ok _ =>
    refine .bind (.update fun _ => rfl) fun _ => .bind (.call hout (by trivial)) fun fetched => ?_
    cases fetched with
    | error f => exact .bind (.update fun _ => rfl) fun _ => .bind (.onMachine _) fun _ => .throw _
    | ok _ =>
      refine .bind (.update fun _ => rfl) fun _ => .bind (.call hout (by trivial)) fun applied => ?_
      refine .bind (.onMachine _) fun _ => ?_
      cases applied with
      | error f => exact .bind (.update fun _ => rfl) fun _ => .throw f
      | ok _ =>
        refine .bind (.update fun _ => rfl) fun _ => .bind ?_ fun _ => .update fun _ => rfl
        refine (startDependents_footprint hout).mono ?_ fun _ _ h => h.elim
        rintro c (h | ⟨d, rfl⟩)
        · exact h.isRestoring
        · trivial

theorem restoreCycle_footprint (hout : ctx.host.Outside) (id : String) :
    Footprint ctx IsRestoring Progresses (restoreCycle id) := by
  refine .bind .settings fun _ => .bind ((stopDependents_footprint hout).mono ?_ fun _ _ h => h.elim)
    fun _ => .bind (.update fun _ => rfl) fun _ => .bind (.call hout (by trivial)) fun now => ?_
  · rintro c (h | ⟨d, rfl⟩)
    · exact h.isRestoring
    · trivial
  refine .bind (.outcome ((take_footprint hout _ _ now).mono (fun _ h => h.isRestoring)
    fun _ _ h => h.elim)) fun taken => ?_
  cases taken with
  | error f => exact .bind (.update fun _ => rfl) fun _ => .throw _
  | ok safety =>
    refine .bind (.update fun _ => rfl) fun _ => .bind (.call hout (by trivial)) fun mounted => ?_
    cases mounted with
    | error f => exact failKeeping_footprint _ _ _ _
    | ok mountpoint => exact fetchAndApply_footprint hout id safety mountpoint

theorem refuseRestore_footprint {α : Type} (detail : String) :
    Footprint ctx C Progresses (refuseRestore detail : Operation σ α) :=
  .bind (.update fun _ => rfl) fun _ => .throw _

theorem admitRestore_footprint (hout : ctx.host.Outside) (id : String) :
    Footprint ctx IsQuestion Progresses (admitRestore id) := by
  refine .bind .record fun r => .bind .settings fun s => ?_
  have hpool (there : Bool) : Footprint ctx IsQuestion Progresses
      (if !there then refuseRestore ("pool " ++ s.pool ++ " not found") else pure ()) :=
    .ite (refuseRestore_footprint _) (.pure ())
  exact .guard (.throw _) fun _ => .guard (.throw _) fun _ =>
    .guard (refuseRestore_footprint _) fun _ => .bind (.call hout (by trivial)) hpool

theorem tryRestore_footprint (hout : ctx.host.Outside) (id : String) :
    Footprint ctx IsRestoring Progresses (tryRestore id) :=
  .bind ((admitRestore_footprint hout id).mono (fun _ h => h.isRestoring) fun _ _ h => h) fun _ =>
    .bind (claim_footprint _) fun _ => .guard (.throw _) fun _ => restoreCycle_footprint hout id

/-- What a restore does to the record: it keeps account of itself, and clears the order. -/
def Restores (r r' : Record) : Prop :=
  Progresses r r' ∨ r' = { r with config := r.config.clearTrigger }

theorem restore_footprint (hout : ctx.host.Outside) (id : String) :
    Footprint ctx IsRestoring Restores (restore id) :=
  .bind (.outcome ((tryRestore_footprint hout _).mono (fun _ h => h) fun _ _ h => .inl h))
    fun result => .bind (.update fun _ => .inr rfl) fun _ => .ofReply result

end Service

end PoolKeeper
