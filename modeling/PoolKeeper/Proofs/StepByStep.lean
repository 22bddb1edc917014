import PoolKeeper.Proofs.Account
import PoolKeeper.Proofs.Life

/-!
# `PoolKeeper/Proofs/StepByStep.lean` — what every step keeps

What a step keeps is kept by whatever is made of such steps. A footprint says so for hosts that answer
from outside, and for statements about the record and the journal. The structures here ask less of the
host and more of the steps: every call in `C` keeps `P`, and so does every update. So they serve
statements about the machine, to which an update saves the record, and statements about a host that
interferes with the record while it answers.

Most of the service leaves the slot to whoever has it, and for that it is enough if such updates keep `P`
(`SilentStepsPreserve`). A backup takes the slot and gives it back, so there all updates have to keep it
(`StepsPreserve`). A restore works on the machine besides, and is not among the operations here; its
admission is.
-/

set_option autoImplicit false

namespace PoolKeeper.Service

open Operation

variable {σ : Type} {ctx : Context σ}

/-- The calls in `C` and all updates keep `P`, and so does looking for a file. -/
structure StepsPreserve (ctx : Context σ) (C : Call → Prop) (P : World σ → Prop) : Prop where
  call {c : Call} (hc : C c) : Preserves ctx P (Operation.call c)
  update (f : Record → Record) : Preserves ctx P (Operation.update f)
  isThere (path : String) : Preserves ctx P (onMachine (Files.isThere path))

/-- The calls in `C` and the updates that leave the slot alone keep `P`, and so does looking for a file. -/
structure SilentStepsPreserve (ctx : Context σ) (C : Call → Prop) (P : World σ → Prop) : Prop where
  call {c : Call} (hc : C c) : Preserves ctx P (Operation.call c)
  update {f : Record → Record} (hf : ∀ r : Record, r.SameSlot (f r)) :
    Preserves ctx P (Operation.update f)
  isThere (path : String) : Preserves ctx P (onMachine (Files.isThere path))

/-- To look for a file changes nothing, so it keeps whatever holds. -/
theorem isThere_preserves (P : World σ → Prop) (path : String) :
    Preserves ctx P (onMachine (Files.isThere path)) := by
  intro w hw
  refine .onMachine_exact ?_
  rw [Files.isThere_machine]
  exact hw

variable {C : Call → Prop} {P : World σ → Prop}

namespace SilentStepsPreserve

/-! ## The session -/

section Session

theorem disconnected {α : Type} (h : SilentStepsPreserve ctx C P) (what : String) (f : Fault) :
    Preserves ctx P (disconnected what f : Operation σ α) :=
  .bind (h.update fun r => .refl r) fun _ => .throw f

theorem prepareCache (h : SilentStepsPreserve ctx C P) (hC : ∀ c, IsConnecting c → C c) :
    Preserves ctx P prepareCache :=
  .bind .settings fun _ => .bind (h.call (hC _ (by trivial))) fun _ =>
    .ite (.pure _) (h.call (hC _ (by trivial)))

theorem connectOrCreate (h : SilentStepsPreserve ctx C P) (hC : ∀ c, IsConnecting c → C c) (store : Store)
    (password : String) : Preserves ctx P (connectOrCreate store password) := by
  refine .bind (h.call (hC _ (by trivial))) fun first => ?_
  cases first with
  | ok _ => exact .pure _
  | error f =>
    refine .bind (h.call (hC _ (by trivial))) fun created => ?_
    cases created with
    | ok _ => exact .bind (h.call (hC _ (by trivial))) fun _ => .pure _
    | error f => exact .pure _

theorem ensureConnected (h : SilentStepsPreserve ctx C P) (hC : ∀ c, IsConnecting c → C c) :
    Preserves ctx P ensureConnected := by
  refine .bind .record fun r => ?_
  cases r.config.validate with
  | error defect => exact h.disconnected _ _
  | ok store =>
    refine .ite (.pure ()) (.bind (h.prepareCache hC) fun made => ?_)
    cases made with
    | error f => exact h.disconnected _ _
    | ok _ =>
      refine .bind (h.connectOrCreate hC store _) fun opened => ?_
      cases opened with
      | error f => exact h.disconnected _ _
      | ok _ => exact h.update fun r => .refl r

theorem start (h : SilentStepsPreserve ctx C P) (hC : ∀ c, IsConnecting c → C c) : Preserves ctx P start :=
  .bind (.bind .record fun _ => .pure _) fun _ => .ite (h.ensureConnected hC) (.pure ())

theorem get (h : SilentStepsPreserve ctx C P) (hC : C .listSnapshots) : Preserves ctx P get := by
  refine .bind .record fun r => .ite (.pure r) (.bind (h.call hC) fun listed => ?_)
  cases listed with
  | error f => exact .pure r
  | ok snapshots => exact .bind (h.update fun r => .refl r) fun _ => .record

end Session

/-! ## Admission -/

section Admission

theorem refuseBackup {α : Type} (h : SilentStepsPreserve ctx C P) (status detail : String) :
    Preserves ctx P (refuseBackup status detail : Operation σ α) :=
  .bind (h.update fun r => .refl r) fun _ => .throw _

theorem admitBackup (h : SilentStepsPreserve ctx C P) (hC : ∀ c, IsQuestion c → C c) (r : Record)
    (now : Instant) : Preserves ctx P (admitBackup r now) := by
  refine .bind .settings fun s => .guard (h.refuseBackup _ _) fun _ =>
    .guard (h.refuseBackup _ _) fun _ => ?_
  cases Window.active? s.windows now with
  | none => exact h.refuseBackup _ _
  | some window =>
    exact .bind (h.call (hC _ (by trivial))) fun _ => .ite (.pure window) (h.refuseBackup _ _)

theorem refuseRestore {α : Type} (h : SilentStepsPreserve ctx C P) (detail : String) :
    Preserves ctx P (refuseRestore detail : Operation σ α) :=
  .bind (h.update fun r => .refl r) fun _ => .throw _

theorem admitRestore (h : SilentStepsPreserve ctx C P) (hC : ∀ c, IsQuestion c → C c) (id : String) :
    Preserves ctx P (admitRestore id) := by
  refine .bind .record fun r => .bind .settings fun s => ?_
  have hpool (there : Bool) : Preserves ctx P (if !there then
      Service.refuseRestore ("pool " ++ s.pool ++ " not found") else Pure.pure ()) :=
    .ite (h.refuseRestore _) (.pure ())
  exact .guard (.throw _) fun _ => .guard (.throw _) fun _ =>
    .guard (h.refuseRestore _) fun _ => .bind (h.call (hC _ (by trivial))) hpool

theorem judge (h : SilentStepsPreserve ctx C P) (now : Instant) : Preserves ctx P (judge now) := by
  refine .bind .record fun r => .bind .settings fun s => ?_
  cases Schedule.decide r s.windows now with
  | error defect => exact .guard (h.update fun r => .refl r) fun _ => .throw _
  | ok decision => exact .pure decision

theorem look (h : SilentStepsPreserve ctx C P) (hnow : C .now) (hC : ∀ c, IsConnecting c → C c) :
    Preserves ctx P look :=
  .bind (h.call hnow) fun now => .bind .record fun _ =>
    .ite (.bind (h.ensureConnected hC).outcome fun _ => h.judge now) (h.judge now)

end Admission

/-! ## Parts of the cycles -/

section Cycles

variable (h : SilentStepsPreserve ctx (fun _ => True) P)

include h

theorem firstFree? (pool : String) :
    ∀ names, Preserves ctx P (PoolSnapshot.firstFree? pool names)
  | [] => .pure none
  | _ :: names => .bind (h.call trivial) fun _ => .ite (firstFree? pool names) (.pure _)

theorem take (pool : String) (purpose : Purpose) (t : Instant) :
    Preserves ctx P (PoolSnapshot.take pool purpose t) := by
  refine .bind (h.firstFree? pool _) fun found => ?_
  cases found with
  | none => exact .throw _
  | some s => exact .bind (h.call trivial) fun reply => .bind (.ofReply reply) fun _ => .pure s

theorem view (s : PoolSnapshot) : Preserves ctx P s.view :=
  .bind (h.call trivial) fun reply => .bind (.ofReply reply) fun _ =>
    .bind (h.isThere _) fun _ => .ite (.pure _) (.throw _)

theorem applyRetention (policy : Retention) : Preserves ctx P (applyRetention policy) :=
  .ite (.pure false) (.bind (h.call trivial) fun reply => .bind (.ofReply reply) fun _ => .pure true)

theorem ifManaged {act : Dependent → Operation σ Unit} (hact : ∀ d, Preserves ctx P (act d))
    (d : Dependent) : Preserves ctx P (ifManaged act d) :=
  .bind (.bind .settings fun _ => .ite (.pure false) (h.call trivial)) fun _ => .ite (hact d) (.pure ())

theorem stopUnit (d : Dependent) : Preserves ctx P (stopUnit d) :=
  .bind (h.call trivial) fun _ => .pure ()

theorem startUnit (d : Dependent) : Preserves ctx P (startUnit d) :=
  .bind (h.call trivial) fun _ => .pure ()

theorem stopDependents : Preserves ctx P stopDependents :=
  .bind (h.call trivial) fun _ => .bind (.forM h.stopUnit _) fun _ =>
    .bind (h.call trivial) fun _ => .forM (h.ifManaged h.stopUnit) _

theorem startDependents : Preserves ctx P startDependents :=
  .bind (h.call trivial) fun _ => .bind (.forM (h.ifManaged h.startUnit) _) fun _ =>
    .bind (h.call trivial) fun _ => .forM h.startUnit _

end Cycles

end SilentStepsPreserve

/-! ## All updates -/

namespace StepsPreserve

theorem silently (h : StepsPreserve ctx C P) : SilentStepsPreserve ctx C P :=
  ⟨h.call, fun _ => h.update _, h.isThere⟩

theorem stop (h : StepsPreserve ctx C P) : Preserves ctx P stop := h.update _

theorem claim (h : StepsPreserve ctx C P) (status : String) : Preserves ctx P (claim status) :=
  .bind .record fun _ => .bind (h.update _) fun _ => .pure _

section Backup

variable (h : StepsPreserve ctx (fun _ => True) P)

include h

theorem upload (s : PoolSnapshot) (now : Instant) : Preserves ctx P (upload s now) := by
  refine .bind (h.silently.view s).outcome fun path => ?_
  cases path with
  | error f => exact .pure _
  | ok path => exact .bind (h.update _) fun _ => .bind (h.call trivial) fun _ => .pure _

theorem backupCycle (retention : Retention) (window : Option String) (now : Instant) :
    Preserves ctx P (backupCycle retention window now) := by
  refine .bind .settings fun s => .bind (h.silently.take _ _ now).outcome fun taken => ?_
  cases taken with
  | error f => exact .bind (h.update _) fun _ => .throw f
  | ok snapshot =>
    refine .bind (h.upload snapshot now) fun uploaded => ?_
    rcases uploaded with ⟨status, f⟩ | ⟨⟩
    · exact .bind (h.call trivial) fun _ => .bind (h.update _) fun _ =>
        .guard (h.update _) fun _ => .throw f
    · exact .bind (h.update _) fun _ => .bind (h.silently.applyRetention retention).outcome fun _ =>
        .bind (h.update _) fun _ => .bind (h.call trivial) fun _ => .bind (h.call trivial) fun _ =>
          h.update _

theorem backup : Preserves ctx P backup :=
  .bind (h.call trivial) fun now => .bind .record fun r =>
    .bind (h.silently.admitBackup (fun _ _ => trivial) r now) fun _ => .bind (h.claim _) fun _ =>
      .guard (.throw _) fun _ => h.backupCycle _ _ now

/-- So all that can be asked keeps `P` if a restore does. -/
theorem parts (hrestore : ∀ id, Preserves ctx P (restore id)) : PartsPreserve ctx P where
  now := h.call trivial
  say _ := h.update _
  connect := h.silently.ensureConnected fun _ _ => trivial
  get := h.silently.get trivial
  stop := h.stop
  backup := h.backup
  restore := hrestore
  configure _ _ _ := h.update _

end Backup

end StepsPreserve

end PoolKeeper.Service
