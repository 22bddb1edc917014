import PoolKeeper.Proofs.Life

/-!
# `PoolKeeper/Proofs/NoRestore.lean` — what is no restore

A restore has calls of its own: nobody else stops and starts units, fetches a snapshot or mirrors a
directory (`OfRestore`). It also takes the slot under words of its own. Everything else that the service
does makes none of these calls, leaves the configuration as it is, and takes a free slot for nothing but a
backup (`Continues`).
-/

set_option autoImplicit false

namespace PoolKeeper.Service

open Operation

variable {σ : Type} {ctx : Context σ} {r r' : Record}

/-- Calls that nothing but a restore makes. -/
def OfRestore : Call → Prop
  | .services | .applications | .shouldStart _ | .stop _ | .start _ | .fetch .. | .mirror .. => True
  | _ => False

/-- Calls that something else than a restore makes as well. -/
abbrev NotOfRestore (c : Call) : Prop := ¬ OfRestore c

/-- If the slot was free and is taken now, a backup has it. -/
def TakenForBackup (r r' : Record) : Prop :=
  r.status.inProgress = false → r'.status.inProgress = true → r'.status.lastStatus = "Creating ZFS snapshot"

/-- The configuration is the same, and a free slot was taken for a backup at most. -/
structure Continues (r r' : Record) : Prop where
  config : r'.config = r.config
  slot : TakenForBackup r r'

theorem TakenForBackup.of_eq (h : r'.status.inProgress = r.status.inProgress) : TakenForBackup r r' :=
  fun hfree htaken => absurd (hfree.symm.trans (h.symm.trans htaken)) Bool.false_ne_true

theorem Continues.of_eq (hconfig : r'.config = r.config)
    (hslot : r'.status.inProgress = r.status.inProgress) : Continues r r' :=
  ⟨hconfig, .of_eq hslot⟩

theorem Continues.of_free (hconfig : r'.config = r.config) (hfree : r'.status.inProgress = false) :
    Continues r r' :=
  ⟨hconfig, fun _ htaken => absurd (hfree.symm.trans htaken) Bool.false_ne_true⟩

theorem Reconnects.continues (h : Reconnects r r') : Continues r r' := by
  rw [h]
  exact .of_eq rfl rfl

theorem IsConnecting.notOfRestore {c : Call} (h : IsConnecting c) : NotOfRestore c := by
  cases c <;> first | exact h.elim | exact id

/-! ## The session -/

theorem ensureConnected_continues (hout : ctx.host.Outside) :
    Footprint ctx NotOfRestore Continues ensureConnected :=
  (ensureConnected_footprint hout).mono (fun _ h => h.notOfRestore) fun _ _ h => h.continues

theorem start_continues (hout : ctx.host.Outside) : Footprint ctx NotOfRestore Continues start :=
  .bind (.bind .record fun _ => .pure _) fun _ => .ite (ensureConnected_continues hout) (.pure ())

theorem stop_continues : Footprint ctx NotOfRestore Continues stop := by
  refine .update fun r => ?_
  dsimp only
  split
  · exact .of_eq rfl rfl
  split <;> exact .of_eq rfl rfl

theorem get_continues (hout : ctx.host.Outside) : Footprint ctx NotOfRestore Continues get := by
  refine .bind .record fun r => .ite (.pure r) (.bind (.call hout id) fun listed => ?_)
  cases listed with
  | error f => exact .pure r
  | ok snapshots => exact .bind (.update fun _ => .of_eq rfl rfl) fun _ => .record

/-! ## A backup -/

theorem say_continues (status : String) : Footprint ctx NotOfRestore Continues (say status) :=
  .update fun _ => .of_eq rfl rfl

theorem advance_continues (progress : UInt8) (status : String) :
    Footprint ctx NotOfRestore Continues (advance progress status) :=
  .update fun _ => .of_eq rfl rfl

theorem failCycle_continues (status : String) :
    Footprint ctx NotOfRestore Continues (failCycle status) :=
  .update fun _ => .of_free rfl rfl

theorem refuseBackup_continues {α : Type} (status detail : String) :
    Footprint ctx NotOfRestore Continues (refuseBackup status detail : Operation σ α) :=
  .bind (say_continues _) fun _ => .throw _

theorem admitBackup_continues (hout : ctx.host.Outside) (r : Record) (now : Instant) :
    Footprint ctx NotOfRestore Continues (admitBackup r now) := by
  refine .bind .settings fun s => .guard (refuseBackup_continues _ _) fun _ =>
    .guard (refuseBackup_continues _ _) fun _ => ?_
  cases Window.active? s.windows now with
  | none => exact refuseBackup_continues _ _
  | some window =>
    exact .bind (.call hout id) fun _ => .ite (.pure window) (refuseBackup_continues _ _)

theorem claim_continues : Footprint ctx NotOfRestore Continues (claim "Creating ZFS snapshot") := by
  refine .bind .record fun r => .bind (.update fun r => ?_) fun _ => .pure _
  split
  · exact .of_eq rfl rfl
  · exact ⟨rfl, fun _ _ => rfl⟩

theorem upload_continues (hout : ctx.host.Outside) (s : PoolSnapshot) (now : Instant) :
    Footprint ctx NotOfRestore Continues (upload s now) := by
  refine .bind (.outcome ((view_footprint hout s).mono ?_ fun _ _ h => h.elim)) fun path => ?_
  · rintro _ rfl
    exact id
  cases path with
  | error f => exact .pure _
  | ok path => exact .bind (advance_continues _ _) fun _ => .bind (.call hout id) fun _ => .pure _

theorem backupCycle_continues (hout : ctx.host.Outside) (retention : Retention)
    (window : Option String) (now : Instant) :
    Footprint ctx NotOfRestore Continues (backupCycle retention window now) := by
  have htake (pool : String) : Footprint ctx NotOfRestore Continues
      (PoolSnapshot.take pool .backup now) :=
    (take_footprint hout _ _ now).mono (fun c h => by cases c <;> first | exact h.elim | exact id)
      fun _ _ h => h.elim
  have hretention : Footprint ctx NotOfRestore Continues (applyRetention retention) :=
    (applyRetention_footprint hout retention).mono (by rintro _ rfl; exact id) fun _ _ h => h.elim
  refine .bind .settings fun s => .bind (htake _).outcome fun taken => ?_
  cases taken with
  | error f => exact .bind (failCycle_continues _) fun _ => .throw f
  | ok snapshot =>
    refine .bind (upload_continues hout snapshot now) fun uploaded => ?_
    rcases uploaded with ⟨status, f⟩ | ⟨⟩
    · exact .bind (.call hout id) fun _ => .bind (failCycle_continues _) fun _ =>
        .guard (.update fun _ => .of_eq rfl rfl) fun _ => .throw f
    · exact .bind (advance_continues _ _) fun _ => .bind hretention.outcome fun _ =>
        .bind (advance_continues _ _) fun _ => .bind (.call hout id) fun _ =>
          .bind (.call hout id) fun _ => .update fun _ => .of_free rfl rfl

theorem backup_continues (hout : ctx.host.Outside) : Footprint ctx NotOfRestore Continues backup :=
  .bind (.call hout id) fun now => .bind .record fun r =>
    .bind (admitBackup_continues hout r now) fun _ => .bind claim_continues fun _ =>
      .guard (.throw _) fun _ => backupCycle_continues hout _ _ now

/-! ## The schedule -/

theorem judge_continues (now : Instant) : Footprint ctx NotOfRestore Continues (judge now) := by
  refine .bind .record fun r => .bind .settings fun s => ?_
  cases Schedule.decide r s.windows now with
  | error defect => exact .guard (say_continues _) fun _ => .throw _
  | ok decision => exact .pure decision

theorem tick_continues (hout : ctx.host.Outside) : Footprint ctx NotOfRestore Continues tick := by
  rw [tick_eq_look]
  refine .bind (.bind (.call hout id) fun now => .bind .record fun _ =>
    .ite (.bind (ensureConnected_continues hout).outcome fun _ => judge_continues now)
      (judge_continues now)) fun decision => ?_
  cases decision with
  | run reason => exact .bind (backup_continues hout) fun _ => .pure _
  | skip reason => exact .pure _

end PoolKeeper.Service
