import PoolKeeper.Proofs.StepByStep

/-!
# `PoolKeeper/Proofs/Staging.lean` — what every step of a restore keeps

A restore works on the machine itself. It takes a staging directory away, which brings nothing into
anybody's path, and before that it makes one, which can: a path that led nowhere may lead through the new
directory to something else. So what is known of a file may be lost there, and what is left is `Q`. It
does not stay lost, because an update comes next in any case and saves the record.

What keeps `P` in this way is kept by all that can be asked of the service (`StagingPreserves.perform`).
-/

set_option autoImplicit false

namespace PoolKeeper.Service

open Operation

variable {σ : Type} {ctx : Context σ} {P Q : World σ → Prop}

/-- Calls, updates, looking for a file and taking a staging directory away keep `P`. Where one was made
`Q` is left of it, and the next update brings `P` back. -/
structure StagingPreserves (ctx : Context σ) (P Q : World σ → Prop) : Prop where
  steps : StepsPreserve ctx (fun _ => True) P
  stage {w : World σ} (hw : P w) (path : String) :
    Q { w with machine := ((makeStaging path).run.run w.machine).2 }
  resume {w : World σ} (hw : Q w) (f : Record → Record) :
    P (w.setRecord ctx.settings.statePath (f w.record))
  drop {w : World σ} (hw : P w) (path : String) :
    P { w with machine := ((dropStaging path).run w.machine).2 }

namespace StagingPreserves

variable (h : StagingPreserves ctx P Q)

include h

/-! ## A restore -/

/-- Whatever is done after a staging directory was made begins with an update. -/
theorem afterStaging {α : Type} (path : String) {next : Except Fault Unit → Operation σ α}
    (hnext : ∀ made w, Q w → Ensures ctx (next made) w (fun _ => P) (fun _ => P)) :
    Preserves ctx P (Operation.outcome (onFiles (makeStaging path)) >>= next) := by
  intro w hw
  have hstaged := h.stage hw path
  refine .bind (.outcome (.bind (.onMachine_exact ?_)))
  generalize (makeStaging path).run.run w.machine = made at hstaged ⊢
  rcases made with ⟨f | a, m⟩
  · exact .throw (hnext _ _ hstaged)
  · exact .pure (hnext _ _ hstaged)

theorem dropStaging (path : String) : Preserves ctx P (onMachine (dropStaging path)) := fun _ hw =>
  .onMachine_exact (h.drop hw path)

theorem resumeWith {α : Type} {f : Record → Record} {next : Unit → Operation σ α}
    (hnext : Preserves ctx P (next ())) (w : World σ) (hw : Q w) :
    Ensures ctx (Operation.update f >>= next) w (fun _ => P) (fun _ => P) :=
  .bind (.update_exact (hnext _ (h.resume hw f)))

theorem fetchAndApply (id : String) (safety : PoolSnapshot) (mountpoint : String) :
    Preserves ctx P (fetchAndApply id safety mountpoint) := by
  refine .bind (h.steps.update _) fun _ => h.afterStaging _ fun made => ?_
  cases made with
  | error f => exact h.resumeWith (.throw f)
  | ok _ =>
    refine h.resumeWith (.bind (h.steps.call trivial) fun fetched => ?_)
    cases fetched with
    | error f => exact .bind (h.steps.update _) fun _ => .bind (h.dropStaging _) fun _ => .throw _
    | ok _ =>
      refine .bind (h.steps.update _) fun _ => .bind (h.steps.call trivial) fun applied =>
        .bind (h.dropStaging _) fun _ => ?_
      cases applied with
      | error f => exact .bind (h.steps.update _) fun _ => .throw f
      | ok _ =>
        exact .bind (h.steps.update _) fun _ => .bind h.steps.silently.startDependents fun _ => h.steps.update _

theorem restoreCycle (id : String) : Preserves ctx P (restoreCycle id) := by
  refine .bind .settings fun s => .bind h.steps.silently.stopDependents fun _ => .bind (h.steps.update _) fun _ =>
    .bind (h.steps.call trivial) fun now => .bind (h.steps.silently.take s.pool .safety now).outcome fun taken => ?_
  cases taken with
  | error f => exact .bind (h.steps.update _) fun _ => .throw _
  | ok safety =>
    refine .bind (h.steps.update _) fun _ => .bind (h.steps.call trivial) fun mounted => ?_
    cases mounted with
    | error f => exact .bind (h.steps.update _) fun _ => .throw _
    | ok mountpoint => exact h.fetchAndApply id safety mountpoint

theorem restore (id : String) : Preserves ctx P (restore id) := by
  have htry : Preserves ctx P (tryRestore (Text.trim id)) :=
    .bind (h.steps.silently.admitRestore (fun _ _ => trivial) _) fun _ => .bind (h.steps.claim _) fun _ =>
      .guard (.throw _) fun _ => h.restoreCycle _
  exact .bind htry.outcome fun result => .bind (h.steps.update _) fun _ => .ofReply result

/-! ## Everything else -/

theorem parts : PartsPreserve ctx P := h.steps.parts h.restore

theorem perform (a : Action) : Preserves ctx P (perform a) := h.parts.perform a

end StagingPreserves

end PoolKeeper.Service
