import PoolKeeper.Proofs.Lifetime
import PoolKeeper.Proofs.Staging

/-!
# `PoolKeeper/Proofs/Provenance.lean` — where records come from

A process has a record from one of two places: it was there when the process started, or the process put
it in place itself. The same is true of what a reader finds in the state file, because a save leaves
nothing else to be found there. So whatever is true of the first record and of every update is true of all
records that are ever held or read, in the middle of an action as well as after it (`moments_traced`).

Nothing is asked here of what an update makes of the record.
-/

set_option autoImplicit false

namespace PoolKeeper.Service

open Operation

variable {σ : Type} {ctx : Context σ} {known : Record → Prop} {path : String} {w v : World σ}

/-- The record was known before, or the process put it in place. -/
def Comes (known : Record → Prop) (w : World σ) (r : Record) : Prop := known r ∨ r ∈ w.updates

/-- The record in memory and what can be read at the path are known or were put in place, and of the host
and the journal holds `K`. -/
structure Traced (known : Record → Prop) (path : String) (K : σ → List Event → Prop) (w : World σ) :
    Prop where
  held : Comes known w w.record
  filed : ∀ text, w.machine.text? path = some text → ∃ r, Comes known w r ∧ text = r.yaml
  host : K w.host w.events

/-- Nothing more is known of the host. -/
abbrev Anything (_ : σ) (_ : List Event) : Prop := True

variable {K : σ → List Event → Prop}

theorem Comes.of_suffix {r : Record} {w' : World σ} (h : Comes known w r)
    (hsuffix : w.events <:+ w'.events) : Comes known w' r :=
  h.imp_right fun hr => (hsuffix.filterMap Event.record?).subset hr

/-- Where a file may have been lost, the next update brings it back. -/
theorem traced_setRecord (hK : ∀ s e es, K s es → K s (e :: es)) (hw : K w.host w.events) (r : Record) :
    Traced known path K (w.setRecord path r) := by
  have hcomes : Comes known (w.setRecord path r) r := by
    refine .inr ?_
    rw [World.updates, World.setRecord_events]
    exact List.mem_cons_self
  refine ⟨by rwa [World.setRecord_record], fun text htext => ⟨r, hcomes, ?_⟩, ?_⟩
  · rw [World.setRecord_machine] at htext
    exact Form.text?_save htext
  · rw [World.setRecord_host, World.setRecord_events]
    exact hK _ _ _ hw

theorem traced_steps (hout : ctx.host.Outside) (hspares : ctx.host.Spares ctx.settings.statePath)
    (hK : ∀ s e es, K s es → K s (e :: es))
    (hcall : ∀ c w, Traced known ctx.settings.statePath K w →
      K (ctx.host c w).2.host (ctx.host c w).2.events) :
    StepsPreserve ctx (fun _ => True) (Traced known ctx.settings.statePath K) where
  call {c} _ w hw := by
    obtain ⟨hrecord, hevents⟩ := hout c w
    have hsuffix : w.events <:+
        ((ctx.host c w).2.note (.called c (ctx.host c w).1)).events := by
      rw [World.note_events, hevents]
      exact List.suffix_cons _ _
    refine .call_exact ⟨?_, fun text htext => ?_, hK _ _ _ (hcall c w hw)⟩
    · rw [World.note_record, hrecord]
      exact hw.held.of_suffix hsuffix
    · obtain ⟨r, hr, htext⟩ := hw.filed text (hspares c w text htext)
      exact ⟨r, hr.of_suffix hsuffix, htext⟩
  update f w hw := .update_exact (traced_setRecord hK hw.host _)
  isThere := isThere_preserves _

theorem traced_staging (hout : ctx.host.Outside) (hspares : ctx.host.Spares ctx.settings.statePath)
    (hK : ∀ s e es, K s es → K s (e :: es))
    (hcall : ∀ c w, Traced known ctx.settings.statePath K w →
      K (ctx.host c w).2.host (ctx.host c w).2.events) :
    StagingPreserves ctx (Traced known ctx.settings.statePath K) fun w => K w.host w.events where
  steps := traced_steps hout hspares hK hcall
  stage hw _ := hw.host
  resume hw _ := traced_setRecord hK hw _
  drop hw _ := ⟨hw.held, fun text htext => hw.filed text (Files.text?_removeTree htext), hw.host⟩

/-- After an action, all records come from where they should. -/
theorem perform_traced (hout : ctx.host.Outside) (hspares : ctx.host.Spares ctx.settings.statePath)
    (a : Action) (hw : Traced known ctx.settings.statePath Anything w) :
    Traced known ctx.settings.statePath Anything (runIn ctx (perform a) w).2 :=
  ((traced_staging hout hspares (fun _ _ _ => id) fun _ _ _ => trivial).perform a w hw).of_runIn

/-! ## In the middle of an action -/

/-- The world after an action, with the worlds in which the process waited. -/
def watchedAfter (ctx : Context σ) (a : Action) (w : World σ) : World (σ × List (World σ)) :=
  (runIn ctx.watched (perform a) ⟨w.record, w.machine, (w.host, []), w.events⟩).2

/-- Every world that was kept is one from which the process went on. -/
def AllTraced (known : Record → Prop) (path : String) (s : σ × List (World σ)) (es : List Event) : Prop :=
  ∀ v ∈ s.2, Traced known path Anything v ∧ v.events <:+ es

theorem AllTraced.cons {s : σ × List (World σ)} {es : List Event} (h : AllTraced known path s es)
    (e : Event) : AllTraced known path s (e :: es) := fun v hv =>
  ⟨(h v hv).1, (h v hv).2.trans (List.suffix_cons e es)⟩

/-- While the process waits in the middle of an action, all records come from where they should, and what
was put in place by then is part of what is put in place until the end. -/
theorem moments_traced (hout : ctx.host.Outside) (hspares : ctx.host.Spares ctx.settings.statePath)
    {a : Action} (hw : Traced known ctx.settings.statePath Anything w) (hv : v ∈ moments ctx a w) :
    Traced known ctx.settings.statePath Anything v ∧ v.events <:+ (watchedAfter ctx a w).events := by
  have hwatched : StagingPreserves ctx.watched
      (Traced known ctx.settings.statePath (AllTraced known ctx.settings.statePath))
      fun w => AllTraced known ctx.settings.statePath w.host w.events := by
    refine traced_staging (fun c w => hout c ⟨w.record, w.machine, w.host.1, w.events⟩)
      (fun c w text htext => hspares c ⟨w.record, w.machine, w.host.1, w.events⟩ text htext)
      (fun _ e _ h => h.cons e) fun c w hw => ?_
    have hevents : (ctx.watched.host c w).2.events = w.events :=
      (hout c ⟨w.record, w.machine, w.host.1, w.events⟩).2
    rw [hevents]
    rintro v (_ | ⟨_, hv⟩)
    · exact ⟨⟨hw.held, hw.filed, trivial⟩, List.suffix_rfl⟩
    · exact hw.host v hv
  have hbegin : Traced known ctx.settings.statePath (AllTraced known ctx.settings.statePath)
      (⟨w.record, w.machine, (w.host, []), w.events⟩ : World (σ × List (World σ))) :=
    ⟨hw.held, hw.filed, by rintro _ ⟨⟩⟩
  exact (hwatched.perform a _ hbegin).of_runIn.host v hv

end PoolKeeper.Service
