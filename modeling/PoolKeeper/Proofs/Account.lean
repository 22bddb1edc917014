import Mathlib.Data.List.Chain
import PoolKeeper.Proofs.Ensures
import PoolKeeper.Proofs.RecordFile
import PoolKeeper.Proofs.SavedFile

/-!
# `PoolKeeper/Proofs/Account.lean` — the account that cycles give of themselves

A record is `Sound` if its progress makes sense: it is at most 100, and where no cycle holds the slot it
is 0 or 100. `Orderly` says that of the record in memory and of all that were written since the process
started, and that no cycle ever went back. `Filed` says it of the file.

The file is apart from the rest because the service can lose hold of it: making a directory can bring
another file in its path. The next update saves the record in any case, and then there is again nothing
else to be read there (`Ensures.update_good`).

Whoever answers the calls has a state, and something may be known of it as well (`K`).
-/

set_option autoImplicit false

namespace PoolKeeper

namespace Record

/-- The progress makes sense. -/
def Sound (r : Record) : Prop :=
  r.status.progress ≤ 100 ∧
    (r.status.inProgress = false → r.status.progress = 0 ∨ r.status.progress = 100)

instance (r : Record) : Decidable r.Sound := inferInstanceAs (Decidable (_ ∧ (_ → _)))

/-- While a cycle holds the slot its progress does not go back from the first record to the second. -/
def Leads (r r' : Record) : Prop :=
  r.status.inProgress → r'.status.inProgress → r.status.progress ≤ r'.status.progress

/-- The records agree about the slot. -/
def SameSlot (r r' : Record) : Prop :=
  r'.status.inProgress = r.status.inProgress ∧ r'.status.progress = r.status.progress

variable {r r' : Record}

theorem SameSlot.refl (r : Record) : SameSlot r r := ⟨rfl, rfl⟩

theorem SameSlot.sound (h : SameSlot r r') (hr : r.Sound) : r'.Sound := by
  obtain ⟨hbusy, hprogress⟩ := h
  unfold Sound
  rwa [hbusy, hprogress]

theorem SameSlot.leads (h : SameSlot r r') : r.Leads r' := fun _ _ => h.2 ▸ UInt8.le_refl _

theorem claim_sound (r : Record) (status : String) : (r.claim status).Sound :=
  ⟨show (0 : UInt8) ≤ 100 by decide, by rintro ⟨⟩⟩

theorem fail_sound (r : Record) (status : String) : (r.fail status).Sound :=
  ⟨show (0 : UInt8) ≤ 100 by decide, fun _ => .inl rfl⟩

theorem complete_sound (r : Record) (status : String) : (r.complete status).Sound :=
  ⟨show (100 : UInt8) ≤ 100 by decide, fun _ => .inr rfl⟩

theorem advance_sound {progress : UInt8} {status : String} (hr : r.Sound)
    (hbusy : r.status.inProgress) : (r.advance progress status).Sound := by
  refine ⟨?_, fun hidle => absurd (hbusy.symm.trans hidle) (by decide)⟩
  have hmin : min progress 100 ≤ 100 := by
    change (if progress ≤ 100 then progress else 100) ≤ 100
    split
    next hle => exact hle
    next => decide
  change (if _ ≤ min progress 100 then min progress 100 else r.status.progress) ≤ 100
  split
  next => exact hmin
  next => exact hr.1

theorem advance_leads (r : Record) (progress : UInt8) (status : String) :
    r.Leads (r.advance progress status) := by
  intro _ _
  change _ ≤ if r.status.progress ≤ min progress 100 then min progress 100 else r.status.progress
  split
  next hle => exact hle
  next => exact UInt8.le_refl _

/-- A record that was read is as sound as the one that was written. -/
theorem sound_of_ofYaml? (hr : r.Sound) (h : Record.ofYaml? r.yaml = some r') : r'.Sound :=
  SameSlot.sound (ofYaml?_yaml h) hr

theorem recovered_sound (hr : r.Sound) :
    r.recovered.Sound ∧ r.recovered.status.inProgress = false := by
  unfold recovered
  split
  next => exact ⟨fail_sound _ _, rfl⟩
  next hidle => exact ⟨hr, by simpa using hidle⟩

end Record

/-! ## Orderly worlds -/

/-- The record that an event put in place. -/
def Event.record? : Event → Option Record
  | .updated r _ => some r
  | .called .. => none

/-- The records that the process put in place, the latest first. -/
def World.updates {σ : Type} (w : World σ) : List Record := w.events.filterMap Event.record?

/-- The process keeps a sound account. -/
structure Orderly {σ : Type} (w : World σ) : Prop where
  held : w.record.Sound
  written : ∀ r ∈ w.updates, r.Sound
  /-- The record in memory is the one that was written last. -/
  latest : ∀ r ∈ w.updates.head?, r = w.record
  /-- No cycle went back. -/
  rising : w.updates.IsChain fun newer older => older.Leads newer

/-- What can be read at the path is a sound record. -/
def Filed (path : String) (m : Machine) : Prop :=
  ∀ text, m.text? path = some text → ∃ r : Record, r.Sound ∧ text = r.yaml

variable {σ : Type} {α β : Type} {ctx : Context σ} {w w' : World σ} {path : String} {r : Record}

namespace Orderly

/-- Only the record and the updates matter. -/
theorem of_eq {τ : Type} {w' : World τ} (hw : Orderly w) (hr : w'.record = w.record)
    (hu : w'.updates = w.updates) : Orderly w' where
  held := hr ▸ hw.held
  written := hu ▸ hw.written
  latest := hu ▸ hr ▸ hw.latest
  rising := hu ▸ hw.rising

/-- The process is as orderly as before if it puts a sound record in place with which no cycle goes
back. -/
theorem setRecord (hw : Orderly w) (hr : r.Sound) (hleads : w.record.Leads r) :
    Orderly (w.setRecord path r) := by
  have hupdates : (w.setRecord path r).updates = r :: w.updates := by simp [World.updates, Event.record?]
  refine ⟨by simpa using hr, ?_, ?_, ?_⟩
  · rw [hupdates]
    rintro r' (_ | ⟨_, hr'⟩)
    · exact hr
    · exact hw.written r' hr'
  · rw [hupdates]
    rintro r' hr'
    cases hr'
    simp
  · rw [hupdates]
    have hlatest := hw.latest
    have hrising := hw.rising
    cases hearlier : w.updates with
    | nil => exact .singleton _
    | cons older rest =>
      rw [hearlier] at hlatest hrising
      exact .cons_cons (hlatest older rfl ▸ hleads) hrising

theorem begin {m : Machine} {s : σ} (hr : r.Sound) : Orderly ⟨r, m, s, []⟩ :=
  ⟨hr, by rintro _ ⟨⟩, by rintro _ ⟨⟩, .nil⟩

/-- In a stretch of updates in which a cycle holds the slot, progress does not go back. -/
theorem pairwise (hw : Orderly w) {stretch : List Record} (hstretch : stretch <:+: w.updates)
    (hbusy : ∀ r ∈ stretch, r.status.inProgress) :
    stretch.Pairwise fun newer older => older.status.progress ≤ newer.status.progress := by
  have hleads := List.IsChain.infix hw.rising hstretch
  have hchain : stretch.IsChain fun newer older => older.status.progress ≤ newer.status.progress :=
    hleads.imp_of_mem_imp fun newer older hnewer holder hle =>
      hle (hbusy older holder) (hbusy newer hnewer)
  have htrans : IsTrans Record fun newer older => older.status.progress ≤ newer.status.progress :=
    ⟨fun _ _ _ h h' => UInt8.le_trans h' h⟩
  exact List.isChain_iff_pairwise.mp hchain

end Orderly

theorem filed_setRecord (w : World σ) (path : String) (hr : r.Sound) :
    Filed path (w.setRecord path r).machine := by
  intro text htext
  rw [World.setRecord_machine] at htext
  exact ⟨r, hr, Form.text?_save htext⟩

/-! ## Operations on orderly worlds -/

/-- The process keeps a sound account in its file as well, and of the host is known what `K` says. -/
structure Good (ctx : Context σ) (K : σ → Prop) (w : World σ) : Prop where
  orderly : Orderly w
  known : K w.host
  filed : Filed ctx.settings.statePath w.machine

/-- Calls leave the record, the journal and the state file alone, and keep what is known of the host. -/
def Context.Keeps (ctx : Context σ) (K : σ → Prop) : Prop :=
  ctx.host.Outside ∧ ∀ c w, Good ctx K w →
    K (ctx.host c w).2.host ∧ Filed ctx.settings.statePath (ctx.host c w).2.machine

variable {K : σ → Prop}

theorem Context.Keeps.good (hkeeps : ctx.Keeps K) (hw : Good ctx K w) (c : Call) :
    Good ctx K ((ctx.host c w).2.note (.called c (ctx.host c w).1)) := by
  obtain ⟨hrecord, hevents⟩ := hkeeps.1 c w
  obtain ⟨hknown, hfiled⟩ := hkeeps.2 c w hw
  refine ⟨hw.orderly.of_eq hrecord ?_, hknown, hfiled⟩
  rw [World.updates, World.note_events, hevents]
  exact List.filterMap_cons_none rfl

namespace Ensures

variable {op : Operation σ α} {Q : α → World σ → Prop} {R : Fault → World σ → Prop}

theorem call_good {c : Call} {Q : c.Reply → World σ → Prop} (hkeeps : ctx.Keeps K)
    (hw : Good ctx K w) (h : ∀ reply w', w'.record = w.record → Good ctx K w' → Q reply w') :
    Ensures ctx (Operation.call c) w Q R :=
  call_exact (h _ _ (hkeeps.1 c w).1 (hkeeps.good hw c))

/-- An update makes good what was lost of the file. -/
theorem update_good {f : Record → Record} {Q : Unit → World σ → Prop} (hw : Orderly w)
    (hknown : K w.host) (hr : (f w.record).Sound) (hleads : w.record.Leads (f w.record))
    (h : ∀ w', w'.record = f w.record → Good ctx K w' → Q () w') :
    Ensures ctx (Operation.update f) w Q R :=
  update_exact (h _ (World.setRecord_record ..) ⟨hw.setRecord hr hleads,
    (World.setRecord_host ..).symm ▸ hknown, filed_setRecord w _ hr⟩)

end Ensures

end PoolKeeper
