import PoolKeeper.Proofs.Progress
import PoolKeeper.Proofs.Session

/-!
# `PoolKeeper/Proofs/Lifetime.lean` — processes that come and go over one state file

`Lives` are the worlds that a state file can see. There is no file at first; a process opens it, does
one thing after another, and ends between two of them or while it waits for an answer in the middle of
one, in whatever state that is, and the next process opens what it left. In between the machine is
anybody's. All that is asked of the others is that they write no state files: what is found there after a
call was found there before (`Host.Spares`).

Every record that is ever held, written or left in the file is sound, no cycle ever goes back, and
between two actions the slot is free (`lives_sound`).
-/

set_option autoImplicit false

namespace PoolKeeper

open Operation

variable {σ : Type} {ctx : Context σ} {w v : World σ} {r : Record} {m m' : Machine}

/-! ## Opening the file -/

theorem Record.load_ok {path : String}
    (h : (Record.load path).run.run m = (.ok r, m')) : m' = m ∧ (r = {} ∨
      ∃ text r₀, m.text? path = some text ∧ ofYaml? text = some r₀ ∧ r = r₀.recovered) := by
  rw [run_load] at h
  obtain ⟨hloaded, rfl⟩ := Prod.mk.inj h
  refine ⟨rfl, ?_⟩
  rcases hread : ((Files.readText path).run.run m).1 with e | text
  · rw [hread] at hloaded
    cases e <;> cases hloaded
    exact .inl rfl
  · rw [hread] at hloaded
    obtain ⟨r₀, hrecord, rfl⟩ := loaded_eq_ok_iff.mp hloaded
    exact .inr ⟨text, r₀, Files.text?_of_readText hread, hrecord, rfl⟩

/-- A record in the file, if there is one, is in the text that is read. -/
theorem Record.exists_of_saved? {path : String} (h : saved? path m = some r) :
    ∃ text, m.text? path = some text ∧ ofYaml? text = some r := by
  unfold saved? at h
  split at h
  next text htext => exact ⟨text, Files.text?_of_readText htext, h⟩
  next => cases h

/-- Whoever opens the file finds that it is missing, or a record in it. -/
theorem Service.openRecord_cases {path : String} (hopen : (openRecord path).run.run m = (.ok r, m')) :
    m' = m ∧ (r = {} ∨ ∃ text r₀, m.text? path = some text ∧ Record.ofYaml? text = some r₀ ∧
      r = r₀.recovered.setConnected false) := by
  obtain ⟨r₁, hload, rfl⟩ := openRecord_ok hopen
  obtain ⟨rfl, rfl | ⟨text, r₀, htext, hrecord, rfl⟩⟩ := Record.load_ok hload
  · exact ⟨rfl, .inl rfl⟩
  · exact ⟨rfl, .inr ⟨text, r₀, htext, hrecord, rfl⟩⟩

theorem openRecord_slot {path : String} (hfiled : Filed path m)
    (hopen : (Service.openRecord path).run.run m = (.ok r, m')) :
    m' = m ∧ r.Sound ∧ r.status.inProgress = false := by
  obtain ⟨rfl, rfl | ⟨text, r₀, htext, hrecord, rfl⟩⟩ := Service.openRecord_cases hopen
  · exact ⟨rfl, by decide, rfl⟩
  · obtain ⟨written, hsound, rfl⟩ := hfiled text htext
    obtain ⟨hrecovered, hidle⟩ := Record.recovered_sound (Record.sound_of_ofYaml? hsound hrecord)
    exact ⟨rfl, Record.SameSlot.sound (.refl _) hrecovered, hidle⟩

/-! ## Hosts that leave the file alone -/

/-- What is found at the path after a call was found there before. -/
def Host.Spares (h : Host σ) (path : String) : Prop :=
  ∀ c w text, (h c w).2.machine.text? path = some text → w.machine.text? path = some text

theorem Context.keeps_of_spares (hout : ctx.host.Outside)
    (hspares : ctx.host.Spares ctx.settings.statePath) : ctx.Keeps fun _ => True :=
  ⟨hout, fun c w hw => ⟨trivial, fun text htext => hw.filed text (hspares c w text htext)⟩⟩

/-! ## Watching -/

/-- A process in the middle of an operation waits for an answer; this host keeps the worlds in which it
does, the latest first. -/
def Host.watched (h : Host σ) : Host (σ × List (World σ)) := fun c w =>
  let before : World σ := ⟨w.record, w.machine, w.host.1, w.events⟩
  let (reply, after) := h c before
  (reply, ⟨after.record, after.machine, (after.host, before :: w.host.2), after.events⟩)

def Context.watched (ctx : Context σ) : Context (σ × List (World σ)) :=
  ⟨ctx.settings, ctx.host.watched⟩

/-- Every world that was kept is in order, and so is its file. -/
def AllOrderly (path : String) (s : σ × List (World σ)) : Prop :=
  ∀ v ∈ s.2, Orderly v ∧ Filed path v.machine

theorem Context.keeps_watched (hout : ctx.host.Outside)
    (hspares : ctx.host.Spares ctx.settings.statePath) :
    ctx.watched.Keeps (AllOrderly ctx.settings.statePath) := by
  refine ⟨fun c w => hout c ⟨w.record, w.machine, w.host.1, w.events⟩, fun c w hw => ⟨?_, ?_⟩⟩
  · rintro v (_ | ⟨_, hv⟩)
    · exact ⟨hw.orderly.of_eq rfl rfl, hw.filed⟩
    · exact hw.known v hv
  · exact fun text htext => hw.filed text (hspares c ⟨w.record, w.machine, w.host.1, w.events⟩ text
      htext)

namespace Service

/-- The worlds in which a process waits for an answer while it does what was asked. -/
def moments (ctx : Context σ) (a : Action) (w : World σ) : List (World σ) :=
  (runIn ctx.watched (perform a) ⟨w.record, w.machine, (w.host, []), w.events⟩).2.host.2

/-- The worlds that a state file can see. -/
inductive Lives (ctx : Context σ) : World σ → Prop
  | born {m m' : Machine} {host : σ} {r : Record}
    (hmissing : ((Files.readText ctx.settings.statePath).run.run m).1 = .error .notFound)
    (hopen : (openRecord ctx.settings.statePath).run.run m = (.ok r, m')) :
    Lives ctx ⟨r, m', host, []⟩
  | act {w : World σ} (h : Lives ctx w) (a : Action) : Lives ctx (runIn ctx (perform a) w).2
  /-- Others do something that leaves the state file alone. -/
  | elsewhere {w : World σ} {m : Machine} (h : Lives ctx w)
    (hm : ∀ text, m.text? ctx.settings.statePath = some text →
      w.machine.text? ctx.settings.statePath = some text) : Lives ctx { w with machine := m }
  | restart {w : World σ} {m : Machine} {r : Record} (h : Lives ctx w)
    (hopen : (openRecord ctx.settings.statePath).run.run w.machine = (.ok r, m)) :
    Lives ctx ⟨r, m, w.host, []⟩
  /-- The process dies while it waits for an answer. -/
  | crash {w v : World σ} {m : Machine} {r : Record} (h : Lives ctx w) (a : Action)
    (hv : v ∈ moments ctx a w)
    (hopen : (openRecord ctx.settings.statePath).run.run v.machine = (.ok r, m)) :
    Lives ctx ⟨r, m, v.host, []⟩

theorem Lives.after : ∀ (actions : List Action) {w : World σ}, Lives ctx w →
    Lives ctx (after ctx w actions)
  | [], _, h => h
  | a :: actions, _, h => Lives.after actions (h.act a)

/-- Nothing in memory, in the journal or in the file gives a wrong account of a cycle. -/
structure Accounts (path : String) (w : World σ) : Prop where
  held : w.record.Sound
  written : ∀ r saved, Event.updated r saved ∈ w.events → r.Sound
  /-- From when a cycle takes the slot until it gives it back, progress does not go back. -/
  rising : ∀ stretch : List Record, stretch <:+: w.updates →
    (∀ r ∈ stretch, r.status.inProgress) →
      stretch.Pairwise fun newer older => older.status.progress ≤ newer.status.progress
  filed : ∀ r, Record.saved? path w.machine = some r → r.Sound

theorem accounts_of_orderly {path : String} (hw : Orderly w) (hfiled : Filed path w.machine) :
    Accounts path w where
  held := hw.held
  written r saved hr := hw.written r (List.mem_filterMap.mpr ⟨_, hr, rfl⟩)
  rising _ := hw.pairwise
  filed r hr := by
    obtain ⟨text, htext, hrecord⟩ := Record.exists_of_saved? hr
    obtain ⟨written, hsound, rfl⟩ := hfiled text htext
    exact Record.sound_of_ofYaml? hsound hrecord

theorem moments_orderly (hout : ctx.host.Outside)
    (hspares : ctx.host.Spares ctx.settings.statePath) {a : Action}
    (hw : Slot ctx (fun _ => True) false w) (hv : v ∈ moments ctx a w) :
    Orderly v ∧ Filed ctx.settings.statePath v.machine := by
  have hslot : Slot ctx.watched (AllOrderly ctx.settings.statePath) false
      ⟨w.record, w.machine, (w.host, []), w.events⟩ :=
    ⟨⟨hw.1.orderly.of_eq rfl rfl, by rintro _ ⟨⟩, hw.1.filed⟩, hw.2⟩
  exact (perform_slot (Context.keeps_watched hout hspares) a hslot).of_runIn.1.known v hv

theorem lives_slot (hout : ctx.host.Outside) (hspares : ctx.host.Spares ctx.settings.statePath)
    (h : Lives ctx w) : Slot ctx (fun _ => True) false w := by
  have hopened {m m' : Machine} {host : σ} {r : Record} (hfiled : Filed ctx.settings.statePath m)
      (hopen : (openRecord ctx.settings.statePath).run.run m = (.ok r, m')) :
      Slot ctx (fun _ => True) false ⟨r, m', host, []⟩ := by
    obtain ⟨rfl, hsound, hidle⟩ := openRecord_slot hfiled hopen
    exact ⟨⟨.begin hsound, trivial, hfiled⟩, hidle⟩
  induction h with
  | born hmissing hopen =>
    refine hopened (fun text htext => ?_) hopen
    cases htext.symm.trans (Files.text?_of_refused hmissing)
  | act _ a ih =>
    have hkeeps := Context.keeps_of_spares hout hspares
    exact (perform_slot hkeeps a ih).of_runIn
  | elsewhere _ hm ih =>
    exact ⟨⟨ih.1.orderly.of_eq rfl rfl, trivial, fun text htext => ih.1.filed text (hm text htext)⟩, ih.2⟩
  | restart _ hopen ih => exact hopened ih.1.filed hopen
  | crash _ a hv hopen ih => exact hopened (moments_orderly hout hspares ih hv).2 hopen

/-- As long as others write no state files, every world that a state file can see accounts for its
cycles, and the slot is free; the worlds in which the next action waits for an answer account for theirs
as well. -/
theorem lives_sound (hout : ctx.host.Outside) (hspares : ctx.host.Spares ctx.settings.statePath)
    (h : Lives ctx w) : w.record.status.inProgress = false ∧ Accounts ctx.settings.statePath w ∧
      ∀ a, ∀ v ∈ moments ctx a w, Accounts ctx.settings.statePath v := by
  have hslot := lives_slot hout hspares h
  refine ⟨hslot.2, accounts_of_orderly hslot.1.orderly hslot.1.filed, fun a v hv => ?_⟩
  obtain ⟨horderly, hfiled⟩ := moments_orderly hout hspares hslot hv
  exact accounts_of_orderly horderly hfiled

/-- A default installation with agreeable tools. -/
def agreeableContext : Context Unit := ⟨{}, agreeable.host⟩

/-- A service that was configured and makes its first backup holds the slot while it waits. -/
theorem lives_sound_backup :
    (∃ v ∈ moments agreeableContext .backup
      (after agreeableContext ⟨{}, {}, (), []⟩ [.update sampleConfig]),
        v.record.status.inProgress = true ∧ Accounts agreeableContext.settings.statePath v) ∧
      Accounts agreeableContext.settings.statePath
        (after agreeableContext ⟨{}, {}, (), []⟩ [.update sampleConfig, .backup]) := by
  have hout : agreeableContext.host.Outside := agreeable.outside
  have hspares : agreeableContext.host.Spares agreeableContext.settings.statePath :=
    fun c w text htext => by cases c <;> exact htext
  have hmissing : ((Files.readText agreeableContext.settings.statePath).run.run {}).1 =
      .error .notFound := rfl
  have hopen : (openRecord agreeableContext.settings.statePath).run.run {} = (.ok {}, {}) := rfl
  have hlives (actions : List Action) :
      Lives agreeableContext (after agreeableContext ⟨{}, {}, (), []⟩ actions) :=
    Lives.after actions (.born hmissing hopen)
  obtain ⟨v, hv, hbusy⟩ : ∃ v ∈ moments agreeableContext .backup
      (after agreeableContext ⟨{}, {}, (), []⟩ [.update sampleConfig]),
        v.record.status.inProgress = true := List.any_eq_true.mp (by decide +kernel)
  exact ⟨⟨v, hv, hbusy, (lives_sound hout hspares (hlives _)).2.2 .backup v hv⟩,
    (lives_sound hout hspares (hlives _)).2.1⟩

end Service

end PoolKeeper
