import PoolKeeper.Proofs.Account
import PoolKeeper.Proofs.Joined
import PoolKeeper.Proofs.Life
import PoolKeeper.Rehearsal.Slot

/-!
# `PoolKeeper/Proofs/CycleGuard.lean` — the slot, whoever holds it, and the file

Whoever claims the slot has a guard for it until the cycle completes or fails, or the guard is dropped. Guards
are counted here (`Shared`), so that there is never a second one is something to prove. Meanwhile anybody may
change the rest of the record, and anybody may die over a change, which is then in memory and not saved.

The slot in the record and the number of guards agree at every step (`CycleStep.run_eq`), so what a step does
to the record can be read off the record, and the record in memory is the fold of what was done to it. The
file is behind: between the steps the outside may do to the machine whatever it likes, so that saves fail, as
long as it leaves alone the place of the file (`Course`). It is then as it was left by the last save that
succeeded.
-/

set_option autoImplicit false

namespace PoolKeeper

variable {σ : Type} {ctx : Context σ} {home : Loc} {path : String} {m : Machine}

/-! ## Steps -/

/-- A change of the record that leaves the slot alone. -/
structure Remark where
  change : Record → Record
  sameSlot (r : Record) : r.SameSlot (change r)

/-- The last status is replaced. -/
def Remark.say (status : String) : Remark := ⟨(·.say status), fun _ => ⟨rfl, rfl⟩⟩

/-- The window that counts is replaced. -/
def Remark.count (window : Option String) : Remark :=
  ⟨fun r => { r with status := { r.status with lastWindow := window } }, fun _ => ⟨rfl, rfl⟩⟩

/-- What is done to a record and its slot. -/
inductive CycleStep where
  | claim (status : String)
  | advance (progress : UInt8) (status : String)
  | fail (status : String)
  /-- The cycle completes, and the record gets its result. -/
  | complete (status : String) (result : Remark)
  /-- Whoever completes the cycle dies over the result. The guard is dropped on the way out. -/
  | perish (status : String) (result : Remark)
  /-- The guard is dropped. -/
  | drop
  | update (remark : Remark)
  /-- Somebody changes the record, and dies before it is saved. -/
  | lose (remark : Remark)

/-- What becomes of a guard in the end: it gives the slot back, unless that is done. -/
def Operation.leave (done : Bool) : Operation σ Unit := if done then pure () else update Record.release

/-- A record that is shared, and the number of guards that have not come to their end. -/
structure Shared (σ : Type) where
  world : World σ
  guards : Nat := 0

namespace CycleStep

/-- A step. Without a guard nobody can advance a cycle or end it. -/
def run (ctx : Context σ) (step : CycleStep) (s : Shared σ) : Shared σ :=
  let byGuard (w : World σ) (left : Nat) (op : Operation σ Unit) : Shared σ :=
    if s.guards = 0 then s else ⟨(op.runIn ctx w).2, left⟩
  match step with
  | claim status =>
    match (Operation.claim status).runIn ctx s.world with
    | (.ok true, w) => ⟨w, s.guards + 1⟩
    | (_, w) => ⟨w, s.guards⟩
  | advance progress status => byGuard s.world s.guards (Operation.advance progress status)
  | fail status => byGuard s.world (s.guards - 1) do
    Operation.failCycle status
    Operation.leave true
  | complete status result => byGuard s.world (s.guards - 1) do
    Operation.completeCycle status result.change
    Operation.leave true
  | perish status result =>
    byGuard { s.world with record := result.change (s.world.record.complete status) } (s.guards - 1)
      (Operation.leave false)
  | drop => byGuard s.world (s.guards - 1) (Operation.leave false)
  | update remark => ⟨((Operation.update remark.change).runIn ctx s.world).2, s.guards⟩
  | lose remark => ⟨{ s.world with record := remark.change s.world.record }, s.guards⟩

/-- What a step makes of the record. -/
def change (step : CycleStep) (r : Record) : Record :=
  let ifBusy (r' : Record) : Record := if r.status.inProgress then r' else r
  match step with
  | claim status => if r.status.inProgress then r else r.claim status
  | advance progress status => ifBusy (r.advance progress status)
  | fail status => ifBusy (r.fail status)
  | complete status result => ifBusy (result.change (r.complete status))
  | perish status result => ifBusy (result.change (r.complete status)).release
  | drop => ifBusy r.release
  | update remark | lose remark => remark.change r

def saves (step : CycleStep) (r : Record) : Bool :=
  match step with
  | claim _ | update _ => true
  | lose _ => false
  | _ => r.status.inProgress

end CycleStep

/-- How many guards go with a record. -/
def Record.guards (r : Record) : Nat := if r.status.inProgress then 1 else 0

/-- The number of guards agrees with the record. -/
def Shared.Fits (s : Shared σ) : Prop := s.guards = s.world.record.guards

namespace Remark

variable (remark : Remark) (r : Record)

@[simp] theorem inProgress : (remark.change r).status.inProgress = r.status.inProgress :=
  (remark.sameSlot r).1

@[simp] theorem progress : (remark.change r).status.progress = r.status.progress := (remark.sameSlot r).2

@[simp] theorem guards : (remark.change r).guards = r.guards := by
  rw [Record.guards, Record.guards, remark.inProgress]

end Remark

theorem Shared.Fits.of_busy {s : Shared σ} (h : s.Fits) (hbusy : s.world.record.status.inProgress = true) :
    s.guards = 1 := by
  rw [h, Record.guards, if_pos hbusy]

theorem Shared.Fits.of_idle {s : Shared σ} (h : s.Fits) (hidle : s.world.record.status.inProgress = false) :
    s.guards = 0 := by
  rw [h, Record.guards, if_neg (by simp [hidle])]

/-- Claiming the slot always comes to a save, and it succeeds exactly if nobody has the slot. -/
theorem Operation.runIn_claim (status : String) (w : World σ) : runIn ctx (claim status) w =
    (.ok (!w.record.status.inProgress), w.setRecord ctx.settings.statePath
      (if w.record.status.inProgress then w.record else w.record.claim status)) := by
  simp only [claim, runIn_bind, runIn_record, runIn_update, runIn_pure]

namespace CycleStep

theorem run_claim (status : String) {s : Shared σ} (h : s.Fits) : (claim status).run ctx s =
    ⟨s.world.setRecord ctx.settings.statePath ((claim status).change s.world.record),
      ((claim status).change s.world.record).guards⟩ := by
  rw [run, Operation.runIn_claim, change]
  cases hbusy : s.world.record.status.inProgress with
  | true => simp [h.of_busy hbusy, Record.guards, hbusy]
  | false => simp [h.of_idle hbusy, Record.guards, Record.claim]

/-- What a step comes to, where the guards agree with the record: the record is changed, and saved if the
step comes to a save, and the guards agree with it again. -/
theorem run_eq (step : CycleStep) {s : Shared σ} (h : s.Fits) : step.run ctx s =
    ⟨if step.saves s.world.record then
        s.world.setRecord ctx.settings.statePath (step.change s.world.record)
      else { s.world with record := step.change s.world.record },
      (step.change s.world.record).guards⟩ := by
  have hguards : s.guards = s.world.record.guards := h
  cases step with
  | claim status => exact run_claim status h
  | update remark | lose remark => simp [run, change, saves, hguards]
  | _ =>
    -- The others are done by whoever has a guard, and by nobody else.
    cases hbusy : s.world.record.status.inProgress with
    | true =>
      simp [run, change, saves, hbusy, h.of_busy hbusy, Record.guards, Operation.advance,
        Operation.failCycle, Operation.completeCycle, Operation.leave, Record.advance, Record.fail,
        Record.complete, Record.release, Record.say, World.setRecord_eq, World.saves]
    | false =>
      have hnone := h.of_idle hbusy
      obtain ⟨w, guards⟩ := s
      obtain rfl : guards = 0 := hnone
      have hidle : w.record.status.inProgress = false := hbusy
      simp [run, change, saves, hidle, Record.guards]

theorem run_fits (step : CycleStep) {s : Shared σ} (h : s.Fits) : (step.run ctx s).Fits := by
  rw [run_eq step h, Shared.Fits]
  split <;> simp

end CycleStep

namespace Rehearsal.SlotStep

/-- What a rehearsed step does, if it does more than read the file. -/
def cycleStep? : SlotStep → Option CycleStep
  | claim status => some (.claim status)
  | advance progress status => some (.advance progress status)
  | fail status => some (.fail status)
  | complete status window => some (.complete status (.count window))
  | release => some .drop
  | say status => some (.update (.say status))
  | lose status => some (.lose (.say status))
  | load => none

/-- What is rehearsed are these steps. -/
theorem run_cycleStep {s : Shared σ} (h : s.Fits) {step : SlotStep} {c : CycleStep}
    (hstep : step.cycleStep? = some c) : c.run ctx s =
      ⟨(step.run ctx s.world.record.status.inProgress s.world).2.2,
        (step.run ctx s.world.record.status.inProgress s.world).2.1.toNat⟩ := by
  obtain ⟨w, guards⟩ := s
  obtain rfl : guards = w.record.guards := h
  cases step with
  | load => cases hstep
  | _ =>
    cases hstep
    cases hbusy : w.record.status.inProgress with
    | true =>
      simp [CycleStep.run, run, Record.guards, hbusy, Operation.runIn_claim, Operation.say,
        Operation.failCycle, Operation.completeCycle, Operation.leave, Remark.say, Remark.count]
    | false =>
      simp [CycleStep.run, run, Record.guards, hbusy, Operation.runIn_claim, Operation.say, Remark.say]

end Rehearsal.SlotStep

/-! ## The file -/

/-- The machine with the directories for what is at the path, as far as they could be made. -/
def Machine.withDirectory (m : Machine) (path : String) : Machine :=
  ((Files.makeDirectories (Path.directory path)).run.run m).2

/-- The path leads to this place or nowhere, and the directories for it are not made there. -/
structure Machine.Homes (m : Machine) (path : String) (home : Loc) : Prop where
  kept : (m.withDirectory path).disk.get? home = m.disk.get? home
  only {loc : Loc}
    (h : (m.withDirectory path).disk.resolve (m.withDirectory path).cwd false path = .ok loc) : loc = home

/-- A save that succeeds puts the record into the file, and one that fails leaves the file as it was. -/
theorem Record.save_home (h : m.Homes path home) (r : Record) :
    (∃ m', (r.save path).run.run m = (.ok (), m') ∧
      m'.disk.get? home = some (.privateFile r.yaml.toUTF8)) ∨
    ∃ e m', (r.save path).run.run m = (.error e, m') ∧ m'.disk.get? home = m.disk.get? home := by
  obtain ⟨hkept, honly⟩ := h
  rw [save, Form.save_eq, Files.run_orFault_bind]
  unfold Machine.withDirectory at hkept honly
  generalize (Files.makeDirectories (Path.directory path)).run.run m = made at hkept honly ⊢
  rcases made with ⟨e | ⟨⟩, m₁⟩
  · exact .inr ⟨_, m₁, rfl, hkept⟩
  · simp only
    rw [Files.run_orFault]
    rcases Files.run_replace path r.form.yaml.toUTF8 m₁ with
      ⟨e, hrun, -⟩ | ⟨loc, -, hloc, hplace, hrun⟩
    · rw [hrun]
      exact .inr ⟨_, m₁, rfl, hkept⟩
    · rw [hrun]
      obtain rfl := honly hloc
      exact .inl ⟨_, rfl, Disk.get?_put (Disk.ne_root hplace) _⟩

theorem World.setRecord_home {w : World σ} (h : w.machine.Homes path home) (r : Record) :
    (w.setRecord path r).machine.disk.get? home =
      if w.saves path r then some (.privateFile r.yaml.toUTF8) else w.machine.disk.get? home := by
  rw [World.setRecord_machine, World.saves]
  rcases r.save_home h with ⟨m', hrun, hfile⟩ | ⟨e, m', hrun, hfile⟩
  all_goals
    rw [StateT.run] at hrun
    rw [hrun]
    exact hfile

/-! ## One step after the other -/

/-- What was done one after the other, each with whether a save succeeds then. Before each step the outside
may put any machine in place of the one that there is, if the file is there as it was and the path of the
state file leads to it or nowhere. -/
inductive Course (ctx : Context σ) (home : Loc) (start : Shared σ) :
    List (CycleStep × Bool) → Shared σ → Prop
  | start : Course ctx home start [] start
  | next {done : List (CycleStep × Bool)} {s : Shared σ} {m : Machine} {w : World σ}
    (h : Course ctx home start done s) (hw : w = { s.world with machine := m })
    (hkept : m.disk.get? home = s.world.machine.disk.get? home)
    (hhomes : m.Homes ctx.settings.statePath home) (step : CycleStep) : Course ctx home start
      (done ++ [(step, w.saves ctx.settings.statePath (step.change w.record))])
      (step.run ctx { s with world := w })

/-- A record in memory, and the record that was put into the file, if one was. -/
structure Ledger where
  memory : Record
  file : Option Record := none

def Ledger.enter (l : Ledger) (entry : CycleStep × Bool) : Ledger where
  memory := entry.1.change l.memory
  file := if entry.1.saves l.memory && entry.2 then some (entry.1.change l.memory) else l.file

def Record.after (r : Record) (steps : List CycleStep) : Record := steps.foldl (fun r step => step.change r) r

theorem Ledger.foldl_memory (entries : List (CycleStep × Bool)) (l : Ledger) :
    (entries.foldl enter l).memory = l.memory.after (entries.map Prod.fst) := by
  induction entries generalizing l with
  | nil => rfl
  | cons entry entries ih => exact ih (l.enter entry)

/-- What is at the place of the file. -/
def Ledger.entry (l : Ledger) (before : Option Entry) : Option Entry :=
  l.file.elim before fun r => some (.privateFile r.yaml.toUTF8)

/-- The world agrees with the ledger. -/
structure Shared.Agrees (s : Shared σ) (home : Loc) (before : Option Entry) (l : Ledger) : Prop where
  fits : s.Fits
  memory : s.world.record = l.memory
  file : s.world.machine.disk.get? home = l.entry before

theorem Shared.Agrees.run {s : Shared σ} {before : Option Entry} {l : Ledger} (h : s.Agrees home before l)
    (hhomes : s.world.machine.Homes ctx.settings.statePath home) (step : CycleStep) :
    (step.run ctx s).Agrees home before
      (l.enter (step, s.world.saves ctx.settings.statePath (step.change s.world.record))) := by
  obtain ⟨hfits, hmemory, hfile⟩ := h
  refine ⟨step.run_fits hfits, ?_, ?_⟩
  · rw [step.run_eq hfits, Ledger.enter, ← hmemory]
    split <;> simp
  · rw [step.run_eq hfits, Ledger.entry, Ledger.enter, ← hmemory]
    cases hsaves : step.saves s.world.record with
    | false => simpa [Ledger.entry] using hfile
    | true =>
      simp only [if_true, World.setRecord_home hhomes, Bool.true_and]
      split
      · rfl
      · exact hfile

theorem Course.agrees {start s : Shared σ} {done : List (CycleStep × Bool)}
    (h : Course ctx home start done s) (hfits : start.Fits) :
    s.Agrees home (start.world.machine.disk.get? home)
      (done.foldl Ledger.enter ⟨start.world.record, none⟩) := by
  induction h with
  | start => exact ⟨hfits, rfl, rfl⟩
  | @next done s m w h hw hkept hhomes step ih =>
    subst hw
    rw [List.foldl_append]
    have hput : Shared.Agrees { s with world := { s.world with machine := m } } home
        (start.world.machine.disk.get? home) (done.foldl Ledger.enter ⟨start.world.record, none⟩) :=
      ⟨ih.fits, ih.memory, hkept.trans ih.file⟩
    exact hput.run hhomes step

/-! ## Outages -/

/-- A machine with nothing on it but what may be at one place, as a process in the directory has it. -/
def Machine.holding (e : Option Entry) (cwd : Loc) : Machine where
  disk := ⟨e.toList.map (["record.yaml"], ·)⟩
  cwd := cwd

namespace Machine

variable {e : Option Entry}

theorem Homes.of_resolve (hname : Disk.EndsInName (Path.steps path))
    (h : m.disk.resolve m.cwd false path = .ok home) : m.Homes path home := by
  have hmade : m.withDirectory path = m := by
    rw [withDirectory, Files.run_makeDirectories_standing (Files.hasDirectory_directory h hname)]
  constructor
  · rw [hmade]
  · intro loc hloc
    rw [hmade] at hloc
    exact Except.ok.inj (hloc.symm.trans h)

theorem holding_get? (e : Option Entry) (cwd : Loc) :
    (holding e cwd).disk.get? ["record.yaml"] = e := by
  cases e with
  | none => rfl
  | some e => rfl

theorem holding_here (he : ∀ mode, e ≠ some (.directory mode)) :
    (holding e []).Homes "record.yaml" ["record.yaml"] ∧ ∀ (w : World σ) (r : Record),
      w.machine = holding e [] → w.saves "record.yaml" r = true := by
  constructor
  · apply Homes.of_resolve
    · exact ⟨"record.yaml", rfl, by decide, by decide⟩
    · match e with
      | none | some (.file ..) | some (.link _) => rfl
      | some (.directory mode) => exact absurd rfl (he mode)
  · intro w r hw
    rw [World.saves, hw]
    match e with
    | none | some (.file ..) | some (.link _) => rfl
    | some (.directory mode) => exact absurd rfl (he mode)

/-- From a directory that is gone nothing can be saved. -/
theorem holding_gone (e : Option Entry) :
    (holding e ["gone"]).Homes "record.yaml" ["record.yaml"] ∧ ∀ (w : World σ) (r : Record),
      w.machine = holding e ["gone"] → w.saves "record.yaml" r = false := by
  have hmade : (holding e ["gone"]).withDirectory "record.yaml" = holding e ["gone"] := by
    cases e with
    | none => rfl
    | some e => rfl
  constructor
  · constructor
    · rw [hmade]
    · intro loc h
      rw [hmade] at h
      cases e with
      | none => cases h
      | some e => cases h
  · intro w r hw
    rw [World.saves, hw]
    cases e with
    | none => rfl
    | some e => rfl

end Machine

/-- Whatever is done, and whichever saves are to fail, there is a course in which just these do. -/
theorem Course.exists_of_saves {start : Shared σ} (hpath : ctx.settings.statePath = "record.yaml")
    (hfits : start.Fits)
    (hplace : ∀ mode, start.world.machine.disk.get? ["record.yaml"] ≠ some (.directory mode))
    (done : List (CycleStep × Bool)) : ∃ s, Course ctx ["record.yaml"] start done s := by
  induction done using List.reverseRecOn with
  | nil => exact ⟨start, .start⟩
  | append_singleton done entry ih =>
    obtain ⟨s, h⟩ := ih
    obtain ⟨step, saved⟩ := entry
    -- The file is there or it is not, but it is never a directory.
    have hplace' (mode : Nat) :
        s.world.machine.disk.get? ["record.yaml"] ≠ some (.directory mode) := by
      rw [(h.agrees hfits).file, Ledger.entry]
      cases (done.foldl Ledger.enter ⟨start.world.record, none⟩).file with
      | none => exact hplace mode
      | some r => exact nofun
    have hnext (m : Machine) (hkept : m.disk.get? ["record.yaml"] = s.world.machine.disk.get? ["record.yaml"])
        (hm : m.Homes "record.yaml" ["record.yaml"] ∧ ∀ (w : World σ) (r : Record),
          w.machine = m → w.saves "record.yaml" r = saved) :
        ∃ s, Course ctx ["record.yaml"] start (done ++ [(step, saved)]) s := by
      obtain ⟨hhomes, hsaved⟩ := hm
      have hcourse := h.next rfl hkept (hpath ▸ hhomes) step
      rw [hpath, hsaved { s.world with machine := m } _ rfl] at hcourse
      exact ⟨_, hcourse⟩
    cases saved with
    | true => exact hnext _ (Machine.holding_get? _ []) (Machine.holding_here hplace')
    | false => exact hnext _ (Machine.holding_get? _ ["gone"]) (Machine.holding_gone _)

/-! ## The life of a guard -/

namespace CycleStep

def Ends : CycleStep → Prop
  | fail _ | complete .. | perish .. | drop => True
  | _ => False

def Claims : CycleStep → Prop
  | claim _ => True
  | _ => False

/-- How far the cycle is said to have come. -/
def advanced? : CycleStep → Option UInt8
  | advance progress _ => some progress
  | _ => none

/-- The progress that is left behind. -/
def left : CycleStep → UInt8
  | complete .. => 100
  | _ => 0

variable {step : CycleStep} {r : Record}

/-- While the slot is held, progress is as far as anybody said, and never passes 100. -/
theorem change_held (hbusy : r.status.inProgress = true) (h : ¬ step.Ends) :
    (step.change r).status.inProgress = true ∧ (step.change r).status.progress =
      step.advanced?.toList.foldl (fun p q => max p (min q 100)) r.status.progress := by
  cases step with
  | claim status => simp [change, hbusy, advanced?]
  | advance progress status => simp [change, hbusy, advanced?, Record.advance]
  | update remark | lose remark => simp [change, hbusy, advanced?]
  | fail | complete | perish | drop => exact absurd trivial h

/-- The end of a guard frees the slot. -/
theorem change_ended (hbusy : r.status.inProgress = true) (h : step.Ends) :
    (step.change r).status.inProgress = false ∧ (step.change r).status.progress = step.left := by
  cases step with
  | claim | advance | update | lose => exact h.elim
  | fail status => simp [change, hbusy, left, Record.fail, Record.release, Record.say]
  | complete status result => simp [change, hbusy, left, Record.complete]
  | perish status result => simp [change, hbusy, left, Record.release]
  | drop => simp [change, hbusy, left, Record.release]

theorem change_drop_lastStatus (r : Record) :
    (change .drop r).status.lastStatus = r.status.lastStatus := by
  rw [change]
  split <;> rfl

/-- A slot that is free is left alone until it is claimed. -/
theorem change_free (hidle : r.status.inProgress = false) (h : ¬ step.Claims) :
    (step.change r).status.inProgress = false ∧
      (step.change r).status.progress = r.status.progress := by
  cases step with
  | claim => exact absurd trivial h
  | _ => simp [change, hidle]

end CycleStep

namespace Record

variable {r : Record}

theorem after_cons (r : Record) (step : CycleStep) (steps : List CycleStep) :
    r.after (step :: steps) = (step.change r).after steps := rfl

theorem after_append (r : Record) (before steps : List CycleStep) :
    r.after (before ++ steps) = (r.after before).after steps := List.foldl_append

theorem after_held (steps : List CycleStep) (hbusy : r.status.inProgress = true)
    (h : ∀ step ∈ steps, ¬ step.Ends) : (r.after steps).status.inProgress = true ∧
      (r.after steps).status.progress =
        (steps.filterMap CycleStep.advanced?).foldl (fun p q => max p (min q 100)) r.status.progress := by
  induction steps generalizing r with
  | nil => exact ⟨hbusy, rfl⟩
  | cons step steps ih =>
    obtain ⟨hbusy', hprogress⟩ := CycleStep.change_held hbusy (h step List.mem_cons_self)
    obtain ⟨hlast, hrest⟩ := ih hbusy' fun step' hmem => h step' (List.mem_cons_of_mem _ hmem)
    refine ⟨hlast, hrest.trans ?_⟩
    rw [hprogress]
    cases hadvanced : step.advanced? with
    | none => simp [hadvanced]
    | some p => simp [hadvanced]

theorem after_free (steps : List CycleStep) (hidle : r.status.inProgress = false)
    (h : ∀ step ∈ steps, ¬ step.Claims) : (r.after steps).status.inProgress = false ∧
      (r.after steps).status.progress = r.status.progress := by
  induction steps generalizing r with
  | nil => exact ⟨hidle, rfl⟩
  | cons step steps ih =>
    obtain ⟨hidle', hprogress⟩ := CycleStep.change_free hidle (h step List.mem_cons_self)
    obtain ⟨hlast, hrest⟩ := ih hidle' fun step' hmem => h step' (List.mem_cons_of_mem _ hmem)
    exact ⟨hlast, hrest.trans hprogress⟩

end Record

/-- To cap each number is to cap the greatest of them. -/
theorem capped_foldl (qs : List UInt8) (p cap : UInt8) :
    qs.foldl (fun p q => max p (min q cap)) (min p cap) = min (qs.foldl max p) cap := by
  induction qs generalizing p with
  | nil => rfl
  | cons q qs ih =>
    have hstep : max (min p cap) (min q cap) = min (max p q) cap := by
      apply UInt8.toNat_inj.mp
      simp only [UInt8.toNat_max, UInt8.toNat_min]
      omega
    rw [List.foldl_cons, List.foldl_cons, hstep]
    exact ih (max p q)

/-! ## The protocol -/

/-- There is never a second guard, and the slot is held just while there is one. It cannot be claimed then,
and the attempt changes nothing. While a guard lives, progress is the greatest that was said, at most 100;
after its end it stays 100 or 0 until the slot is claimed again. The record in memory has everything that
was done to it, saved or not, and the file has it as it was at the last save that succeeded. -/
theorem Course.keeps_protocol {start s : Shared σ} {done : List (CycleStep × Bool)}
    (h : Course ctx home start done s) (hidle : start.world.record.status.inProgress = false)
    (hnone : start.guards = 0) :
    (s.guards ≤ 1 ∧ (s.world.record.status.inProgress = true ↔ s.guards = 1)) ∧
    (∀ (status : String) (w : World σ), w.record = s.world.record →
      ((Operation.claim status).runIn ctx w).1 = .ok (decide (s.guards = 0)) ∧
      (s.guards ≠ 0 → ((Operation.claim status).runIn ctx w).2.record = w.record)) ∧
    (∀ before status life, done.map Prod.fst = before ++ .claim status :: life →
      (start.world.record.after before).status.inProgress = false → (∀ step ∈ life, ¬ step.Ends) →
      s.guards = 1 ∧ s.world.record.status.progress =
        min ((life.filterMap CycleStep.advanced?).foldl max 0) 100) ∧
    (∀ before step after, done.map Prod.fst = before ++ step :: after →
      (start.world.record.after before).status.inProgress = true → step.Ends →
      (∀ step' ∈ after, ¬ step'.Claims) →
      s.guards = 0 ∧ s.world.record.status.progress = step.left) ∧
    (∀ before, done.map Prod.fst = before ++ [.drop] →
      s.world.record.status.lastStatus = (start.world.record.after before).status.lastStatus) ∧
    s.world.record = start.world.record.after (done.map Prod.fst) ∧
    s.world.machine.disk.get? home = (done.foldl Ledger.enter ⟨start.world.record, none⟩).file.elim
      (start.world.machine.disk.get? home) fun r => some (.privateFile r.yaml.toUTF8) := by
  have hfits : start.Fits := by
    rw [Shared.Fits, hnone, Record.guards, if_neg (by simp [hidle])]
  obtain ⟨hfits, hmemory, hfile⟩ := h.agrees hfits
  rw [Ledger.foldl_memory] at hmemory
  have hone : s.world.record.status.inProgress = true ↔ s.guards = 1 := by
    rw [hfits, Record.guards]
    cases s.world.record.status.inProgress <;> simp
  have hfree : s.world.record.status.inProgress = false ↔ s.guards = 0 := by
    rw [hfits, Record.guards]
    cases s.world.record.status.inProgress <;> simp
  refine ⟨⟨?_, hone⟩, ?_, ?_, ?_, ?_, hmemory, hfile⟩
  · rw [hfits, Record.guards]
    split <;> decide
  · intro status w hw
    rw [Operation.runIn_claim, World.setRecord_record, hw]
    cases hbusy : s.world.record.status.inProgress with
    | true => simp [hone.mp hbusy]
    | false => simp [hfree.mp hbusy]
  · intro before status life hdone hidle' hlife
    rw [hdone, Record.after_append, Record.after_cons] at hmemory
    have hclaimed : CycleStep.change (.claim status) (start.world.record.after before) =
        (start.world.record.after before).claim status := by simp [CycleStep.change, hidle']
    rw [hclaimed] at hmemory
    obtain ⟨hbusy, hprogress⟩ :=
      Record.after_held (r := (start.world.record.after before).claim status) life rfl hlife
    rw [← hmemory] at hbusy hprogress
    exact ⟨hone.mp hbusy, hprogress.trans (capped_foldl _ 0 100)⟩
  · intro before step after hdone hbusy hends hafter
    rw [hdone, Record.after_append, Record.after_cons] at hmemory
    obtain ⟨hidle', hleft⟩ := CycleStep.change_ended hbusy hends
    obtain ⟨hlast, hprogress⟩ := Record.after_free after hidle' hafter
    rw [← hmemory] at hlast hprogress
    exact ⟨hfree.mp hlast, hprogress.trans hleft⟩
  · intro before hdone
    rw [hmemory, hdone, Record.after_append]
    exact CycleStep.change_drop_lastStatus _

/-- A new record, for a file that is not there yet. -/
def newSlot : Shared Unit := ⟨⟨{}, {}, (), []⟩, 0⟩

/-- A course with a new record. -/
abbrev NewCourse : List (CycleStep × Bool) → Shared Unit → Prop :=
  Course ⟨{ statePath := "record.yaml" }, Service.agreeable.host⟩ ["record.yaml"] newSlot

/-- A cycle with two saves that fail, and somebody who dies. -/
def troubledCycle : List (CycleStep × Bool) :=
  [(.claim "Creating ZFS snapshot", true), (.advance 75 "later", false), (.lose (.say "lost"), true),
    (.advance 25 "earlier", true), (.claim "again", false)]

/-- The troubled cycle holds the slot at 75, and if saving fails at its end, this is still in the file when
the slot is free. -/
theorem Course.keeps_protocol_troubled : ∃ s s' : Shared Unit, NewCourse troubledCycle s ∧
    s.guards = 1 ∧ s.world.record.status.progress = 75 ∧
    NewCourse (troubledCycle ++ [(.complete "done" (.say "fine"), false)]) s' ∧
    s'.guards = 0 ∧ s'.world.record.status.progress = 100 ∧
    s'.world.machine.disk.get? ["record.yaml"] = some (.privateFile s.world.record.yaml.toUTF8) := by
  have hfits : newSlot.Fits := rfl
  have hplace (mode : Nat) : newSlot.world.machine.disk.get? ["record.yaml"] ≠ some (.directory mode) :=
    nofun
  have hcourse (done : List (CycleStep × Bool)) : ∃ s, NewCourse done s :=
    Course.exists_of_saves rfl hfits hplace done
  obtain ⟨s, h⟩ := hcourse troubledCycle
  obtain ⟨s', h'⟩ := hcourse (troubledCycle ++ [(.complete "done" (.say "fine"), false)])
  obtain ⟨-, -, hlife, -, -, hmemory, -⟩ := Course.keeps_protocol h rfl rfl
  obtain ⟨-, -, -, hended, -, -, hfile⟩ := Course.keeps_protocol h' rfl rfl
  obtain ⟨hheld, hprogress⟩ := hlife [] "Creating ZFS snapshot" [.advance 75 "later",
    .lose (.say "lost"), .advance 25 "earlier", .claim "again"] rfl rfl (by simp [CycleStep.Ends])
  obtain ⟨hfree, hleft⟩ := hended (troubledCycle.map Prod.fst) (.complete "done" (.say "fine")) [] rfl rfl
    trivial (by simp)
  refine ⟨s, s', h, hheld, hprogress, h', hfree, hleft, ?_⟩
  rw [hfile, hmemory]
  rfl

end PoolKeeper
