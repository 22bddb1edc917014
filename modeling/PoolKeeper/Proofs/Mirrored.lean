import PoolKeeper.Proofs.Lifetime
import PoolKeeper.Proofs.Reopening
import PoolKeeper.Proofs.StepByStep

/-!
# `PoolKeeper/Proofs/Mirrored.lean` — the file has what the record has

Every change of the record is saved at once. So as long as no save is refused and nobody else writes the
file, a process that opens it finds the configuration that the last process had, and the time of the last
backup (`Mirrors`). Nothing is asked of the record for that but that this time can be written down; the
list of snapshots may hold what it likes.

The statement is about the machine, and each update makes it true again, whatever became of the machine in
between. So it is kept step by step (`mirrored_steps`), and a restore, which works on the machine itself,
keeps it because its last step is an update.
-/

set_option autoImplicit false

namespace PoolKeeper

/-! ## What is read back -/

/-- The record `r'` has what is needed of `r`. -/
structure Record.Agrees (r r' : Record) : Prop where
  config : r'.config = r.config
  lastBackup : ∀ t, r.status.lastBackup = some t → t.isRepresentable →
    r'.status.lastBackup = some t

theorem Record.Agrees.refl (r : Record) : r.Agrees r := ⟨rfl, fun _ h _ => h⟩

section Text

open Source Yaml Piece

variable {d : Document}

theorem Status.lastBackup_ofSource? {s s' : Status} {t : Instant}
    (h : ofSource? (ofForm d s.form) = some s') (ht : s.lastBackup = some t)
    (hwritable : t.isRepresentable) : s'.lastBackup = some t := by
  obtain ⟨entries, hform⟩ : ∃ entries, s.form = .fields entries := ⟨_, rfl⟩
  have hbackup : Source.optional (entriesOf (ofForm d) entries) "last_backup" Instant.ofSource? =
      some s.lastBackup := by
    refine optional_entriesOf "last_backup" Instant.optional?_form (fun t' ht' => ?_)
      (by cases hform; cases s.snapshots <;> simp [Form.filter_optional_eq])
    cases ht.symm.trans ht'
    exact Instant.ofSource?_form hwritable
  simp only [ofSource?, hform, (holds_ofForm d).fields, hbackup, Option.bind_eq_bind, Option.bind_some,
    Option.bind_eq_some_iff] at h
  obtain ⟨_, -, _, -, _, -, _, -, _, -, _, -, h⟩ := h
  cases h
  exact ht

/-- Whoever reads a state file that was written finds the configuration, and the time of the last backup
if that can be written down. -/
theorem Record.agrees_of_ofYaml? {r r' : Record} (h : ofYaml? r.yaml = some r') : r.Agrees r' := by
  obtain ⟨d, hread⟩ := r.exists_ofYaml?_yaml
  obtain ⟨status, hstatus, rfl⟩ := Option.map_eq_some_iff.mp (hread.symm.trans h)
  exact ⟨rfl, fun t ht hwritable => Status.lastBackup_ofSource? hstatus ht hwritable⟩

end Text

theorem Record.Agrees.reopened {r r' : Record} (h : r.Agrees r') : r.Agrees r'.reopened := by
  rw [reopened_eq]
  exact ⟨h.config, h.lastBackup⟩

/-! ## The file -/

/-- Whoever opens the file at the path finds what the record has. -/
def Mirrors (path : String) (r : Record) (m : Machine) : Prop :=
  ∀ r' m', (Service.openRecord path).run.run m = (.ok r', m') → r.Agrees r'

/-- The host leaves alone what is read at the path. -/
def Host.LeavesFile {σ : Type} (h : Host σ) (path : String) : Prop :=
  ∀ c w, ((Files.readText path).run.run (h c w).2.machine).1 =
    ((Files.readText path).run.run w.machine).1

namespace Service

open Operation

variable {path : String} {m m' : Machine} {r r' : Record}

theorem openRecord_congr
    (h : ((Files.readText path).run.run m').1 = ((Files.readText path).run.run m).1) :
    ((openRecord path).run.run m').1 = ((openRecord path).run.run m).1 := by
  rw [openRecord_run, openRecord_run, Record.run_load, Record.run_load, h]

/-- It depends on the machine only by what is read at the path. -/
theorem Mirrors.congr (hm : Mirrors path r m)
    (h : ((Files.readText path).run.run m').1 = ((Files.readText path).run.run m).1) :
    Mirrors path r m' := by
  intro opened m₁ hopen
  have hresult : ((openRecord path).run.run m).1 = .ok opened := by rw [← openRecord_congr h, hopen]
  exact hm opened _ (Prod.ext hresult rfl)

/-- A record that was saved is mirrored. -/
theorem mirrors_save (h : (r.save path).run.run m = (.ok (), m')) : Mirrors path r m' := by
  intro opened m'' hopen
  obtain ⟨r₁, hload, rfl⟩ := openRecord_ok hopen
  rw [Record.run_load] at hload
  obtain ⟨hloaded, -⟩ := Prod.mk.inj hload
  rcases Form.readText_save h with hread | ⟨-, hread⟩
  -- The file is where the path leads, and what was written can be read back.
  · rw [hread] at hloaded
    obtain ⟨r₀, hrecord, rfl⟩ := Record.loaded_eq_ok_iff.mp hloaded
    exact (Record.agrees_of_ofYaml? hrecord).reopened
  -- It is elsewhere, and then nothing can be opened at the path.
  · rw [hread] at hloaded
    cases hloaded

/-- Opening a file changes nothing, so whoever opened it is mirrored. -/
theorem mirrors_open (hopen : (openRecord path).run.run m = (.ok r, m')) :
    m' = m ∧ Mirrors path r m' := by
  have hmachine : m' = m := (openRecord_cases hopen).1
  refine ⟨hmachine, fun r' m'' hagain => ?_⟩
  rw [hmachine] at hagain
  cases hopen.symm.trans hagain
  exact .refl r

/-! ## Step by step -/

variable {σ : Type} {ctx : Context σ} {w : World σ}

/-- Every update could be saved. -/
def AllSaved (es : List Event) : Prop := ∀ r saved, .updated r saved ∈ es → saved = true

theorem AllSaved.of_suffix {es es' : List Event} (h : AllSaved es') (hsuffix : es <:+ es') :
    AllSaved es := fun r saved hmem => h r saved (hsuffix.subset hmem)

theorem allSaved_iff {es : List Event} :
    AllSaved es ↔ (es.all fun e => !(e matches .updated _ false)) = true := by
  rw [List.all_eq_true]
  constructor
  · rintro h (_ | ⟨r, _ | _⟩) hmem
    · rfl
    · exact nomatch h r false hmem
    · rfl
  · intro h r saved hmem
    cases saved
    · exact nomatch h _ hmem
    · rfl

/-- As long as all saves succeed, the file has what the record has. -/
def Mirrored (ctx : Context σ) (w : World σ) : Prop :=
  AllSaved w.events → Mirrors ctx.settings.statePath w.record w.machine

theorem mirrored_update (f : Record → Record) (w : World σ) :
    Ensures ctx (Operation.update f) w (fun _ => Mirrored ctx) (fun _ => Mirrored ctx) := by
  refine .update_exact fun hsaved => ?_
  have hsaves : w.saves ctx.settings.statePath (f w.record) = true :=
    hsaved (f w.record) _ (by rw [World.setRecord_events]; exact List.mem_cons_self)
  rw [World.setRecord_record, World.setRecord_machine]
  obtain ⟨m', hsave⟩ := World.saves_iff.mp hsaves
  rw [hsave]
  exact mirrors_save hsave

theorem mirrored_steps (hout : ctx.host.Outside)
    (hfile : ctx.host.LeavesFile ctx.settings.statePath) :
    StepsPreserve ctx (fun _ => True) (Mirrored ctx) where
  call {c} _ w hw := by
    obtain ⟨hr, he⟩ := hout c w
    refine .call_exact fun hsaved => ?_
    rw [World.note_events, he] at hsaved
    rw [World.note_record, World.note_machine, hr]
    exact Mirrors.congr (hw (hsaved.of_suffix (List.suffix_cons _ _))) (hfile c w)
  update f w _ := mirrored_update f w
  isThere := isThere_preserves _

/-- The last step of a restore is an update. -/
theorem restore_mirrored (id : String) (w : World σ) :
    Ensures ctx (restore id) w (fun _ => Mirrored ctx) (fun _ => Mirrored ctx) := by
  refine .bind (.of_run (runIn_outcome _) (.bind ((mirrored_update _ _).mono (fun _ w' hw' => ?_)
    fun _ _ h => h)))
  exact .ofReply (fun _ _ => hw') fun _ _ => hw'

theorem parts_mirrored (hout : ctx.host.Outside)
    (hfile : ctx.host.LeavesFile ctx.settings.statePath) : PartsPreserve ctx (Mirrored ctx) :=
  (mirrored_steps hout hfile).parts fun id w _ => restore_mirrored id w

end Service

end PoolKeeper
