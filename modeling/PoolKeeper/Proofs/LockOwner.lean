import PoolKeeper.Proofs.BesideOwner
import PoolKeeper.Proofs.DeadEnds
import PoolKeeper.Proofs.LockPath
import PoolKeeper.Proofs.RestoreCommand
import PoolKeeper.Proofs.StepByStep

/-!
# `PoolKeeper/Proofs/LockOwner.lean` — only the owner of the lock touches the state

Beside the owner, a command changes nothing but the spool (`CommandLine.runPart_beside`). Where there is no
lock, a command that does its work at once becomes the owner for that long: it takes the lock, opens the
record, does what it was asked to and gives the lock back, however that ended. It hands nothing over to
anyone, so nothing comes into the spool.

What carries the second half is `Keeping`: the path of the lock leads to the lock that was taken, and the
spool is as it was. The only step of the program that comes near any of this is a save, and it puts the
state file in its place, which is another (`Lock.apart`), or does nothing. If a link was in its place, that
cuts off nobody's way, because a record was read there (`Serving`). A restore works on files besides, but a
command never gets that far, because a record that was just opened has no session
(`Service.restore_refused`).

The tools may do anything else. What they are asked for here is to leave alone what is the program's own
(`Host.LeavesAlone`).
-/

set_option autoImplicit false

namespace PoolKeeper

variable {σ : Type} {α β : Type} {ctx : Context σ} {w : World σ} {m n n' : Machine} {s : Settings}
  {lock : Loc}

/-! ## What is the program's own -/

/-- The places that are the program's own: those of the state file and of the lock, the spool, and what is
in the spool. -/
inductive Own (s : Settings) (m : Machine) : Loc → Prop
  | state {follow : Bool} {loc : Loc} (h : m.disk.resolve m.cwd follow s.statePath = .ok loc) :
    Own s m loc
  | lock {loc : Loc} (h : m.disk.resolve m.cwd false (Lock.path s.statePath) = .ok loc) : Own s m loc
  | spool {dir : Loc} (h : m.disk.resolve m.cwd true s.spoolDir = .ok dir) : Own s m dir
  | request {name : String} {dir : Loc} (h : m.disk.resolve m.cwd true s.spoolDir = .ok dir) :
    Own s m (name :: dir)

/-- From one machine to the other, what is the program's own is left alone, and so are the ways there. -/
structure Machine.Leaves (s : Settings) (m n : Machine) : Prop where
  pid : n.pid = m.pid
  state (follow : Bool) : n.disk.resolve n.cwd follow s.statePath =
    m.disk.resolve m.cwd follow s.statePath
  lock : n.disk.resolve n.cwd false (Lock.path s.statePath) =
    m.disk.resolve m.cwd false (Lock.path s.statePath)
  spool : n.disk.resolve n.cwd true s.spoolDir = m.disk.resolve m.cwd true s.spoolDir
  own {loc : Loc} (h : Own s m loc) : n.disk.get? loc = m.disk.get? loc

/-- Whatever the tools do, they leave alone what is the program's own. -/
def Host.LeavesAlone (h : Host σ) (s : Settings) : Prop :=
  ∀ (c : Call) (w : World σ), w.machine.Leaves s (h c w).2.machine

/-- The path leads to the directory. -/
structure Machine.Opens (m : Machine) (path : String) (dir : Loc) : Prop where
  leads : m.disk.resolve m.cwd true path = .ok dir
  isDirectory : m.disk.IsDirectory dir

theorem Machine.Opens.ways {path : String} {dir : Loc} (h : m.Opens path dir)
    (hways : m.disk.Ways n.disk) (hcwd : n.cwd = m.cwd) : n.Opens path dir :=
  ⟨by rw [hcwd]; exact hways.resolve h.leads h.isDirectory, hways.directory h.isDirectory⟩

/-- Between two machines no file came into the spool, and none in it changed or went, but for the state
file if that is kept there. -/
structure SameSpool (s : Settings) (m n : Machine) : Prop where
  opens {dir : Loc} (h : m.Opens s.spoolDir dir) : n.Opens s.spoolDir dir
  entries {name : String} {dir : Loc} {e : Entry} (h : n.Opens s.spoolDir dir)
    (hstate : n.disk.resolve n.cwd false s.statePath ≠ .ok (name :: dir)) (he : e.isDirectory = false) :
    n.disk.get? (name :: dir) = some e ↔ m.disk.get? (name :: dir) = some e

namespace SameSpool

theorem refl (s : Settings) (m : Machine) : SameSpool s m m := ⟨id, fun _ _ _ => .rfl⟩

/-- Directories that were made before make no difference. -/
theorem of_sameFiles (h : SameSpool s m n) (hfiles : n'.disk.SameFiles m.disk) (hcwd : m.cwd = n'.cwd) :
    SameSpool s n' n where
  opens hopens := h.opens (hopens.ways hfiles.ways hcwd)
  entries hopens hstate he :=
    (h.entries hopens hstate he).trans ⟨hfiles.back he, hfiles.kept he⟩

end SameSpool

/-- Where a lock is absent, it was absent before directories were made. -/
theorem Lock.Absent.of_grows {path : String} (h : Absent path n) (hgrows : m.disk.Grows n.disk)
    (hcwd : n.cwd = m.cwd) : Absent path m := by
  intro loc hloc
  obtain ⟨hpath, hstart, hwalks⟩ := Disk.resolve_eq_ok_iff.mp hloc
  refine hgrows.get?_eq_none (h loc ?_)
  rw [hcwd]
  exact Disk.resolve_eq_ok_iff.mpr ⟨hpath, hgrows.ways.stands hstart, hgrows.walks hwalks⟩

theorem Lock.housed_sameFiles (path : String) (m : Machine) :
    m.disk.SameFiles (housed path m).disk ∧ (housed path m).cwd = m.cwd := by
  rw [housed]
  split
  next parent _ =>
    exact ⟨Files.makeDirectories_sameFiles parent m,
      (congrArg Machine.cwd (Files.makeDirectories_disk parent m)).trans rfl⟩
  next => exact ⟨.refl _, rfl⟩

/-- The machine with the directory for the state file and its lock, as far as it could be made. -/
abbrev Settings.housed (s : Settings) (m : Machine) : Machine :=
  Lock.housed (Lock.path s.statePath) m

/-- Nobody holds the lock: it has a path of its own, and nothing is there. -/
structure Alone (s : Settings) (m : Machine) : Prop where
  ne : Lock.path s.statePath ≠ s.statePath
  absent : Lock.Absent (Lock.path s.statePath) (s.housed m)

/-- What was done left nothing in the spool, and no lock. -/
structure Traceless (s : Settings) (m n : Machine) : Prop where
  spool : SameSpool s m n
  lock : Lock.Absent (Lock.path s.statePath) n

/-- So it is when nothing was done. -/
theorem Alone.traceless (h : Alone s m) : Traceless s m m := by
  obtain ⟨hfiles, hcwd⟩ := Lock.housed_sameFiles (Lock.path s.statePath) m
  exact ⟨.refl _ _, h.absent.of_grows hfiles.toGrows hcwd⟩

/-! ## While the lock is held -/

/-- The lock that was taken is held, and the spool is as it was on the machine that the lock was taken
on. -/
structure Keeping (s : Settings) (m : Machine) (lock : Loc) (n : Machine) : Prop where
  marks : Lock.Marks n (Lock.path s.statePath) n.pid lock
  opens (dir : Loc) : n.Opens s.spoolDir dir ↔ m.Opens s.spoolDir dir
  entries {name : String} {dir : Loc} (h : m.Opens s.spoolDir dir)
    (hstate : n.disk.resolve n.cwd false s.statePath ≠ .ok (name :: dir)) (hlock : name :: dir ≠ lock) :
    n.disk.get? (name :: dir) = m.disk.get? (name :: dir)

/-- And a record was read from the state file, or nothing was there to read. -/
structure Serving (s : Settings) (m : Machine) (lock : Loc) (n : Machine) : Prop
    extends Keeping s m lock n where
  file : n.FileOrNone s.statePath

/-- A save beside a lock puts the file where its path leads, or changes nothing. -/
theorem Record.save_cases (r : Record) {statePath : String} (hne : Lock.path statePath ≠ statePath)
    (hlock : m.Leads (Lock.path statePath) lock) :
    ((r.save statePath).run.run m).2 = m ∨
      ∃ state, Disk.EndsInName (Path.steps statePath) ∧
        m.disk.resolve m.cwd false statePath = .ok state ∧
        (∀ mode, m.disk.get? state ≠ some (.directory mode)) ∧ ((r.save statePath).run.run m).2 =
          { m with disk := m.disk.put state (.privateFile r.form.yaml.toUTF8) } := by
  -- The lock stands in the same directory, so that is there.
  have hmade : (Files.makeDirectories (Path.directory statePath)).run.run m = (.ok (), m) := by
    rw [Path.directory, ← Lock.parent?_path hne]
    exact Files.run_makeDirectories_standing
      (Files.hasDirectory_directory hlock.leads hlock.endsInName)
  rw [save, Form.run_save, hmade]
  simp only
  rcases Files.run_replace statePath r.form.yaml.toUTF8 m with
    ⟨e, hrun, -⟩ | ⟨state, hname, hstate, hdir, hrun⟩
  · exact .inl (by rw [hrun])
  · exact .inr ⟨state, hname, hstate, hdir, by rw [hrun]⟩

namespace Keeping

/-- The lock was taken where nothing was. -/
theorem taken (hlock : m.Leads (Lock.path s.statePath) lock) :
    Keeping s m lock { m with disk := m.disk.put lock (Lock.file m.pid) } := by
  have hways := hlock.plain.put 0o644 (Lock.content m.pid).toUTF8
  exact ⟨Lock.marks_of_put hlock m.pid, fun dir => ⟨(·.ways hways.back rfl), (·.ways hways.there rfl)⟩,
    fun _ _ hne => Disk.get?_put_of_ne hne _⟩

theorem leaves (h : Keeping s m lock n) (hleaves : n.Leaves s n') : Keeping s m lock n' := by
  have hlock := hleaves.own (.lock h.marks.leads.leads)
  refine ⟨⟨⟨hleaves.lock.trans h.marks.leads.leads, h.marks.leads.plain.of_eq hlock⟩, ?_⟩,
    fun dir => ?_, fun hopens hstate hother => ?_⟩
  · rw [hlock, hleaves.pid]
    exact h.marks.found
  · rw [← h.opens dir]
    have hsame {dir : Loc} (hdir : n.disk.resolve n.cwd true s.spoolDir = .ok dir) :
        n'.disk.IsDirectory dir ↔ n.disk.IsDirectory dir := by
      rw [Disk.IsDirectory, Disk.IsDirectory, hleaves.own (.spool hdir)]
    constructor
    · rintro ⟨hleads, hdir⟩
      rw [hleaves.spool] at hleads
      exact ⟨hleads, (hsame hleads).mp hdir⟩
    · rintro ⟨hleads, hdir⟩
      exact ⟨hleaves.spool.trans hleads, (hsame hleads).mpr hdir⟩
  · rw [hleaves.state] at hstate
    rw [hleaves.own (.request ((h.opens _).mpr hopens).leads)]
    exact h.entries hopens hstate hother

/-- After the lock was given back it is gone, and the spool is as it was. -/
theorem released (h : Keeping s m lock n) (hnone : m.disk.get? lock = none) :
    SameSpool s m ((Lock.release (Lock.path s.statePath)).run n).2 ∧
      Lock.Absent (Lock.path s.statePath) ((Lock.release (Lock.path s.statePath)).run n).2 := by
  have hcleared := h.marks.leads.plain.get?_clear
  have hways := h.marks.leads.plain.clear
  rw [Lock.release_marked h.marks]
  refine ⟨⟨fun hopens => ((h.opens _).mpr hopens).ways hways.there rfl,
    fun {name dir e} hopens hstate _ => ?_⟩, fun loc hloc => ?_⟩
  · have hopens' := (h.opens dir).mp (hopens.ways hways.back rfl)
    have hstate' := fun hresolve => hstate (hways.resolve_iff.mpr hresolve)
    by_cases hlock : name :: dir = lock
    · rw [hlock, hnone]
      exact iff_of_eq (congrArg (· = some e) hcleared)
    · rw [← h.entries hopens' hstate' hlock]
      exact iff_of_eq (congrArg (· = some e) (n.disk.get?_clear_of_ne hlock))
  · cases h.marks.leads.clear.leads.symm.trans hloc
    exact hcleared

end Keeping

namespace Serving

theorem leaves (h : Serving s m lock n) (hleaves : n.Leaves s n') : Serving s m lock n' := by
  refine ⟨h.toKeeping.leaves hleaves, ?_⟩
  cases h.file with
  | reached hloc hplain =>
    exact .reached ((hleaves.state true).trans hloc) (hplain.of_eq (hleaves.own (.state hloc)))
  | missing hnone => exact .missing ((hleaves.state true).trans hnone)

theorem save (h : Serving s m lock n) (hne : Lock.path s.statePath ≠ s.statePath) (r : Record) :
    Serving s m lock ((r.save s.statePath).run.run n).2 := by
  rcases r.save_cases hne h.marks.leads with hsave | ⟨state, hname, hstate, hplace, hsave⟩
  · rw [hsave]
    exact h
  rw [hsave]
  -- Something was read at the place, so no way goes on there, even if it is a link.
  have hdead := h.file.deadEnd hname hstate
  have hapart := Lock.apart hne hname hstate h.marks.leads.leads
  have hsaved : Machine.Leads { n with
      disk := n.disk.put state (.privateFile r.form.yaml.toUTF8) } s.statePath state :=
    Machine.leads_of_put hstate hdead hplace _ _
  have hlock : (n.disk.put state (.privateFile r.form.yaml.toUTF8)).get? lock = n.disk.get? lock :=
    Disk.get?_put_of_ne hapart.symm _
  have hback : (n.disk.put state (.privateFile r.form.yaml.toUTF8)).Ways n.disk :=
    .of_put (by rintro _ ⟨⟩) (by rintro _ ⟨⟩)
  refine ⟨⟨⟨⟨?_, h.marks.leads.plain.of_eq hlock⟩, hlock.trans h.marks.found⟩, fun dir => ?_,
    fun hopens hstate' hother => ?_⟩, .reached hsaved.followed hsaved.plain⟩
  · exact Disk.resolve_put_deadEnd h.marks.leads.leads (by rintro ⟨⟩) hdead hplace _ _
  · rw [← h.opens dir]
    refine ⟨(·.ways hback rfl), fun hopens => ⟨?_, ?_⟩⟩
    · exact Disk.resolve_put_deadEnd hopens.leads (fun _ => hopens.isDirectory) hdead hplace _ _
    · obtain ⟨mode, hmode⟩ := hopens.isDirectory
      refine ⟨mode, (Disk.get?_put_of_ne ?_ _).trans hmode⟩
      rintro rfl
      exact hplace mode hmode
  · rename_i name dir
    have hother' : name :: dir ≠ state := by
      rintro rfl
      exact hstate' hsaved.leads
    refine (Disk.get?_put_of_ne hother' _).trans (h.entries hopens (fun hresolve => ?_) hother)
    exact hother' (Except.ok.inj (hresolve.symm.trans hstate))

/-- Every step of an operation keeps the lock. -/
theorem steps (hhost : ctx.host.LeavesAlone ctx.settings)
    (hne : Lock.path ctx.settings.statePath ≠ ctx.settings.statePath) :
    Service.StepsPreserve ctx (fun _ => True) (fun w => Serving ctx.settings m lock w.machine) where
  call {c} _ w hw := .call_exact (hw.leaves (hhost c w))
  update f w hw := by
    refine .update_exact ?_
    have hsaved := hw.save hne (f w.record)
    rw [World.setRecord_machine]
    exact hsaved
  isThere := Service.isThere_preserves _

end Serving

/-- A record that could be read was read from a file, or nothing was there to read. -/
theorem Record.fileOrNone_of_load {path : String} {r : Record}
    (h : ((load path).run.run m).1 = .ok r) : m.FileOrNone path := by
  rw [run_load, Files.run_readText] at h
  rcases hloc : m.disk.resolve m.cwd true path with e | loc
  · rw [hloc] at h
    cases e
    case notFound => exact .missing hloc
    all_goals cases h
  · rw [hloc] at h
    rcases hentry : m.disk.get? loc with _ | _ | _ | _
    · exact .reached hloc (Disk.plain_of_none hentry)
    · exact .reached hloc (Disk.plain_of_file hentry)
    all_goals
      simp only [hentry] at h
      cases h

/-! ## Operations on a record that was just opened -/

namespace Service

open Operation

variable {C : Call → Prop} {P : World σ → Prop}

/-- Without a session a restore says so and fails. -/
theorem restore_refused (h : StepsPreserve ctx C P) (hw : P w)
    (hgone : w.record.status.connected = false) (id : String) :
    Ensures ctx (restore id) w (fun _ _ => False) (fun _ => P) := by
  have hadmission : Ensures ctx (admitRestore (Text.trim id)) w (fun _ _ => False) (fun _ => P) := by
    refine .bind (.record (.bind (.settings ?_)))
    -- Whatever comes first, the question for a session is the last one.
    refine .ite (fun _ => .bind (.throw hw)) fun _ => .ite (fun _ => .bind (.throw hw)) fun _ => ?_
    refine .ite (fun _ => .bind ?_) fun hconnected => absurd (by rw [hgone]; rfl) hconnected
    exact .bind ((h.update _ w hw).mono (fun _ _ hw' => .throw hw') fun _ _ hw' => hw')
  refine .bind (.outcome ?_)
  refine .bind (hadmission.mono (fun _ _ hfalse => hfalse.elim) fun f w' hw' => ?_)
  exact .bind ((h.update _ w' hw').mono
    (fun _ _ hw'' => .ofReply (fun _ hreply => by cases hreply) fun _ _ => hw'') fun _ _ hw'' => hw'')

/-- So an update does not get to a restore either. -/
theorem update_opened (h : StepsPreserve ctx C P) (hC : ∀ c, IsConnecting c → C c) (hw : P w)
    (hgone : w.record.status.connected = false) (requested : Config) :
    Ensures ctx (update requested) w (fun _ => P) (fun _ => P) := by
  -- The session is still gone if the service had to be stopped.
  have hstop : Ensures ctx stop w
      (fun _ w' => P w' ∧ w'.record.status.connected = false) (fun _ => P) := by
    have hflag : Ensures ctx stop w (fun _ w' => w'.record.status.connected = false)
        (fun _ _ => False) := .update fun _ w' hr _ => by
      rw [hr]
      simp only
      split
      · exact hgone
      · split <;> rfl
    exact ((h.stop w hw).and hflag).mono (fun _ _ hw' => hw') fun _ _ hw' => hw'.1
  refine .bind (.record (.guard (fun w' => P w' ∧ w'.record.status.connected = false) (fun _ => hstop)
    (fun _ => ⟨hw, hgone⟩) fun _ w' hw' => ?_))
  rcases Config.takeRestoreOrder w.record.config requested with ⟨order, taken⟩
  cases order with
  | none =>
    exact .bind ((h.update _ w' hw'.1).mono (fun _ w'' hw'' =>
      .ite (fun _ => h.silently.ensureConnected hC w'' hw'') fun _ => .pure hw'') fun _ _ hw'' => hw'')
  | some id =>
    exact .bind ((restore_refused h hw'.1 hw'.2 id).mono (fun _ _ hfalse => hfalse.elim)
      fun _ _ hw'' => hw'')

end Service

/-! ## Commands with the lock -/

namespace CommandLine

open Service

section Keeps

variable {P : Machine → Prop}

theorem keeps_bind {part : Program σ α} {next : α → Program σ β}
    (hpart : P (runPart ctx part w).2.machine)
    (hnext : ∀ a w', P w'.machine → P (runPart ctx (next a) w').2.machine) :
    P (runPart ctx (part >>= next) w).2.machine := by
  rw [runPart_bind]
  rcases hrun : runPart ctx part w with ⟨e | a, w'⟩
  all_goals rw [hrun] at hpart
  · exact hpart
  · exact hnext a w' hpart

theorem keeps_operate {op : Operation σ α} (contexts : List String)
    (h : Ensures ctx op w (fun _ w' => P w'.machine) (fun _ w' => P w'.machine)) :
    P (runPart ctx (operate contexts op) w).2.machine := h.of_runIn

theorem keeps_showLastStatus (h : StepsPreserve ctx (fun _ => True) fun w => P w.machine)
    (hw : P w.machine) : P (runPart ctx showLastStatus w).2.machine :=
  keeps_bind (keeps_operate [] (h.silently.get trivial w hw)) fun _ _ hw' => hw'

/-- Opening the record changes nothing but the record, and the new one knows of no session. It was read
from the state file, or nothing was there to read. -/
theorem runPart_openService_cases (ctx : Context σ) (w : World σ) :
    (∃ e, runPart ctx openService w = (.error e, w)) ∨
      ∃ r : Record, r.status.connected = false ∧ w.machine.FileOrNone ctx.settings.statePath ∧
        runPart ctx openService w = (.ok (), { w with record := r }) := by
  have hmachine := Record.load_machine ctx.settings.statePath w.machine
  have hopen := openRecord_run ctx.settings.statePath w.machine
  rw [hmachine] at hopen
  rcases hload : ((Record.load ctx.settings.statePath).run.run w.machine).1 with f | r
  · rw [hload] at hopen
    refine .inl ⟨Ending.ofFault [] f, ?_⟩
    rw [openService, runPart_bind_ok runPart_settings,
      runPart_bind_error (runPart_onFiles_error [] hopen)]
  · rw [hload] at hopen
    refine .inr ⟨r.setConnected false, rfl, Record.fileOrNone_of_load hload, ?_⟩
    rw [openService, runPart_bind_ok runPart_settings, runPart_bind_ok (runPart_onFiles [] hopen)]
    rfl

theorem keeps_openService {next : Unit → Program σ β} (hw : P w.machine)
    (hnext : ∀ r : Record, r.status.connected = false →
      w.machine.FileOrNone ctx.settings.statePath →
      P (runPart ctx (next ()) { w with record := r }).2.machine) :
    P (runPart ctx (openService >>= next) w).2.machine := by
  rcases runPart_openService_cases ctx w with ⟨e, hrun⟩ | ⟨r, hgone, hfile, hrun⟩
  · rw [runPart_bind_error hrun]
    exact hw
  · rw [runPart_bind_ok hrun]
    exact hnext r hgone hfile

end Keeps

/-- The commands that do their work at once if the lock is free. -/
def Works : Command → Prop
  | .update _ | .backup | .restore _ | .status true => True
  | .daemon | .status false => False

theorem runPart_takeLock_error {e : OsError}
    (h : (Lock.acquire (Lock.path ctx.settings.statePath)).run.run w.machine = (.error e, m)) :
    ∃ ending, runPart ctx takeLock w = (.error ending, { w with machine := m }) := by
  have hrun : runPart ctx (onMachine (Lock.acquire (Lock.path ctx.settings.statePath)).run) w =
      (.ok (.error e), { w with machine := m }) := by
    rw [onMachine, runPart_operate, Operation.runIn_onMachine, h]
    rfl
  refine ⟨⟨Files.refusal "failed to take instance lock" (Lock.path ctx.settings.statePath) e ++ "\n", 1⟩,
    ?_⟩
  rw [takeLock, runPart_bind_ok runPart_lockPath, runPart_bind_ok hrun]
  rfl

/-- Whatever came of what was done with the lock, the lock is given back. -/
theorem runPart_locked_machine {held busy : Program σ Ending}
    (h : (Lock.acquire (Lock.path ctx.settings.statePath)).run.run w.machine = (.ok true, m)) :
    (runPart ctx (locked held busy) w).2.machine = ((Lock.release (Lock.path ctx.settings.statePath)).run
      (runPart ctx held { w with machine := m }).2.machine).2 := by
  obtain ⟨e, hends⟩ := exists_endsWith (runPart ctx held { w with machine := m })
  rw [runPart_locked_held h hends]

/-- What needs the lock is not begun, or it is done while the lock is held and the lock is given back. -/
theorem locked_alone (halone : Alone ctx.settings w.machine) {held busy : Program σ Ending}
    (hheld : ∀ lock w', Keeping ctx.settings (ctx.settings.housed w.machine) lock w'.machine →
      Keeping ctx.settings (ctx.settings.housed w.machine) lock (runPart ctx held w').2.machine) :
    Traceless ctx.settings w.machine (runPart ctx (locked held busy) w).2.machine := by
  obtain ⟨hfiles, hcwd⟩ := Lock.housed_sameFiles (Lock.path ctx.settings.statePath) w.machine
  rcases Lock.acquire_absent halone.absent with ⟨e, hrefused⟩ | ⟨lock, hleads, hnone, htaken⟩
  · obtain ⟨ending, hrun⟩ : ∃ ending, runPart ctx takeLock w =
        (.error ending, { w with machine := ctx.settings.housed w.machine }) :=
      runPart_takeLock_error hrefused
    rw [locked, runPart_bind_error hrun]
    exact ⟨.of_sameFiles (.refl _ _) hfiles hcwd, halone.absent⟩
  · -- From here on the machine counts that has the directory.
    rw [runPart_locked_machine htaken]
    have hkeeping := hheld lock { w with machine := _ } (.taken hleads)
    obtain ⟨hspool, habsent⟩ := hkeeping.released hnone
    exact ⟨hspool.of_sameFiles hfiles hcwd, habsent⟩

/-- A command that works alone does so without a trace. -/
theorem runPart_alone (ctx : Context σ) (halone : Alone ctx.settings w.machine)
    (hhost : ctx.host.LeavesAlone ctx.settings) {c : Command} (hworks : Works c) (rounds : Nat) :
    Traceless ctx.settings w.machine (runPart ctx (c.run rounds) w).2.machine := by
  have hsteps (lock : Loc) : StepsPreserve ctx (fun _ => True) fun w' =>
      Serving ctx.settings (ctx.settings.housed w.machine) lock w'.machine :=
    Serving.steps hhost halone.ne
  cases c with
  | daemon => exact hworks.elim
  | status refresh =>
    cases refresh with
    | false => exact hworks.elim
    | true =>
      rw [Command.run, status]
      simp only [Bool.not_true, Bool.false_eq_true, if_false]
      refine locked_alone halone fun lock w' hw => keeps_openService hw fun r _ hfile =>
        Serving.toKeeping (keeps_bind (keeps_operate [] ?_) fun _ _ hw' => hw')
      exact (hsteps lock).silently.get trivial _ ⟨hw, hfile⟩
  | update file =>
    -- The configuration is read before the lock is taken, which may fail, but leaves the machine as it is.
    have hmachine := Config.load_machine file w.machine
    rcases hload : (Config.load file).run.run w.machine with ⟨f | requested, m₁⟩
    all_goals
      rw [hload] at hmachine
      obtain rfl : m₁ = w.machine := hmachine
    · rw [Command.run, update, runPart_bind_error (runPart_onFiles_error _ hload)]
      exact halone.traceless
    · rw [Command.run, update, runPart_bind_ok (runPart_onFiles _ hload)]
      show Traceless _ _ (runPart ctx (locked _ _) w).2.machine
      refine locked_alone halone fun lock w' hw => keeps_openService hw fun r hgone hfile =>
        Serving.toKeeping (keeps_bind (keeps_operate [] ?_) fun _ w'' hw' =>
          keeps_showLastStatus (hsteps lock) hw')
      exact Service.update_opened (w := { w' with record := r }) (hsteps lock) (fun _ _ => trivial)
        ⟨hw, hfile⟩ hgone requested
  | backup =>
    rw [Command.run, backup]
    refine locked_alone halone fun lock w' hw => keeps_openService hw fun r _ hfile =>
      Serving.toKeeping (keeps_bind (keeps_operate _ ?_) fun _ w₁ hw₁ =>
        keeps_bind (keeps_operate _ ?_) fun _ w₂ hw₂ => keeps_showLastStatus (hsteps lock) hw₂)
    · exact (hsteps lock).silently.start (fun _ _ => trivial) _ ⟨hw, hfile⟩
    · exact (hsteps lock).backup _ hw₁
  | restore snapshot =>
    rw [Command.run, restore]
    refine locked_alone halone fun lock w' hw => keeps_openService hw fun r hgone hfile =>
      Serving.toKeeping (keeps_bind (keeps_operate _ ?_) fun _ w'' hw' =>
        keeps_showLastStatus (hsteps lock) hw')
    exact .bind (.record (Service.update_opened (w := { w' with record := r }) (hsteps lock)
      (fun _ _ => trivial) ⟨hw, hfile⟩ hgone _))

/-! ## Both halves -/

/-- Beside the owner of the lock a command may come to a request in the spool, and to nothing else. Where
nobody holds it, a command that does its work at once leaves neither a request nor a lock, whatever it
comes to. -/
theorem Arguments.run_beside_or_alone (host : Settings → Host σ) (rounds : Nat) (a : Arguments)
    (w : World σ) (hload : ((Settings.load (a.config.getD hostFile)).run.run w.machine).1 = .ok s) :
    (∀ text pid, w.machine.text? (Lock.path s.statePath) = some text → Lock.holder? text = some pid →
      pid ∈ w.machine.alive → ∃ e m', a.run host rounds w = (e, { w with machine := m' }) ∧
        EndsBeside s.spoolDir w.machine a.command e m' ∧ w.machine.disk.Grows m'.disk ∧
        ∀ path text, w.machine.text? path = some text → m'.text? path = some text) ∧
    (Alone s w.machine → (host s).LeavesAlone s → Works a.command →
      Traceless s w.machine (a.run host rounds w).2.machine) := by
  have hread : (Settings.load (a.config.getD hostFile)).run.run w.machine = (.ok s, w.machine) :=
    Prod.ext hload (Settings.load_machine _ _)
  constructor
  · intro text pid htext hholder halive
    obtain ⟨e, m', hcwd, hends, hbeside⟩ := runPart_beside ⟨s, host s⟩ w rounds a.command
      (Lock.acquire_held htext hholder halive)
    exact ⟨e, m', Arguments.run_of_endsWith hread hends, hbeside, hbeside.grows,
      fun _ _ => hbeside.grows.text? hcwd⟩
  · intro halone hhost hworks
    obtain ⟨e, hends⟩ := exists_endsWith (runPart ⟨s, host s⟩ (a.command.run rounds) w)
    rw [Arguments.run_of_endsWith hread hends]
    exact runPart_alone ⟨s, host s⟩ halone hhost hworks rounds

/-- The settled service again, while process 1 has the lock. -/
def occupied : World Unit := { alone with machine := installed settled (some 1) }

/-- A machine on which the program never ran, so that not even the directory for the lock is there. -/
def bare : World Unit := { alone with
  machine := { disk := ⟨[(["var"], .newDirectory), (["lib", "var"], .newDirectory)]⟩ } }

theorem healthy_leavesAlone (s : Settings) : healthy.host.LeavesAlone s := by
  intro c w
  have hsame : (healthy.host c w).2.machine = w.machine := by cases c <;> rfl
  rw [hsame]
  exact ⟨rfl, fun _ => rfl, rfl, rfl, fun _ => rfl⟩

theorem bare_housed : Lock.housed "/var/lib/poolvault/state.pid" bare.machine = { bare.machine with
    disk := bare.machine.disk.put ["poolvault", "lib", "var"] .newDirectory } := rfl

theorem bare_alone {s : Settings} (hpath : s.statePath = "/var/lib/poolvault/state.yaml") :
    Alone s bare.machine := by
  have hlock : Lock.path s.statePath = "/var/lib/poolvault/state.pid" := hpath ▸ lockPath_default
  constructor
  · rw [hlock, hpath]
    decide
  · rw [hlock, Settings.housed, hlock, bare_housed]
    rintro loc ⟨⟩
    rfl

/-- Beside process 1 a backup is not made but asked for, and where the program never ran, a restore leaves
no lock and no request behind. -/
theorem run_beside_or_alone_settled :
    (∃ s e m', ((Settings.load hostFile).run.run occupied.machine).1 = .ok s ∧
      Arguments.run (fun _ => healthy.host) 1 ⟨.backup, none⟩ occupied =
        (e, { occupied with machine := m' }) ∧ HandsOver s.spoolDir occupied.machine .backup e m') ∧
    ∃ s, ((Settings.load hostFile).run.run bare.machine).1 = .ok s ∧ Traceless s bare.machine
      (Arguments.run (fun _ => healthy.host) 1 ⟨.restore "k123", none⟩ bare).2.machine := by
  constructor
  · obtain ⟨s, hpath, hread⟩ := installed_settings settled (some 1)
    have hload : ((Settings.load hostFile).run.run occupied.machine).1 = .ok s := congrArg Prod.fst hread
    have hlocked : occupied.machine.text? (Lock.path s.statePath) = some (Lock.content 1) :=
      hpath ▸ installed_locked settled 1
    obtain ⟨e, m', hrun, hends, -, -⟩ := (Arguments.run_beside_or_alone (fun _ => healthy.host) 1
      ⟨.backup, none⟩ occupied hload).1 _ 1 hlocked (Lock.holder?_content 1) (by decide)
    exact ⟨s, e, m', hload, hrun, hends⟩
  · obtain ⟨s, hpath, hload⟩ : ∃ s : Settings, s.statePath = "/var/lib/poolvault/state.yaml" ∧
        ((Settings.load hostFile).run.run bare.machine).1 = .ok s := ⟨_, rfl, rfl⟩
    exact ⟨s, hload, (Arguments.run_beside_or_alone (fun _ => healthy.host) 1 ⟨.restore "k123", none⟩
      bare hload).2 (bare_alone hpath) (healthy_leavesAlone s) trivial⟩

end CommandLine

end PoolKeeper
