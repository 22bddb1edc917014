import PoolKeeper.Proofs.LockBesideState

/-!
# `PoolKeeper/Proofs/LockAnswers.lean` — what taking the lock answers

At the path of a lock may be anything. Whatever it is, taking the lock ends in one of three ways
(`Lock.acquire_answers`): the lock is busy, it could not be taken and everything is as it was, or it was
taken, and then the file at the path is that of the process.

Busy should mean that a live process is named in the file, and there is one thing besides that is taken for
it: a link that leads to nothing (`Lock.Dangling`). A file cannot be made where a link is, and it cannot be
read where the link leads to, so each round takes it for a file that was removed in the meantime, and after
the last one the lock counts as held. Nobody ever removes such a link (`Lock.attempt_dangling`).
-/

set_option autoImplicit false

namespace PoolKeeper

variable {m : Machine} {path : String} {loc : Loc}

namespace Files

/-- The path can be followed, links and all, and nothing is there. -/
def LeadsNowhere (path : String) (m : Machine) : Prop :=
  m.disk.resolve m.cwd true path = .error .notFound ∨
    ∃ place, m.disk.resolve m.cwd true path = .ok place ∧ m.disk.get? place = none

theorem run_readText_nowhere (h : LeadsNowhere path m) :
    (readText path).run.run m = (.error .notFound, m) := by
  rw [run_readText]
  rcases h with herror | ⟨place, hplace, hnone⟩
  · rw [herror]
  · rw [hplace]
    simp only [hnone]

theorem leadsNowhere_of_readText {m' : Machine}
    (h : (readText path).run.run m = (.error .notFound, m')) : LeadsNowhere path m := by
  rw [run_readText] at h
  rcases hloc : m.disk.resolve m.cwd true path with e | place
  · rw [hloc] at h
    cases h
    exact .inl hloc
  rw [hloc] at h
  rcases hentry : m.disk.get? place with _ | ⟨mode, bytes⟩ | mode | target
  · exact .inr ⟨place, hloc, hentry⟩
  · simp only [hentry] at h
    cases hdecode : Text.decode? bytes <;> rw [hdecode] at h <;> cases h
  all_goals
    simp only [hentry] at h
    cases h

end Files

namespace Lock

open Files

/-! ## What is busy -/

/-- The file at the path, links followed, names a live process. -/
def Held (path : String) (m : Machine) : Prop :=
  ∃ text pid, m.text? path = some text ∧ holder? text = some pid ∧ pid ∈ m.alive

/-- At the end of the path is a link, and it leads to nothing. -/
structure Dangling (path : String) (m : Machine) : Prop where
  isLink : ∃ loc target, m.disk.resolve m.cwd false path = .ok loc ∧ m.disk.get? loc = some (.link target)
  leadsNowhere : LeadsNowhere path m

/-- What the lock is taken for busy for. -/
def Busy (path : String) (m : Machine) : Prop := Held path m ∨ Dangling path m

/-- Something is there then, and it is no directory. -/
theorem Busy.exists_entry (h : Busy path m) : ∃ loc e, m.disk.resolve m.cwd false path = .ok loc ∧
    m.disk.get? loc = some e ∧ ∀ mode, m.disk.get? loc ≠ some (.directory mode) := by
  rcases h with ⟨text, _, htext, -⟩ | ⟨⟨loc, target, hloc, hlink⟩, -⟩
  · obtain ⟨loc, hremovable⟩ := exists_removable htext
    obtain ⟨e, hentry⟩ := hremovable.isThere
    exact ⟨loc, e, hremovable.leads, hentry, hremovable.noDirectory⟩
  · exact ⟨loc, .link target, hloc, hlink, by simp [hlink]⟩

theorem Busy.run_putNew (h : Busy path m) (e : Entry) :
    (putNew path e).run.run m = (.error .alreadyExists, m) := by
  obtain ⟨loc, _, hloc, hentry, hplace⟩ := h.exists_entry
  exact run_putNew_entry e hloc hentry (Path.dropSlashes_eq (endsInName_of_noDirectory hloc hplace))

/-- A file cannot be made because of something that is there, and leads to nothing: that is a link. -/
theorem dangling_of_putNew {mode : Nat} {bytes : ByteArray}
    (hnew : (putNew path (.file mode bytes)).run.run m = (.error .alreadyExists, m))
    (hnowhere : LeadsNowhere path m) : Dangling path m := by
  refine ⟨?_, hnowhere⟩
  rcases hloc : m.disk.resolve m.cwd false path with e | loc
  · obtain ⟨err, hne, hrefused⟩ := run_putNew_nowhere hloc mode bytes
    cases hnew.symm.trans hrefused
    exact absurd rfl hne
  by_cases hlink : ∃ target, m.disk.get? loc = some (.link target)
  · obtain ⟨target, htarget⟩ := hlink
    exact ⟨loc, target, rfl, htarget⟩
  -- Whatever else is there, the path that is followed leads to it as well.
  obtain ⟨hpath, hstart, hwalks⟩ := Disk.resolve_eq_ok_iff.mp hloc
  have hfollowed := Disk.resolve_eq_ok_iff.mpr
    ⟨hpath, hstart, hwalks.followed fun target htarget => hlink ⟨target, htarget⟩⟩
  have hnone : m.disk.get? loc = none := by
    rcases hnowhere with herror | ⟨place, hplace, hnone⟩
    · cases herror.symm.trans hfollowed
    · cases hplace.symm.trans hfollowed
      exact hnone
  have hleads : m.Leads path loc := ⟨hloc, Disk.plain_of_none hnone⟩
  cases hnew.symm.trans (hleads.run_putNew hnone _)

/-! ## The rounds -/

/-- No round gets past a link that leads to nothing. -/
theorem attempt_dangling (h : Dangling path m) (rounds : Nat) :
    (attempt path rounds).run.run m = (.ok false, m) := by
  induction rounds with
  | zero => rfl
  | succ rounds ih =>
    rw [run_attempt, Busy.run_putNew (.inr h)]
    simp only [run_readText_nowhere h.leadsNowhere]
    exact ih

/-- Once what was left over is removed, the next round takes the lock. -/
theorem attempt_removed {text : String} (h : Removable path m loc) (htext : m.text? path = some text)
    (rounds : Nat) :
    (attempt path (rounds + 1)).run.run { m with disk := m.disk.clear loc } =
        (.ok true, { m with disk := m.disk.put loc (file m.pid) }) ∧
      Marks { m with disk := m.disk.put loc (file m.pid) } path m.pid loc := by
  have hnone : (m.disk.clear loc).get? loc = none := m.disk.get?_clear h.ne_root
  have hleads : Machine.Leads { m with disk := m.disk.clear loc } path loc :=
    ⟨h.resolve htext h.leads (by rintro ⟨⟩), Disk.plain_of_none hnone⟩
  have hput : (m.disk.clear loc).put loc (file m.pid) = m.disk.put loc (file m.pid) := by
    simp [Disk.put, Disk.clear, List.filter_filter]
  have hmarks := marks_of_put hleads m.pid
  rw [attempt_free hleads rounds hnone]
  simp only [hput] at hmarks ⊢
  exact ⟨trivial, hmarks⟩

/-- What came of taking the lock on the machine, and the machine afterwards. -/
inductive Answered (path : String) (m : Machine) : Except OsError Bool × Machine → Prop
  | busy (h : Busy path m) : Answered path m (.ok false, m)
  | refused {e : OsError} (h : ¬ Busy path m) : Answered path m (.error e, m)
  | taken {loc : Loc} (h : ¬ Busy path m)
    (hmarks : Marks { m with disk := m.disk.put loc (file m.pid) } path m.pid loc) :
    Answered path m (.ok true, { m with disk := m.disk.put loc (file m.pid) })

/-- Two rounds are enough to tell. -/
theorem attempt_answered (path : String) (rounds : Nat) (m : Machine) :
    Answered path m ((attempt path (rounds + 2)).run.run m) := by
  have hround := attempt_round path (rounds + 1) m
  generalize (attempt path (rounds + 2)).run.run m = ended at hround ⊢
  cases hround with
  | @taken loc hleads hnone =>
    refine .taken (fun hbusy => ?_) (marks_of_put hleads m.pid)
    cases (hleads.run_putNew hnone (file m.pid)).symm.trans (hbusy.run_putNew _)
  | @held text pid htext hholder halive => exact .busy (.inl ⟨text, pid, htext, hholder, halive⟩)
  | barred hnew hne =>
    refine .refused fun hbusy => ?_
    cases hnew.symm.trans (hbusy.run_putNew _)
    exact hne rfl
  | unread hread hne =>
    refine .refused ?_
    rintro (⟨text, _, htext, -⟩ | hdangling)
    · cases hread.symm.trans (run_readText_text htext)
    · cases hread.symm.trans (run_readText_nowhere hdangling.leadsNowhere)
      exact hne rfl
  | vanished hnew hread =>
    -- What can be neither made nor read is a link to nothing, and the second round meets it again.
    have hdangling := dangling_of_putNew hnew (leadsNowhere_of_readText hread)
    rw [attempt_dangling hdangling]
    exact .busy (.inr hdangling)
  | @stale text loc htext hstale hremovable =>
    -- What was left over is gone, and the second round takes the lock.
    obtain ⟨htaken, hmarks⟩ := attempt_removed hremovable htext rounds
    rw [htaken]
    refine .taken ?_ hmarks
    rintro (⟨text', pid, htext', hholder, halive⟩ | hdangling)
    · cases htext.symm.trans htext'
      exact hstale pid hholder halive
    · cases (run_readText_text htext).symm.trans (run_readText_nowhere hdangling.leadsNowhere)

/-! ## The whole of it -/

theorem acquire_answered (path : String) (m : Machine) :
    Answered path (housed path m) ((acquire path).run.run m) := by
  rw [acquire, housed]
  cases hparent : Path.parent? path with
  | none => exact attempt_answered path 1 m
  | some parent =>
    simp only
    rw [run_bind]
    rcases hmade : (makeDirectories parent).run.run m with ⟨e | ⟨⟩, m₁⟩
    · -- Without its directory nothing is at the path.
      refine .refused fun hbusy => ?_
      obtain ⟨loc, _, hloc, -⟩ := hbusy.exists_entry
      obtain ⟨hne, hnone⟩ := makeDirectories_refused hmade
      rcases hasDirectory_parent hloc hparent with ⟨rfl, -⟩ | ⟨-, hdir⟩
      · exact hne rfl
      · exact hnone hdir
    · exact attempt_answered path 1 m₁

/-- Whatever is at the path, the lock is busy exactly if a live process is named in the file there, or a
link is there that leads to nothing. If it is not taken, nothing changed; if it is, the path leads to the
file of the process, and nothing else changed. Before any of this, the directory for the lock may be made,
which makes no file; it is there already if the path leads to a place at all. -/
theorem acquire_answers (path : String) (m : Machine) :
    (m.disk.SameFiles (housed path m).disk ∧ housed path m = { m with disk := (housed path m).disk } ∧
      ∀ loc, m.disk.resolve m.cwd false path = .ok loc → housed path m = m) ∧
    (((acquire path).run.run m).1 = .ok false ↔
      Held path (housed path m) ∨ Dangling path (housed path m)) ∧
    (((acquire path).run.run m).1 ≠ .ok true → ((acquire path).run.run m).2 = housed path m) ∧
    (((acquire path).run.run m).1 = .ok true → ∃ loc, Marks ((acquire path).run.run m).2 path m.pid loc ∧
      ((acquire path).run.run m).2 =
        { housed path m with disk := (housed path m).disk.put loc (file m.pid) }) := by
  have hframe : housed path m = { m with disk := (housed path m).disk } := by
    rw [housed]
    split
    next parent _ => exact makeDirectories_disk parent m
    next => rfl
  have hpid : (housed path m).pid = m.pid := by rw [hframe]
  refine ⟨⟨(housed_sameFiles path m).1, hframe, fun loc => housed_eq⟩, ?_⟩
  have hanswered := acquire_answered path m
  generalize (acquire path).run.run m = answer at hanswered ⊢
  cases hanswered with
  | busy h => exact ⟨⟨fun _ => h, fun _ => rfl⟩, fun _ => rfl, by rintro ⟨⟩⟩
  | refused h => exact ⟨⟨by rintro ⟨⟩, fun hbusy => absurd hbusy h⟩, fun _ => rfl, by rintro ⟨⟩⟩
  | @taken loc h hmarks =>
    rw [← hpid]
    exact ⟨⟨by rintro ⟨⟩, fun hbusy => absurd hbusy h⟩, fun hne => absurd rfl hne,
      fun _ => ⟨loc, hmarks, rfl⟩⟩

/-- A machine on which the lock is a link to a place that is not there. -/
def astray : Machine := { disk := ⟨[(["state.pid"], .link "gone/away")]⟩ }

/-- Nobody is named at the path, for there is nothing to read, and the lock is busy all the same. -/
theorem acquire_astray : (acquire "state.pid").run.run astray = (.ok false, astray) ∧
    ¬ Held "state.pid" astray := by
  have hdangling : Dangling "state.pid" astray :=
    ⟨⟨["state.pid"], "gone/away", rfl, rfl⟩, .inl rfl⟩
  refine ⟨?_, ?_⟩
  · obtain ⟨loc, _, hloc, -⟩ := hdangling.isLink
    rw [acquire_eq_attempt hloc rfl]
    exact attempt_dangling hdangling maxRounds
  · rintro ⟨text, _, htext, -⟩
    cases (run_readText_text htext).symm.trans (run_readText_nowhere hdangling.leadsNowhere)

end Lock

end PoolKeeper
