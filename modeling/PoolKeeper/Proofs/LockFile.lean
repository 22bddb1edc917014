import PoolKeeper.Proofs.SameWays

/-!
# `PoolKeeper/Proofs/LockFile.lean` — the file that a lock is

What is written into a lock is read back from it (`Lock.holder?_content`), so a lock that was taken names
its holder (`Lock.acquired`), and only that process takes it away (`Lock.run_release`,
`Lock.release_marked`).

`Lock.Round` says all that a round of taking the lock can come to, so that what is true of any number of
rounds is shown by an induction with a case for each of them.

Where the path leads to a file or to nothing, taking the lock comes to one of three things
(`Lock.acquire_leads`): the file cannot be read, it names a live process, or it is made anew. The loop in
`Lock.attempt` needs two of its three rounds for that, the first to remove what was left over; the
others are for those who come in between.
-/

set_option autoImplicit false

namespace PoolKeeper

/-! ## A number on a line -/

namespace Text

theorem decimal_eq_padded (n : Nat) : decimal n = padded 0 n := by
  rw [padded, Nat.zero_sub, List.replicate_zero, List.nil_append]

theorem decimalValue_decimal (n : Nat) : decimalValue (decimal n) = n := by
  rw [decimal_eq_padded, decimalValue_padded]

theorem isDigit_of_mem_decimal {n : Nat} {c : Char} (h : c ∈ decimal n) : isDigit c = true :=
  isDigit_of_mem_padded (decimal_eq_padded n ▸ h)

theorem dropBlanks_of_digits {cs : List Char} (h : ∀ c ∈ cs, isDigit c = true) :
    dropBlanks cs = cs := by
  cases cs with
  | nil => rfl
  | cons c cs => exact dropBlanks_cons (isBlank_of_isDigit (h c List.mem_cons_self)) cs

/-- The end of the line is no part of the number. -/
theorem trimBlanks_line (n : Nat) : trimBlanks (decimal n ++ ['\n']) = decimal n := by
  have hfront : dropBlanks (decimal n ++ ['\n']) = decimal n ++ ['\n'] := by
    rw [decimal_eq_padded, dropBlanks_padded]
  have hback : dropBlanks (decimal n ++ ['\n']).reverse = (decimal n).reverse := by
    rw [List.reverse_append, List.reverse_singleton, List.singleton_append, dropBlanks,
      List.dropWhile_cons_of_pos (by decide)]
    exact dropBlanks_of_digits fun c hc => isDigit_of_mem_decimal (List.mem_reverse.mp hc)
  rw [trimBlanks, hfront, hback, List.reverse_reverse]

end Text

namespace Lock

open Text

variable {path : String} {m m' : Machine} {loc : Loc} {pid : UInt32} {mode : Nat} {bytes : ByteArray}

theorem trimBlanks_content (pid : UInt32) : trimBlanks (content pid).toList = decimal pid.toNat := by
  rw [content, String.toList_ofList, trimBlanks_line]

theorem holder?_content (pid : UInt32) : holder? (content pid) = some pid := by
  have hdigits : (decimal pid.toNat).all isDigit = true :=
    List.all_eq_true.mpr fun c hc => isDigit_of_mem_decimal hc
  have hne : decimal pid.toNat ≠ [] := decimal_eq_padded pid.toNat ▸ padded_ne_nil 0 pid.toNat
  have hvalue := decimalValue_decimal pid.toNat
  have hholds : Word.holds 32 pid.toNat = true := decide_eq_true pid.toNat_lt
  rw [holder?, trimBlanks_content]
  generalize decimal pid.toNat = digits at hdigits hne hvalue
  split
  next => cases hdigits
  next =>
    simp only [hdigits, List.isEmpty_eq_false_iff.mpr hne, hvalue, hholds, Bool.not_true, Bool.or_self,
      Bool.false_eq_true, if_false, if_true, UInt32.ofNat_toNat]

/-! ## The lock of a process -/

/-- The file that a process makes for its lock. -/
def file (pid : UInt32) : Entry := .newFile (content pid).toUTF8

/-- The path leads to the lock of the process. -/
structure Marks (m : Machine) (path : String) (pid : UInt32) (loc : Loc) : Prop where
  leads : m.Leads path loc
  found : m.disk.get? loc = some (file pid)

theorem Marks.text? (h : Marks m path pid loc) : m.text? path = some (content pid) := by
  rw [h.leads.text?_of_file h.found, decode?_toUTF8]

theorem Marks.share {n : Machine} (h : Marks m path pid loc) (hshare : m.Share n) :
    Marks n path pid loc := ⟨h.leads.share hshare, by rw [hshare.disk, h.found]⟩

/-- A file that was put at the path where nothing was. -/
theorem marks_of_put (h : m.Leads path loc) (pid : UInt32) :
    Marks { m with disk := m.disk.put loc (file pid) } path pid loc :=
  ⟨h.put _ _, Disk.get?_put h.plain.ne_root _⟩

/-! ## Giving the lock back -/

theorem run_release (path : String) (m : Machine) : ((release path).run m).2 =
    if (m.text? path).any (trimBlanks ·.toList = decimal m.pid.toNat) then
      ((Files.removeFile path).run.run m).2
    else m := by
  have hread : ((Files.readText path).run.run m).2 = m := by rw [Files.run_readText]
  rw [release, StateT.run_bind, Machine.text?]
  rcases hrun : (Files.readText path).run.run m with ⟨e | text, m₁⟩
  all_goals
    rw [hrun] at hread
    obtain rfl : m₁ = m := hread
  case error => rfl
  case ok =>
    change ((if trimBlanks text.toList = decimal m₁.pid.toNat then do
      let _ ← (Files.removeFile path).run
      else Pure.pure () : StateM Machine Unit).run m₁).2 = _
    by_cases hown : trimBlanks text.toList = decimal m₁.pid.toNat
    · simp only [hown, if_true, Except.toOption, Option.any_some, decide_true]
      rfl
    · simp only [hown, if_false, Except.toOption, Option.any_some, decide_false, Bool.false_eq_true]
      rfl

/-- A process that is not named in the file leaves it where it is. -/
theorem release_other
    (h : ∀ text, m.text? path = some text → trimBlanks text.toList ≠ decimal m.pid.toNat) :
    ((release path).run m).2 = m := by
  rw [run_release, if_neg]
  simp only [Option.any_eq_true, decide_eq_true_eq, not_exists, not_and]
  exact h

/-- The holder removes its lock. -/
theorem release_marked (h : Marks m path m.pid loc) :
    ((release path).run m).2 = { m with disk := m.disk.clear loc } := by
  have hown : (m.text? path).any (trimBlanks ·.toList = decimal m.pid.toNat) := by
    rw [h.text?]
    exact decide_eq_true (trimBlanks_content m.pid)
  rw [run_release, if_pos hown, Files.run_removeFile h.leads.leads h.found]

/-! ## Taking the lock -/

/-- What comes after the file was found left over. -/
theorem run_reclaim (path : String) (rounds : Nat) (m : Machine) :
    (do match ← (Files.removeFile path).outcome with
      | .ok _ | .error .notFound => attempt path rounds
      | .error e => throw e : Files Bool).run.run m =
      match (Files.removeFile path).run.run m with
      | (.ok _, m₁) | (.error .notFound, m₁) => (attempt path rounds).run.run m₁
      | (.error e, m₁) => (.error e, m₁) := by
  rw [Files.run_bind, Files.run_outcome]
  rcases (Files.removeFile path).run.run m with ⟨e | _, m₁⟩
  · cases e <;> rfl
  · rfl

/-- One round and what comes after it. -/
theorem run_attempt (path : String) (rounds : Nat) (m : Machine) :
    (attempt path (rounds + 1)).run.run m =
      match (Files.putNew path (file m.pid)).run.run m with
      | (.ok _, m₁) => (.ok true, m₁)
      | (.error .alreadyExists, m₁) => match (Files.readText path).run.run m₁ with
        | (.error .notFound, m₂) => (attempt path rounds).run.run m₂
        | (.error e, m₂) => (.error e, m₂)
        | (.ok text, m₂) =>
          if (holder? text).any (m₂.alive.contains ·) then (.ok false, m₂)
          else match (Files.removeFile path).run.run m₂ with
            | (.ok _, m₃) | (.error .notFound, m₃) => (attempt path rounds).run.run m₃
            | (.error e, m₃) => (.error e, m₃)
      | (.error e, m₁) => (.error e, m₁) := by
  have hfile : Entry.newFile (content m.pid).toUTF8 = file m.pid := rfl
  rw [attempt, Files.run_get, Files.run_bind, Files.run_outcome, hfile]
  rcases (Files.putNew path (file m.pid)).run.run m with ⟨e | _, m₁⟩
  · cases e
    case alreadyExists =>
      simp only
      rw [Files.run_bind, Files.run_outcome]
      rcases (Files.readText path).run.run m₁ with ⟨e | text, m₂⟩
      · cases e <;> rfl
      · simp only
        rcases holder? text with _ | pid
        · exact run_reclaim path rounds m₂
        · rw [Option.any_some, Files.run_bind, Files.run_liftM]
          change (if (m₂.alive.contains pid) = true then pure false else _ : Files Bool).run.run m₂ = _
          split
          · rfl
          · exact run_reclaim path rounds m₂
    all_goals rfl
  · rfl

/-- What a round of taking the lock comes to, with so many rounds after it. -/
inductive Round (path : String) (rounds : Nat) (m : Machine) : Except OsError Bool × Machine → Prop
  | taken {loc : Loc} (hleads : m.Leads path loc) (hnone : m.disk.get? loc = none) :
    Round path rounds m (.ok true, { m with disk := m.disk.put loc (file m.pid) })
  | held {text : String} {pid : UInt32} (htext : m.text? path = some text)
    (hholder : holder? text = some pid) (halive : pid ∈ m.alive) : Round path rounds m (.ok false, m)
  /-- No file can be made, and not because something is there. -/
  | barred {e : OsError} (hnew : (Files.putNew path (file m.pid)).run.run m = (.error e, m))
    (hne : e ≠ .alreadyExists) : Round path rounds m (.error e, m)
  | unread {e : OsError} (hread : (Files.readText path).run.run m = (.error e, m))
    (hne : e ≠ .notFound) : Round path rounds m (.error e, m)
  /-- Something is there and cannot be found. -/
  | vanished (hnew : (Files.putNew path (file m.pid)).run.run m = (.error .alreadyExists, m))
    (hread : (Files.readText path).run.run m = (.error .notFound, m)) :
    Round path rounds m ((attempt path rounds).run.run m)
  | stale {text : String} {loc : Loc} (htext : m.text? path = some text)
    (hstale : ∀ pid, holder? text = some pid → pid ∉ m.alive) (hremovable : Files.Removable path m loc) :
    Round path rounds m ((attempt path rounds).run.run { m with disk := m.disk.clear loc })

theorem attempt_round (path : String) (rounds : Nat) (m : Machine) :
    Round path rounds m ((attempt path (rounds + 1)).run.run m) := by
  rw [run_attempt]
  rcases hnew : (Files.putNew path (file m.pid)).run.run m with ⟨e | ⟨⟩, m₁⟩
  · obtain rfl : m₁ = m := Files.machine_of_putNew hnew
    cases e
    case alreadyExists =>
      have hsame : ((Files.readText path).run.run m₁).2 = m₁ := by rw [Files.run_readText]
      have htext : ((Files.readText path).run.run m₁).1.toOption = m₁.text? path := rfl
      simp only
      rcases hread : (Files.readText path).run.run m₁ with ⟨e | text, m₂⟩
      all_goals
        rw [hread] at hsame htext
        obtain rfl : m₂ = m₁ := hsame
      · cases e
        case notFound => exact .vanished hnew hread
        all_goals exact .unread hread (by rintro ⟨⟩)
      · simp only
        split
        next hlive =>
          obtain ⟨pid, hholder, halive⟩ := (Option.any_eq_true ..).mp hlive
          exact .held htext.symm hholder (List.contains_iff_mem.mp halive)
        next hdead =>
          obtain ⟨loc, hremovable⟩ := Files.exists_removable htext.symm
          rw [hremovable.run_removeFile]
          refine .stale htext.symm (fun pid hholder halive => hdead ?_) hremovable
          exact (Option.any_eq_true ..).mpr ⟨pid, hholder, List.contains_iff_mem.mpr halive⟩
    all_goals exact .barred hnew (by rintro ⟨⟩)
  · obtain ⟨loc, hleads, hnone, rfl⟩ := Files.leads_of_putNew hnew
    exact .taken hleads hnone

/-- An attempt that began on the machine ended like that: nothing became of the machine but of its disk,
and who took the lock has its number in the file at the path. -/
def Attempted (path : String) (m : Machine) (ended : Except OsError Bool × Machine) : Prop :=
  ended.2 = { m with disk := ended.2.disk } ∧
    (ended.1 = .ok true → ∃ loc, Marks ended.2 path m.pid loc)

/-- Nothing was changed, and the lock was not taken. -/
theorem attempted_stay (path : String) (m : Machine) {r : Except OsError Bool} (h : r ≠ .ok true) :
    Attempted path m (r, m) := ⟨rfl, fun htaken => absurd htaken h⟩

theorem attempted (path : String) (rounds : Nat) (m : Machine) :
    Attempted path m ((attempt path rounds).run.run m) := by
  induction rounds generalizing m with
  | zero => exact attempted_stay path m (by rintro ⟨⟩)
  | succ rounds ih =>
    have hround := attempt_round path rounds m
    generalize (attempt path (rounds + 1)).run.run m = ended at hround ⊢
    cases hround with
    | held | barred _ _ | unread _ _ => exact attempted_stay path m (by rintro ⟨⟩)
    | vanished => exact ih m
    | @taken loc hleads => exact ⟨rfl, fun _ => ⟨loc, marks_of_put hleads m.pid⟩⟩
    | @stale text loc => exact ih { m with disk := m.disk.clear loc }

/-- So did the whole of it. -/
theorem acquired (path : String) (m : Machine) :
    Attempted path m ((acquire path).run.run m) := by
  rw [acquire]
  rcases Path.parent? path with _ | parent
  · exact attempted path maxRounds m
  have hdisk := Files.makeDirectories_disk parent m
  simp only
  rw [Files.run_bind]
  generalize (Files.makeDirectories parent).run.run m = made at hdisk ⊢
  rcases made with ⟨e | _, m₁⟩
  · exact ⟨hdisk, by rintro ⟨⟩⟩
  · obtain ⟨hframe, hmarks⟩ := attempted path maxRounds m₁
    simp only at hdisk ⊢
    have hpid : m₁.pid = m.pid := by rw [hdisk]
    refine ⟨?_, fun htaken => hpid ▸ hmarks htaken⟩
    rw [hframe]
    simp only
    rw [hdisk]

/-! ### Where the path leads to a file or to nothing -/

section Leads

variable (h : m.Leads path loc)

include h

theorem run_acquire : (acquire path).run.run m = (attempt path maxRounds).run.run m := by
  obtain ⟨parent, hparent⟩ := Path.exists_parent h.endsInName
  rw [acquire, hparent]
  simp only
  rw [Files.run_bind, h.run_makeDirectories hparent]

/-- A lock is made where there is none. -/
theorem attempt_free (rounds : Nat) (hnone : m.disk.get? loc = none) :
    (attempt path (rounds + 1)).run.run m =
      (.ok true, { m with disk := m.disk.put loc (file m.pid) }) := by
  rw [run_attempt, h.run_putNew hnone]

theorem acquire_free (hnone : m.disk.get? loc = none) : (acquire path).run.run m =
    (.ok true, { m with disk := m.disk.put loc (file m.pid) }) := by
  rw [run_acquire h]
  exact attempt_free h 2 hnone

/-- A file that is no text is nobody's lock and is not removed. -/
theorem acquire_unreadable (hfile : m.disk.get? loc = some (.file mode bytes))
    (hdecode : decode? bytes = none) : (acquire path).run.run m = (.error .notText, m) := by
  have hread : (Files.readText path).run.run m = (.error .notText, m) := by
    rw [Files.run_readText, h.followed]
    simp only [hfile, hdecode, Option.elim]
  rw [run_acquire h, maxRounds, run_attempt,
    Files.run_putNew_there _ h.followed hfile h.dropSlashes]
  simp only [hread]

/-- A file that names no live process is left over, and is replaced. -/
theorem acquire_stale {text : String} (htext : m.text? path = some text)
    (hfile : m.disk.get? loc = some (.file mode bytes))
    (hstale : ∀ pid, holder? text = some pid → pid ∉ m.alive) : (acquire path).run.run m =
      (.ok true, { m with disk := (m.disk.clear loc).put loc (file m.pid) }) := by
  have hleft : ¬ (holder? text).any (m.alive.contains ·) = true := by
    simp only [Option.any_eq_true, List.contains_iff_mem, not_exists, not_and]
    exact hstale
  rw [run_acquire h, maxRounds, run_attempt,
    Files.run_putNew_there _ h.followed hfile h.dropSlashes]
  simp only [Files.run_readText_text htext, if_neg hleft, Files.run_removeFile h.leads hfile]
  exact attempt_free h.clear 1 h.plain.get?_clear

/-- Whatever comes of it, the path leads to a file or to nothing afterwards. -/
theorem acquire_leads : ((acquire path).run.run m).2.Leads path loc := by
  rcases hentry : m.disk.get? loc with _ | e
  · rw [acquire_free h hentry]
    exact h.put _ _
  obtain ⟨mode, bytes, rfl⟩ := h.plain e hentry
  rcases hdecode : decode? bytes with _ | text
  · rw [acquire_unreadable h hentry hdecode]
    exact h
  have htext : m.text? path = some text := (h.text?_of_file hentry).trans hdecode
  by_cases hlive : ∃ pid, holder? text = some pid ∧ pid ∈ m.alive
  · obtain ⟨pid, hholder, halive⟩ := hlive
    rw [acquire_held htext hholder halive]
    exact h
  · rw [acquire_stale h htext hentry fun pid hholder halive => hlive ⟨pid, hholder, halive⟩]
    exact h.clear.put _ _

end Leads

end Lock

end PoolKeeper
