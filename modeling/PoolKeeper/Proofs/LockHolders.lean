import Mathlib.Logic.Relation
import PoolKeeper.Proofs.LockFile

/-!
# `PoolKeeper/Proofs/LockHolders.lean` — processes that take the lock, give it back and die

Processes come and go, and each may try to take one lock whenever it likes (`Lock.Happens`). A process that
dies gives nothing back: its file stays, and the next one has to find out that it is left over. All that
keeps two processes apart is the invariant `Lock.Sound`: a process that holds the lock is alive and is the
one that the file names. So nobody else can take the lock, and nobody else's release touches it.

Once there was a file, or the directory for it, the path leads there for good (`Lock.Placed`). Then the
lock can be taken again as soon as no live process is named in the file, with two exceptions that the
statement has to make: a process may have come to the number that is left over, and the file at the
beginning may be no text at all.
-/

set_option autoImplicit false

namespace PoolKeeper

/-- The machine as one of its processes has it. -/
def Machine.of (m : Machine) (p : UInt32) : Machine := { m with pid := p }

theorem Machine.share_of (m : Machine) (p : UInt32) : m.Share (m.of p) := ⟨rfl, rfl⟩

namespace Lock

open Text

/-- A machine, and the processes on it that took the lock and did not give it back. -/
structure Situation where
  machine : Machine
  holders : List UInt32

/-- What can happen around a lock. No process comes to a number that a live process has. -/
inductive Happens (path : String) : Situation → Situation → Prop
  | taken {s : Situation} {p : UInt32} {m' : Machine} (halive : p ∈ s.machine.alive)
    (h : (acquire path).run.run (s.machine.of p) = (.ok true, m')) :
    Happens path s ⟨m', p :: s.holders⟩
  | missed {s : Situation} {p : UInt32} {r : Except OsError Bool} {m' : Machine}
    (halive : p ∈ s.machine.alive) (h : (acquire path).run.run (s.machine.of p) = (r, m'))
    (hr : r ≠ .ok true) : Happens path s ⟨m', s.holders⟩
  | released {s : Situation} {p : UInt32} (hp : p ∈ s.holders) :
    Happens path s ⟨((release path).run (s.machine.of p)).2, s.holders.erase p⟩
  | died {s : Situation} (p : UInt32) : Happens path s
    ⟨{ s.machine with alive := s.machine.alive.filter (· ≠ p) }, s.holders.filter (· ≠ p)⟩
  | born {s : Situation} {p : UInt32} (hnew : p ∉ s.machine.alive) :
    Happens path s ⟨{ s.machine with alive := p :: s.machine.alive }, s.holders⟩

/-- What happens one after the other. -/
abbrev Course (path : String) : Situation → Situation → Prop := Relation.ReflTransGen (Happens path)

variable {path : String} {s s' : Situation} {p q : UInt32}

/-! ## Who holds the lock -/

/-- There is at most one holder, it is alive, and the lock is its lock. -/
inductive Sound (path : String) (s : Situation) : Prop
  | free (h : s.holders = [])
  | held {p : UInt32} {loc : Loc} (h : s.holders = [p]) (halive : p ∈ s.machine.alive)
    (hmarks : Marks s.machine path p loc)

/-- While the lock is held nobody takes it, not even who holds it, and nothing changes. -/
theorem acquire_marked {m : Machine} {loc : Loc} (hmarks : Marks m path p loc) (halive : p ∈ m.alive)
    (q : UInt32) : (acquire path).run.run (m.of q) = (.ok false, m.of q) :=
  acquire_held (hmarks.share (m.share_of q)).text? (holder?_content p) halive

theorem Happens.sound (h : Happens path s s') (hs : Sound path s) : Sound path s' := by
  -- An attempt while the lock is held is `acquire_marked`: it fails and leaves the machine as it is.
  cases h with
  | @taken p m' halive htaken =>
    cases hs with
    | free hnone =>
      obtain ⟨hframe, hmarks⟩ := acquired path (s.machine.of p)
      rw [htaken] at hframe hmarks
      obtain ⟨loc, hmarks⟩ := hmarks rfl
      have hsame : m'.alive = s.machine.alive := (congrArg Machine.alive hframe).trans rfl
      exact .held (congrArg (p :: ·) hnone) (hsame ▸ halive) hmarks
    | held _ hholder hmarks => cases htaken.symm.trans (acquire_marked hmarks hholder p)
  | @missed p r m' _ hmissed _ =>
    cases hs with
    | free hnone => exact .free hnone
    | held hone hholder hmarks =>
      cases hmissed.symm.trans (acquire_marked hmarks hholder p)
      exact .held hone hholder (hmarks.share ⟨rfl, rfl⟩)
  | @released p hp =>
    cases hs with
    | free hnone => simp [hnone] at hp
    | held hone =>
      rw [hone, List.mem_singleton] at hp
      exact .free (by simp [hone, hp])
  | died p =>
    cases hs with
    | free hnone => exact .free (by simp [hnone])
    | @held q loc hone hholder hmarks =>
      by_cases hdead : q = p
      · exact .free (by simp [hone, hdead])
      · have hstill : q ∈ s.machine.alive.filter (· ≠ p) :=
          List.mem_filter.mpr ⟨hholder, by simpa using hdead⟩
        exact .held (by simp [hone, hdead]) hstill (hmarks.share ⟨rfl, rfl⟩)
  | born _ =>
    cases hs with
    | free hnone => exact .free hnone
    | held hone hholder hmarks =>
      exact .held hone (List.mem_cons_of_mem _ hholder) (hmarks.share ⟨rfl, rfl⟩)

theorem Course.sound (h : Course path s s') (hs : Sound path s) : Sound path s' := by
  induction h with
  | refl => exact hs
  | tail _ hstep ih => exact hstep.sound ih

/-! ## Where the lock is -/

/-- The path leads to a file or to nothing. -/
def Placed (path : String) (s : Situation) : Prop := ∃ loc, s.machine.Leads path loc

/-- A lock that is held is there. -/
theorem Sound.placed (h : Sound path s) (hheld : s.holders ≠ []) : Placed path s := by
  cases h with
  | free hnone => exact absurd hnone hheld
  | held _ _ hmarks => exact ⟨_, hmarks.leads⟩

theorem release_leads {m : Machine} {loc : Loc} (h : m.Leads path loc) :
    ((release path).run m).2.Leads path loc := by
  rw [run_release]
  split
  next hown =>
    rcases hentry : m.disk.get? loc with _ | e
    · simp [h.text?_of_none hentry] at hown
    · obtain ⟨mode, bytes, rfl⟩ := h.plain e hentry
      rw [Files.run_removeFile h.leads hentry]
      exact h.clear
  next => exact h

theorem Happens.placed (h : Happens path s s') (hs : Placed path s) : Placed path s' := by
  obtain ⟨loc, hleads⟩ := hs
  refine ⟨loc, ?_⟩
  have hof (p : UInt32) : (s.machine.of p).Leads path loc := hleads.share (s.machine.share_of p)
  cases h with
  | @taken p m' _ htaken =>
    have hafter := acquire_leads (hof p)
    rwa [htaken] at hafter
  | @missed p r m' _ hmissed _ =>
    have hafter := acquire_leads (hof p)
    rwa [hmissed] at hafter
  | @released p _ => exact release_leads (hof p)
  | died p => exact hleads.share ⟨rfl, rfl⟩
  | born _ => exact hleads.share ⟨rfl, rfl⟩

theorem Course.placed (h : Course path s s') (hs : Placed path s) : Placed path s' := by
  induction h with
  | refl => exact hs
  | tail _ hstep ih => exact hstep.placed ih

/-- Where no live process is named, the lock can be taken. -/
theorem acquire_unclaimed {m : Machine} {loc : Loc} (hleads : m.Leads path loc)
    (hreadable : ((Files.readText path).run.run m).1 ≠ .error .notText)
    (hunclaimed : ∀ text q, m.text? path = some text → holder? text = some q → q ∉ m.alive) :
    ∃ m', (acquire path).run.run m = (.ok true, m') := by
  rcases hentry : m.disk.get? loc with _ | e
  · exact ⟨_, acquire_free hleads hentry⟩
  obtain ⟨mode, bytes, rfl⟩ := hleads.plain e hentry
  rcases hdecode : decode? bytes with _ | text
  · refine absurd ?_ hreadable
    rw [Files.run_readText, hleads.followed]
    simp only [hentry, hdecode, Option.elim]
  · have htext := (hleads.text?_of_file hentry).trans hdecode
    exact ⟨_, acquire_stale hleads htext hentry fun q hq => hunclaimed text q htext hq⟩

/-! ## Exclusion -/

/-- Whatever happens around a lock that nobody holds at first, and whatever its path leads to then: no two
processes hold it and none holds it twice, and the file names the holder. Nobody removes the file but a
process whose number it carries, and the holder does remove it. Once the lock was held, or there was a
place for it, any live process can take it when nobody holds it, unless a live process has the number in
the file or the file is no text. -/
theorem course_exclusive {m₀ : Machine} (hbefore : Course path ⟨m₀, []⟩ s)
    (hafter : Course path s s') :
    s'.holders.length ≤ 1 ∧
    (∀ p ∈ s'.holders, p ∈ s'.machine.alive ∧ s'.machine.text? path = some (content p)) ∧
    (∀ q, (∀ text, s'.machine.text? path = some text → trimBlanks text.toList ≠ decimal q.toNat) →
      ((release path).run (s'.machine.of q)).2 = s'.machine.of q) ∧
    (∀ p ∈ s'.holders, ∃ loc, ((release path).run (s'.machine.of p)).2.Leads path loc ∧
      ((release path).run (s'.machine.of p)).2.disk.get? loc = none) ∧
    (s.holders ≠ [] ∨ (∃ loc, s.machine.Leads path loc) → s'.holders = [] →
      ((Files.readText path).run.run s'.machine).1 ≠ .error .notText →
      (∀ text q, s'.machine.text? path = some text → holder? text = some q → q ∉ s'.machine.alive) →
      ∀ p ∈ s'.machine.alive, ∃ m', (acquire path).run.run (s'.machine.of p) = (.ok true, m') ∧
        Happens path s' ⟨m', [p]⟩) := by
  have hsound : Sound path s' := hafter.sound (hbefore.sound (.free rfl))
  have htext (q : UInt32) : (s'.machine.of q).text? path = s'.machine.text? path := by
    rw [Machine.text?, Machine.text?, Files.run_readText, Files.run_readText]
    rfl
  refine ⟨?_, fun p hp => ?_, fun q hq => ?_, fun p hp => ?_, fun hplaced hfree hreadable hunclaimed => ?_⟩
  · cases hsound with
    | free hnone => simp [hnone]
    | held hone => simp [hone]
  · cases hsound with
    | free hnone => simp [hnone] at hp
    | held hone halive hmarks =>
      rw [hone, List.mem_singleton] at hp
      exact hp ▸ ⟨halive, hmarks.text?⟩
  · refine release_other fun text htext' => hq text ?_
    rw [← htext q, htext']
  · cases hsound with
    | free hnone => simp [hnone] at hp
    | @held q loc hone _ hmarks =>
      rw [hone, List.mem_singleton] at hp
      subst hp
      have hof := hmarks.share (s'.machine.share_of p)
      rw [release_marked hof]
      exact ⟨loc, hof.leads.clear, hof.leads.plain.get?_clear⟩
  · intro p halive
    -- A lock that was held at `s` need not be held since, but its place is still there.
    have hbegun : Placed path s := by
      rcases hplaced with hheld | hleads
      · exact (hbefore.sound (.free rfl)).placed hheld
      · exact hleads
    obtain ⟨loc, hleads⟩ := hafter.placed hbegun
    have hof := hleads.share (s'.machine.share_of p)
    have hread : ((Files.readText path).run.run (s'.machine.of p)).1 ≠ .error .notText := by
      rw [Files.run_readText] at hreadable ⊢
      exact hreadable
    obtain ⟨m', hm'⟩ := acquire_unclaimed hof hread fun text q h => hunclaimed text q (htext p ▸ h)
    have hstep := Happens.taken halive hm'
    rw [hfree] at hstep
    exact ⟨m', hm', hstep⟩

/-- A lock is left over from a process that is gone; the processes 1 and 2 are alive. -/
def leftOver : Machine := { disk := ⟨[(["lock"], file 77)]⟩ }

theorem leftOver_marked : Marks leftOver "/lock" 77 ["lock"] :=
  ⟨⟨rfl, Disk.plain_of_file rfl⟩, rfl⟩

/-- The first of them took it. -/
def retaken : Situation :=
  ⟨{ disk := (leftOver.disk.clear ["lock"]).put ["lock"] (file 1), pid := 1 }, [1]⟩

/-- Then it died. -/
def deserted : Situation := ⟨{ retaken.machine with alive := [2] }, []⟩

theorem deserted_marked : Marks deserted.machine "/lock" 1 ["lock"] :=
  ⟨⟨rfl, Disk.plain_of_file rfl⟩, rfl⟩

/-- The second can take it now. -/
theorem course_exclusive_deserted : Course "/lock" ⟨leftOver, []⟩ retaken ∧
    Course "/lock" retaken deserted ∧ ∃ m', Happens "/lock" deserted ⟨m', [2]⟩ := by
  have hfirst := leftOver_marked.share (leftOver.share_of 1)
  have hstale : ∀ q, holder? (content 77) = some q → q ∉ (leftOver.of 1).alive := by
    intro q hq
    cases (holder?_content 77).symm.trans hq
    decide
  have hunclaimed : ∀ text q, deserted.machine.text? "/lock" = some text → holder? text = some q →
      q ∉ deserted.machine.alive := by
    intro text q htext hq
    cases deserted_marked.text?.symm.trans htext
    cases (holder?_content 1).symm.trans hq
    decide
  have hreadable : ((Files.readText "/lock").run.run deserted.machine).1 ≠ .error .notText := by
    rw [Files.run_readText_text deserted_marked.text?]
    rintro ⟨⟩
  have htake : Course "/lock" ⟨leftOver, []⟩ retaken :=
    .single (.taken (p := 1) (by decide) (acquire_stale hfirst.leads hfirst.text? hfirst.found hstale))
  have hdie : Course "/lock" retaken deserted := .single (Happens.died 1)
  obtain ⟨-, -, -, -, hagain⟩ := course_exclusive htake hdie
  obtain ⟨m', -, hstep⟩ := hagain (.inl (List.cons_ne_nil 1 [])) rfl hreadable hunclaimed 2 (by decide)
  exact ⟨htake, hdie, m', hstep⟩

end Lock

end PoolKeeper
