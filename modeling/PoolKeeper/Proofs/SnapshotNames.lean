import Mathlib.Data.List.Nodup
import Mathlib.Data.Nat.Find
import PoolKeeper.Proofs.Ensures
import PoolKeeper.Proofs.SnapshotView
import PoolKeeper.Rehearsal.Bench

/-!
# `PoolKeeper/Proofs/SnapshotNames.lean` — a snapshot gets the first name that is free

For the snapshots of one second there are a hundred names, and the first one that the pool does not have is
the one that is taken. Whether that is so depends on what the pool answers, so the pool is taken at its word
and no more: it says truly which names it has (`Host.Truthful`), and a snapshot that it took is there
afterwards (`Host.Registers`). A host may do to the world what it likes while it is asked, so what was asked
cannot be read off the journal here. `Host.Exchange` is the chain of worlds that the calls lead through.

The search is one induction over the number of names that were passed over (`firstFree?_passes`). What is
promised of several snapshots of one second depends on what happens in between. If the pool keeps the names
that it has, each snapshot has a later name than those before it (`Series.increases`); if nobody else takes a
name either, no name is left out (`Series.names`).
-/

set_option autoImplicit false

namespace PoolKeeper

open Operation Rehearsal Text

variable {σ : Type} {ctx : Context σ} {w w' : World σ}

/-! ## Instants of one second -/

/-- Both instants lie in the same second; a leap second is one of its own. -/
def Instant.SameSecond (t t' : Instant) : Prop := t.seconds = t'.seconds ∧ t.isLeap = t'.isLeap

theorem Instant.SameSecond.compactText_eq {t t' : Instant} (h : t.SameSecond t') :
    t.compactText = t'.compactText := by
  obtain ⟨hseconds, hleap⟩ := h
  simp only [compactText, date, days, hour, minute, second, secondOfDay, hseconds, hleap]

/-! ## What the pool has and what it answers -/

namespace Host

def after (h : Host σ) (c : Call) (w : World σ) : World σ := (h c w).2.note (.called c (h c w).1)

/-- The calls that lead from one world to another, each with the answer that it got, the latest first.
There are no others, and nothing else happens. -/
inductive Exchange (h : Host σ) (w : World σ) : List Event → World σ → Prop where
  | start : Exchange h w [] w
  | call {es : List Event} {v : World σ} (hes : Exchange h w es v) (c : Call) :
    Exchange h w (.called c (h c v).1 :: es) (h.after c v)

/-- The pool has the names that `has` says. It says so when it is asked, and does not change by that. -/
structure Truthful (h : Host σ) (has : σ → String → Prop) : Prop where
  answers (name : String) (w : World σ) : (h (.datasetExists name) w).1 = true ↔ has w.host name
  unchanged (name : String) (w : World σ) : has (h (.datasetExists name) w).2.host = has w.host

/-- When a snapshot was taken, the pool has its name, and the others that it had before. -/
def Registers (h : Host σ) (has : σ → String → Prop) : Prop :=
  ∀ name w, (h (.snapshot name) w).1 = .ok () →
    ∀ other, has (h (.snapshot name) w).2.host other ↔ has w.host other ∨ other = name

end Host

/-! ### The pool on a bench -/

namespace Rehearsal.Bench

def Has (s : Scene Bench) (name : String) : Prop := name ∈ s.props.datasets ++ s.props.snapshots

instance (s : Scene Bench) (name : String) : Decidable (Has s name) :=
  inferInstanceAs (Decidable (name ∈ s.props.datasets ++ s.props.snapshots))

theorem host_truthful : Bench.host.Truthful Has where
  answers _ _ := List.contains_iff_mem
  unchanged _ _ := rfl

theorem host_registers : Bench.host.Registers Has := by
  intro name w
  change (takeSnapshot w name).1 = .ok () → ∀ other, Has (takeSnapshot w name).2.host other ↔ _
  unfold takeSnapshot
  split
  · nofun
  · dsimp only
    split
    next v hmade =>
      -- The view is made on the machine, not on the pool.
      have hhost : v.host = (note w ("zfs snapshot " ++ name)).host :=
        (congrArg (fun made => made.2.host) hmade).symm
      intro _ other
      change other ∈ v.host.props.datasets ++ (v.host.props.snapshots ++ [name]) ↔
        other ∈ w.host.props.datasets ++ w.host.props.snapshots ∨ other = name
      rw [hhost, ← List.append_assoc, List.mem_append, List.mem_singleton]
      rfl
    · nofun

end Rehearsal.Bench

namespace PoolSnapshot

variable {has : σ → String → Prop} {pool : String} {purpose : Purpose} {t : Instant} {j k n : Nat}

/-! ## The names of one second -/

/-- The name that is tried after `k` others. -/
def nameAt (base : String) : Nat → String
  | 0 => base
  | k + 1 => base ++ "-" ++ String.ofList (decimal (k + 1))

/-- The snapshot that is tried after `k` others. -/
def candidate (pool : String) (purpose : Purpose) (t : Instant) (k : Nat) : PoolSnapshot :=
  ⟨pool, nameAt (baseName purpose t) k⟩

theorem candidate_of_sameSecond {t' : Instant} (h : t'.SameSecond t) :
    candidate pool purpose t' = candidate pool purpose t := by
  funext k
  rw [candidate, baseName, h.compactText_eq]
  rfl

theorem length_candidates (base : String) : (candidates base).length = maxSuffix + 1 := by
  rw [candidates, List.length_cons, List.length_map, List.length_range]

theorem getElem_candidates (base : String) (h : k < (candidates base).length) :
    (candidates base)[k] = nameAt base k := by
  cases k with
  | zero => rfl
  | succ k => simp [candidates, nameAt]

theorem drop_candidates (base : String) (hk : k ≤ maxSuffix) :
    (candidates base).drop k = nameAt base k :: (candidates base).drop (k + 1) := by
  have hlt : k < (candidates base).length := by
    rw [length_candidates]
    omega
  rw [List.drop_eq_getElem_cons hlt, getElem_candidates]

/-- The last mark divides the text, whatever stands before it. -/
theorem append_mark_inj {mark : Char} {before before' after after' : List Char}
    (hafter : mark ∉ after) (hafter' : mark ∉ after')
    (h : before ++ mark :: after = before' ++ mark :: after') : after = after' := by
  -- If one mark came before the other, the other one would be in what follows it.
  rcases List.append_eq_append_iff.mp h with ⟨gap, -, hgap⟩ | ⟨gap, -, hgap⟩
  · cases gap with
    | nil => exact (List.cons.inj hgap).2
    | cons c gap => exact (hafter (by rw [(List.cons.inj hgap).2]; simp)).elim
  · cases gap with
    | nil => exact (List.cons.inj hgap).2.symm
    | cons c gap => exact (hafter' (by rw [(List.cons.inj hgap).2]; simp)).elim

theorem baseName_noAt (purpose : Purpose) (t : Instant) : '@' ∉ (baseName purpose t).toList := by
  rw [baseName, String.toList_append, List.mem_append]
  rintro (hlead | htime)
  · cases purpose <;> simp [lead] at hlead
  · rcases Instant.mem_compactText htime with hdigit | hmark | hmark
    · exact absurd hdigit (by decide)
    · exact absurd hmark (by decide)
    · exact absurd hmark (by decide)

theorem nameAt_noAt {base : String} (hbase : '@' ∉ base.toList) (k : Nat) :
    '@' ∉ (nameAt base k).toList := by
  cases k with
  | zero => exact hbase
  | succ k =>
    simp only [nameAt, String.toList_append, String.toList_ofList, List.mem_append, not_or]
    refine ⟨⟨hbase, by decide⟩, fun hdigit => ?_⟩
    exact absurd (Nat.isDigit_of_mem_toDigits (by decide) (by decide) hdigit) (by decide)

/-- Pools may be called what they like; the names of two snapshots differ if the full names do not. -/
theorem nameAt_of_fullName {pool' : String} {purpose' : Purpose} {t' : Instant}
    (h : (candidate pool purpose t j).fullName = (candidate pool' purpose' t' k).fullName) :
    nameAt (baseName purpose t) j = nameAt (baseName purpose' t') k := by
  have hchars := congrArg String.toList h
  simp only [fullName, candidate, String.toList_append, List.append_assoc] at hchars
  exact String.toList_injective (append_mark_inj (nameAt_noAt (baseName_noAt purpose t) j)
    (nameAt_noAt (baseName_noAt purpose' t') k) hchars)

theorem nameAt_injective {base : String} (h : nameAt base j = nameAt base k) : j = k := by
  have hlength (k : Nat) : base ≠ base ++ "-" ++ String.ofList (decimal (k + 1)) := by
    intro hbase
    have hcount := congrArg String.length hbase
    simp only [String.length_append] at hcount
    have hone : ("-" : String).length = 1 := rfl
    omega
  cases j with
  | zero =>
    cases k with
    | zero => rfl
    | succ k => exact (hlength k h).elim
  | succ j =>
    cases k with
    | zero => exact (hlength j h.symm).elim
    | succ k =>
      have hdigits : decimal (j + 1) = decimal (k + 1) :=
        String.ofList_injective ((String.append_right_inj _).mp h)
      have hvalue := congrArg (Nat.ofDigitChars 10 · 0) hdigits
      simpa [decimal] using hvalue

theorem fullName_injective
    (h : (candidate pool purpose t j).fullName = (candidate pool purpose t k).fullName) : j = k :=
  nameAt_injective (nameAt_of_fullName h)

/-- A name says what the snapshot is for. -/
theorem purpose_of_fullName {pool' : String} {purpose' : Purpose} {t' : Instant}
    (h : (candidate pool purpose t j).fullName = (candidate pool' purpose' t' k).fullName) :
    purpose = purpose' := by
  have hfirst (purpose : Purpose) (t : Instant) (k : Nat) :
      (nameAt (baseName purpose t) k).toList.head? = (lead purpose).toList.head? := by
    cases k <;> cases purpose <;> simp [nameAt, baseName, lead, String.toList_append]
  have hleads : (lead purpose).toList.head? = (lead purpose').toList.head? := by
    rw [← hfirst purpose t j, ← hfirst purpose' t' k, nameAt_of_fullName h]
  cases purpose <;> cases purpose' <;> simp [lead] at hleads ⊢

/-- The `k`-th name is the first one that is free. -/
def IsFirstFree (has : String → Prop) (pool : String) (purpose : Purpose) (t : Instant) (k : Nat) : Prop :=
  (∀ j < k, has (candidate pool purpose t j).fullName) ∧ ¬ has (candidate pool purpose t k).fullName

theorem exists_isFirstFree {has : String → Prop}
    (h : ∃ k ≤ maxSuffix, ¬ has (candidate pool purpose t k).fullName) :
    ∃ k ≤ maxSuffix, IsFirstFree has pool purpose t k := by
  classical
  obtain ⟨n, hn, hfree⟩ := h
  have hexists : ∃ k, ¬ has (candidate pool purpose t k).fullName := ⟨n, hfree⟩
  refine ⟨Nat.find hexists, Nat.le_trans (Nat.find_min' hexists hfree) hn, ⟨fun j hj => ?_,
    Nat.find_spec hexists⟩⟩
  exact not_not.mp (Nat.find_min hexists hj)

/-! ## The search -/

/-- The questions for the first `k` names, all of which the pool has, the latest first. -/
def passed (pool : String) (purpose : Purpose) (t : Instant) : Nat → List Event
  | 0 => []
  | k + 1 => .called (.datasetExists (candidate pool purpose t k).fullName) true :: passed pool purpose t k

theorem runIn_firstFree?_cons (name : String) (names : List String) :
    runIn ctx (firstFree? pool (name :: names)) w =
      if (ctx.host (.datasetExists (PoolSnapshot.mk pool name).fullName) w).1 then
        runIn ctx (firstFree? pool names)
          (ctx.host.after (.datasetExists (PoolSnapshot.mk pool name).fullName) w)
      else (.ok (some ⟨pool, name⟩),
        ctx.host.after (.datasetExists (PoolSnapshot.mk pool name).fullName) w) := by
  let question : Call := .datasetExists (PoolSnapshot.mk pool name).fullName
  change runIn ctx (if (ctx.host question w).1 = true then firstFree? pool names
    else pure (some ⟨pool, name⟩)) (ctx.host.after question w) = _
  split <;> rfl

/-- Names that the pool has are passed over. -/
theorem firstFree?_passes (htruthful : ctx.host.Truthful has) (w : World σ) : ∀ k ≤ maxSuffix + 1,
    (∀ j < k, has w.host (candidate pool purpose t j).fullName) →
      ∃ v, ctx.host.Exchange w (passed pool purpose t k) v ∧ has v.host = has w.host ∧
        runIn ctx (firstFree? pool (candidates (baseName purpose t))) w =
          runIn ctx (firstFree? pool ((candidates (baseName purpose t)).drop k)) v
  | 0, _, _ => ⟨w, .start, rfl, rfl⟩
  | k + 1, hk, hhas => by
    obtain ⟨v, hes, hsame, hrun⟩ :=
      firstFree?_passes htruthful w k (by omega) fun j hj => hhas j (by omega)
    let question : Call := .datasetExists (candidate pool purpose t k).fullName
    have hanswer : (ctx.host question v).1 = true := by
      rw [htruthful.answers, hsame]
      exact hhas k (by omega)
    have hasked : ctx.host.Exchange w (.called question true :: passed pool purpose t k)
        (ctx.host.after question v) := hanswer ▸ hes.call question
    refine ⟨ctx.host.after question v, hasked, (htruthful.unchanged _ v).trans hsame, ?_⟩
    rw [hrun, drop_candidates _ (by omega), runIn_firstFree?_cons]
    exact if_pos hanswer

/-- With the first name that is free the search is over. -/
theorem firstFree?_stops (htruthful : ctx.host.Truthful has) (w : World σ) (hk : k ≤ maxSuffix)
    (hhas : ∀ j < k, has w.host (candidate pool purpose t j).fullName)
    (hfree : ¬ has w.host (candidate pool purpose t k).fullName) :
    ∃ v, ctx.host.Exchange w (.called (.datasetExists (candidate pool purpose t k).fullName) false ::
        passed pool purpose t k) v ∧ has v.host = has w.host ∧
      runIn ctx (firstFree? pool (candidates (baseName purpose t))) w =
        (.ok (some (candidate pool purpose t k)), v) := by
  obtain ⟨v, hes, hsame, hrun⟩ := firstFree?_passes htruthful w k (by omega) hhas
  let question : Call := .datasetExists (candidate pool purpose t k).fullName
  have hanswer : (ctx.host question v).1 = false := by
    rw [← Bool.not_eq_true, htruthful.answers, hsame]
    exact hfree
  refine ⟨ctx.host.after question v, hanswer ▸ hes.call question,
    (htruthful.unchanged _ v).trans hsame, ?_⟩
  rw [hrun, drop_candidates _ hk, runIn_firstFree?_cons]
  exact if_neg (Bool.not_eq_true _ ▸ hanswer)

/-- The name that was found is the one name that the pool is asked to take a snapshot under. -/
theorem runIn_take_of_found {s : PoolSnapshot} {v : World σ}
    (hfound : runIn ctx (firstFree? pool (candidates (baseName purpose t))) w = (.ok (some s), v)) :
    runIn ctx (take pool purpose t) w = ((ctx.host (.snapshot s.fullName) v).1.map fun _ => s,
      ctx.host.after (.snapshot s.fullName) v) := by
  rw [take, runIn_bind, hfound]
  simp only [runIn_bind, runIn_call, runIn_ofReply, Host.after]
  cases (ctx.host (.snapshot s.fullName) v).1 <;> rfl

/-- If no name is free, the pool is not asked for a snapshot. -/
theorem take_of_full (htruthful : ctx.host.Truthful has) (w : World σ)
    (hhas : ∀ k ≤ maxSuffix, has w.host (candidate pool purpose t k).fullName) :
    ∃ v, ctx.host.Exchange w (passed pool purpose t (maxSuffix + 1)) v ∧
      runIn ctx (take pool purpose t) w =
        (.error ⟨.snapshot, "no free snapshot name for " ++ pool ++ "@" ++ baseName purpose t⟩, v) := by
  obtain ⟨v, hes, -, hrun⟩ := firstFree?_passes htruthful w (maxSuffix + 1) le_rfl
    fun j hj => hhas j (by omega)
  refine ⟨v, hes, ?_⟩
  rw [List.drop_of_length_le (Nat.le_of_eq (length_candidates _)), firstFree?, runIn_pure] at hrun
  rw [take, runIn_bind, hrun]
  rfl

/-! ## One snapshot after the other -/

/-- A snapshot that could be taken has the first name that was free, and the pool has that name now. -/
theorem taken_of_ok (htruthful : ctx.host.Truthful has) (hregisters : ctx.host.Registers has)
    {s : PoolSnapshot} {v : World σ} (htake : runIn ctx (take pool purpose t) w = (.ok s, v)) :
    ∃ k ≤ maxSuffix, IsFirstFree (has w.host) pool purpose t k ∧ s = candidate pool purpose t k ∧
      ∀ other, has v.host other ↔ has w.host other ∨ other = (candidate pool purpose t k).fullName := by
  by_cases hsome : ∃ k ≤ maxSuffix, ¬ has w.host (candidate pool purpose t k).fullName
  · obtain ⟨k, hk, hhas, hfree⟩ := exists_isFirstFree hsome
    obtain ⟨u, -, hsame, hfound⟩ := firstFree?_stops htruthful w hk hhas hfree
    rw [runIn_take_of_found hfound, Prod.mk.injEq] at htake
    obtain ⟨hresult, rfl⟩ := htake
    cases hreply : (ctx.host (.snapshot (candidate pool purpose t k).fullName) u).1 with
    | error f =>
      rw [hreply] at hresult
      cases hresult
    | ok _ =>
      rw [hreply] at hresult
      cases hresult
      exact ⟨k, hk, ⟨hhas, hfree⟩, rfl, fun other => hsame ▸ hregisters _ u hreply other⟩
  · simp only [not_exists, not_and, not_not] at hsome
    obtain ⟨u, -, hrefused⟩ := take_of_full htruthful w hsome
    cases hrefused.symm.trans htake

/-- Of the names for the purpose in that second, the pool has lost none. -/
def KeepsNames (has : σ → String → Prop) (pool : String) (purpose : Purpose) (t : Instant)
    (v v' : World σ) : Prop :=
  ∀ k ≤ maxSuffix, has v.host (candidate pool purpose t k).fullName →
    has v'.host (candidate pool purpose t k).fullName

/-- Of the names for the purpose in that second, the pool has the same ones as before. -/
def SameNames (has : σ → String → Prop) (pool : String) (purpose : Purpose) (t : Instant)
    (v v' : World σ) : Prop :=
  ∀ k ≤ maxSuffix, has v'.host (candidate pool purpose t k).fullName ↔
    has v.host (candidate pool purpose t k).fullName

/-- Snapshots are taken one after the other, each at its instant. In between happens what `Between` says. -/
inductive Series (ctx : Context σ) (Between : World σ → World σ → Prop) (pool : String)
    (purpose : Purpose) : World σ → List Instant → List PoolSnapshot → World σ → Prop where
  | done (w : World σ) : Series ctx Between pool purpose w [] [] w
  | next {w v v' w' : World σ} {t : Instant} {s : PoolSnapshot} {ts : List Instant}
    {ss : List PoolSnapshot} (htake : runIn ctx (take pool purpose t) w = (.ok s, v))
    (hbetween : Between v v') (hrest : Series ctx Between pool purpose v' ts ss w') :
    Series ctx Between pool purpose w (t :: ts) (s :: ss) w'

section Series

variable {ts : List Instant} {ss : List PoolSnapshot} (htruthful : ctx.host.Truthful has)
  (hregisters : ctx.host.Registers has) (hsecond : ∀ t' ∈ ts, t'.SameSecond t)

include htruthful hregisters hsecond

/-- If no name is lost in between, each snapshot has a later name than the ones before it. -/
theorem Series.increases (h : Series ctx (KeepsNames has pool purpose t) pool purpose w ts ss w')
    (hn : n ≤ maxSuffix + 1) (hhas : ∀ k < n, has w.host (candidate pool purpose t k).fullName) :
    n + ts.length ≤ maxSuffix + 1 ∧ ∃ ks : List Nat, ss = ks.map (candidate pool purpose t) ∧
      (∀ k ∈ ks, n ≤ k) ∧ ks.Pairwise (· < ·) := by
  -- Whatever the pool has up to the last name that was given out, it still has at the next snapshot.
  induction h generalizing n with
  | done w => exact ⟨hn, [], rfl, by simp, .nil⟩
  | @next w v v' w' t' s ts ss htake hkept hrest ih =>
    obtain ⟨hnow, hlater⟩ := List.forall_mem_cons.mp hsecond
    obtain ⟨k, hk, ⟨hbefore, hfree⟩, rfl, hadded⟩ := taken_of_ok htruthful hregisters htake
    rw [candidate_of_sameSecond hnow] at hbefore hfree hadded ⊢
    have hnk : n ≤ k := Nat.le_of_not_lt fun hlt => hfree (hhas k hlt)
    have hhas' : ∀ j < k + 1, has v'.host (candidate pool purpose t j).fullName := by
      intro j hj
      refine hkept j (by omega) ((hadded _).mpr ?_)
      rcases Nat.lt_succ_iff_lt_or_eq.mp hj with hlt | rfl
      · exact .inl (hbefore j hlt)
      · exact .inr rfl
    obtain ⟨hlength, ks, rfl, hafter, hks⟩ := ih hlater (by omega) hhas'
    refine ⟨by rw [List.length_cons]; omega, k :: ks, rfl, ?_, hks.cons hafter⟩
    exact List.forall_mem_cons.mpr ⟨hnk, fun j hj => Nat.le_trans (Nat.le_succ_of_le hnk) (hafter j hj)⟩

/-- If nobody else takes a name either, and the names that are needed are free, no name is left out. -/
theorem Series.names (h : Series ctx (SameNames has pool purpose t) pool purpose w ts ss w')
    (hhas : ∀ k < n, has w.host (candidate pool purpose t k).fullName)
    (hfree : ∀ k ≤ maxSuffix, n ≤ k → k < n + ts.length →
      ¬ has w.host (candidate pool purpose t k).fullName) :
    ss = (List.range' n ts.length).map (candidate pool purpose t) := by
  -- Each snapshot moves the border between the names that are taken and those that are free by one.
  induction h generalizing n with
  | done w => rfl
  | @next w v v' w' t' s ts ss htake hsame hrest ih =>
    obtain ⟨hnow, hlater⟩ := List.forall_mem_cons.mp hsecond
    obtain ⟨k, hk, ⟨hbefore, hfirst⟩, rfl, hadded⟩ := taken_of_ok htruthful hregisters htake
    rw [candidate_of_sameSecond hnow] at hbefore hfirst hadded ⊢
    rw [List.length_cons] at hfree
    obtain rfl : k = n := by
      rcases Nat.lt_trichotomy k n with hlt | hkn | hgt
      · exact (hfirst (hhas k hlt)).elim
      · exact hkn
      · exact (hfree n (by omega) le_rfl (by omega) (hbefore n hgt)).elim
    have hnow' (j : Nat) (hj : j ≤ maxSuffix) : has v'.host (candidate pool purpose t j).fullName ↔
        has w.host (candidate pool purpose t j).fullName ∨ j = k := by
      rw [hsame j hj, hadded]
      exact or_congr_right ⟨fun h => fullName_injective h, fun h => h ▸ rfl⟩
    have hhas' : ∀ j < k + 1, has v'.host (candidate pool purpose t j).fullName := fun j hj =>
      (hnow' j (by omega)).mpr ((Nat.lt_succ_iff_lt_or_eq.mp hj).imp_left (hhas j))
    have hfree' : ∀ j ≤ maxSuffix, k + 1 ≤ j → j < k + 1 + ts.length →
        ¬ has v'.host (candidate pool purpose t j).fullName := by
      intro j hj hafter hlast
      rw [hnow' j hj, not_or]
      exact ⟨hfree j hj (by omega) (by omega), by omega⟩
    rw [ih hlater hhas' hfree', List.length_cons, List.range'_succ, List.map_cons]

end Series

/-- A snapshot for the other purpose is nothing to the names. -/
theorem sameNames_of_take (htruthful : ctx.host.Truthful has) (hregisters : ctx.host.Registers has)
    {pool' : String} {purpose' : Purpose} {t' : Instant} {s : PoolSnapshot} {v : World σ}
    (hne : purpose ≠ purpose') (htake : runIn ctx (take pool' purpose' t') w = (.ok s, v)) :
    SameNames has pool purpose t w v := by
  intro k hk
  obtain ⟨j, -, -, -, hadded⟩ := taken_of_ok htruthful hregisters htake
  rw [hadded]
  exact or_iff_left fun h => hne (purpose_of_fullName h)

/-! ## What comes of it -/

/-- A snapshot gets the first name that is free: the pool is asked for names up to that one, and then once
for a snapshot, and what it says to that is the result. If no name is free it is not asked for a snapshot.
So the snapshots of one second have different names in their order, without a gap if nobody else takes one,
and what a snapshot is for can be told from its name, whatever its pool is called. -/
theorem take_first_free (htruthful : ctx.host.Truthful has) (pool : String) (purpose : Purpose)
    (t : Instant) :
    (∀ w : World σ, (∃ k ≤ maxSuffix, ¬ has w.host (candidate pool purpose t k).fullName) →
      ∃ k ≤ maxSuffix, IsFirstFree (has w.host) pool purpose t k ∧ ∃ reply w',
        runIn ctx (take pool purpose t) w = (reply.map fun _ => candidate pool purpose t k, w') ∧
        ctx.host.Exchange w (.called (.snapshot (candidate pool purpose t k).fullName) reply ::
          .called (.datasetExists (candidate pool purpose t k).fullName) false ::
          passed pool purpose t k) w') ∧
    (∀ w : World σ, (∀ k ≤ maxSuffix, has w.host (candidate pool purpose t k).fullName) →
      ∃ w', runIn ctx (take pool purpose t) w =
          (.error ⟨.snapshot, "no free snapshot name for " ++ pool ++ "@" ++ baseName purpose t⟩, w') ∧
        ctx.host.Exchange w (passed pool purpose t (maxSuffix + 1)) w') ∧
    (ctx.host.Registers has → ∀ w ts ss w', (∀ t' ∈ ts, t'.SameSecond t) →
      (Series ctx (KeepsNames has pool purpose t) pool purpose w ts ss w' →
        ts.length ≤ maxSuffix + 1 ∧ (ss.map fullName).Nodup ∧
          ∃ ks : List Nat, ss = ks.map (candidate pool purpose t) ∧ ks.Pairwise (· < ·)) ∧
      (Series ctx (SameNames has pool purpose t) pool purpose w ts ss w' →
        (∀ k < ts.length, ¬ has w.host (candidate pool purpose t k).fullName) →
        (ss.map fullName).Nodup ∧ ss = (List.range ts.length).map (candidate pool purpose t))) ∧
    ∀ pool' purpose' t' j k, purpose ≠ purpose' →
      (candidate pool purpose t j).fullName ≠ (candidate pool' purpose' t' k).fullName := by
  have hnodup {ks : List Nat} (hks : ks.Nodup) :
      ((ks.map (candidate pool purpose t)).map fullName).Nodup := by
    rw [List.map_map]
    exact hks.map fun j k h => fullName_injective h
  refine ⟨fun w hsome => ?_, fun w hall => ?_, fun hregisters w ts ss w' hsecond => ⟨fun h => ?_,
    fun h hfree => ?_⟩, fun pool' purpose' t' j k hne h => ?_⟩
  · obtain ⟨k, hk, hhas, hfree⟩ := exists_isFirstFree hsome
    obtain ⟨v, hes, -, hfound⟩ := firstFree?_stops htruthful w hk hhas hfree
    exact ⟨k, hk, ⟨hhas, hfree⟩, _, _, runIn_take_of_found hfound, hes.call _⟩
  · obtain ⟨v, hes, hrun⟩ := take_of_full htruthful w hall
    exact ⟨v, hrun, hes⟩
  · obtain ⟨hlength, ks, rfl, -, hks⟩ :=
      h.increases htruthful hregisters hsecond (Nat.zero_le _) nofun
    exact ⟨by omega, hnodup (hks.imp Nat.ne_of_lt), ks, rfl, hks⟩
  · have hss := h.names (n := 0) htruthful hregisters hsecond nofun fun k _ _ hk => hfree k (by omega)
    rw [← List.range_eq_range'] at hss
    exact ⟨hss ▸ hnodup List.nodup_range, hss⟩
  · exact hne (purpose_of_fullName h)

/-- A service on a bench. -/
def benched : Context (Scene Bench) := Bench.context {}

/-- A bench with these snapshots on the pool. -/
def benchWith (snapshots : List String) : Play Bench :=
  ⟨{}, {}, { props := { directory := "/", makesViews := false, snapshots } }, []⟩

/-- The start of 1970. -/
def epoch : Instant := ⟨0, 0⟩

/-- A bench on which the second name is free, and not the first one and the third one. -/
def gapped : Play Bench :=
  benchWith ["local@before-restore-19700101-000000", "local@before-restore-19700101-000000-2"]

/-- A bench on which no name is free. -/
def crowded : Play Bench :=
  benchWith ((List.range (maxSuffix + 1)).map fun k => (candidate "local" .safety epoch k).fullName)

/-- The bench after one more snapshot. -/
def benchAfter (purpose : Purpose) (t : Instant) (w : Play Bench) : Play Bench :=
  (runIn benched (take "local" purpose t) w).2

theorem runIn_benched {s : PoolSnapshot} {w : Play Bench}
    (h : (runIn benched (take "local" purpose t) w).1 = .ok s) :
    runIn benched (take "local" purpose t) w = (.ok s, benchAfter purpose t w) := Prod.ext h rfl

/-- The gap is filled, and on the crowded bench nothing is done. On an empty one the names are given out in
their order although a backup comes in between, and if somebody else takes a name it is left out. -/
theorem take_first_free_benched :
    (∃ w', runIn benched (take "local" .safety epoch) gapped =
      (.ok ⟨"local", "before-restore-19700101-000000-1"⟩, w')) ∧
    (∃ w', runIn benched (take "local" .safety epoch) crowded =
      (.error ⟨.snapshot, "no free snapshot name for local@before-restore-19700101-000000"⟩, w')) ∧
    (∃ ss w', Series benched (KeepsNames Bench.Has "local" .safety epoch) "local" .safety
        (benchWith []) [epoch, ⟨0, 5⟩] ss w' ∧ (ss.map fullName).Nodup ∧
      ss.map fullName = ["local@before-restore-19700101-000000",
        "local@before-restore-19700101-000000-2"]) ∧
    (∃ ss w', Series benched (SameNames Bench.Has "local" .safety epoch) "local" .safety
        (benchWith []) [epoch, ⟨0, 5⟩, ⟨0, 999999999⟩] ss w' ∧ (ss.map fullName).Nodup ∧
      ss.map fullName = ["local@before-restore-19700101-000000",
        "local@before-restore-19700101-000000-1", "local@before-restore-19700101-000000-2"]) ∧
    (candidate "local" .safety epoch 0).fullName ≠ (candidate "local" .backup epoch 0).fullName := by
  have htruthful : benched.host.Truthful Bench.Has := Bench.host_truthful
  have hregisters : benched.host.Registers Bench.Has := Bench.host_registers
  obtain ⟨hsome, hnone, hseries, hpurpose⟩ := take_first_free htruthful "local" .safety epoch
  refine ⟨?_, ?_, ?_, ?_, hpurpose "local" .backup epoch 0 0 (by decide)⟩
  · have hfirst : Bench.Has gapped.host (candidate "local" .safety epoch 0).fullName := by decide +kernel
    have hsecond : ¬ Bench.Has gapped.host (candidate "local" .safety epoch 1).fullName := by
      decide +kernel
    obtain ⟨k, -, ⟨hhas, hfree⟩, reply, w', hrun, -⟩ := hsome gapped ⟨1, by decide, hsecond⟩
    obtain rfl : k = 1 := by
      rcases Nat.lt_trichotomy k 1 with hbefore | hk | hafter
      · obtain rfl : k = 0 := by omega
        exact (hfree hfirst).elim
      · exact hk
      · exact (hsecond (hhas 1 hafter)).elim
    have hok : (runIn benched (take "local" .safety epoch) gapped).1 =
        .ok ⟨"local", "before-restore-19700101-000000-1"⟩ := by decide +kernel
    rw [hrun] at hok
    exact ⟨w', hrun.trans (congrArg (·, w') hok)⟩
  · have hbase : baseName .safety epoch = "before-restore-19700101-000000" := by decide +kernel
    obtain ⟨w', hrun, -⟩ := hnone crowded fun k hk =>
      List.mem_append_right _ (List.mem_map_of_mem (List.mem_range.mpr (Nat.lt_succ_of_le hk)))
    rw [hbase] at hrun
    exact ⟨w', hrun⟩
  · have hleft : ∀ name ∈ (benchAfter .safety epoch (benchWith [])).host.props.datasets ++
        (benchAfter .safety epoch (benchWith [])).host.props.snapshots,
        Bench.Has (benchWith ["local@before-restore-19700101-000000",
          "local@before-restore-19700101-000000-1"]).host name := by decide +kernel
    have hkept : KeepsNames Bench.Has "local" .safety epoch _ _ := fun k _ h => hleft _ h
    have hcourse : Series benched (KeepsNames Bench.Has "local" .safety epoch) "local" .safety
        (benchWith []) [epoch, ⟨0, 5⟩]
        [candidate "local" .safety epoch 0, candidate "local" .safety epoch 2] _ :=
      .next (runIn_benched (by decide +kernel)) hkept
        (.next (runIn_benched (by decide +kernel)) (fun _ _ => id) (.done _))
    have hsecond : ∀ t' ∈ [epoch, ⟨0, 5⟩], t'.SameSecond epoch := by
      simp [Instant.SameSecond, Instant.isLeap, epoch, nanosPerSecond]
    obtain ⟨hnames, -⟩ := hseries hregisters _ _ _ _ hsecond
    exact ⟨_, _, hcourse, (hnames hcourse).2.1, by decide +kernel⟩
  · have hbackup : (runIn benched (take "local" .backup ⟨0, 7⟩) (benchAfter .safety ⟨0, 5⟩
        (benchAfter .safety epoch (benchWith [])))).1 = .ok (candidate "local" .backup epoch 0) := by
      decide +kernel
    have hbetween : SameNames Bench.Has "local" .safety epoch _ _ :=
      sameNames_of_take htruthful hregisters (by decide) (runIn_benched hbackup)
    have hcourse : Series benched (SameNames Bench.Has "local" .safety epoch) "local" .safety
        (benchWith []) [epoch, ⟨0, 5⟩, ⟨0, 999999999⟩]
        ((List.range 3).map (candidate "local" .safety epoch)) _ :=
      .next (runIn_benched (by decide +kernel)) (fun _ _ => Iff.rfl)
        (.next (runIn_benched (by decide +kernel)) hbetween
          (.next (runIn_benched (by decide +kernel)) (fun _ _ => Iff.rfl) (.done _)))
    have hsecond : ∀ t' ∈ [epoch, ⟨0, 5⟩, ⟨0, 999999999⟩], t'.SameSecond epoch := by
      simp [Instant.SameSecond, Instant.isLeap, epoch, nanosPerSecond]
    obtain ⟨-, hnames⟩ := hseries hregisters _ _ _ _ hsecond
    exact ⟨_, _, hcourse, (hnames hcourse (by decide +kernel)).1, by decide +kernel⟩

end PoolSnapshot

end PoolKeeper
