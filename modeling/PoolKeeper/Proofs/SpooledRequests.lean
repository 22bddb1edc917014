import PoolKeeper.Proofs.IdleSpool
import PoolKeeper.Proofs.Lifetime

/-!
# `PoolKeeper/Proofs/SpooledRequests.lean` — through the spool or directly

Whether requests are handed over in a spool or applied at once makes no difference: the same outcomes, the
same calls and updates in the same order, and the same world at the end (`Service.applyPending_submitted`).
The world is the same down to the disk, because the spool is as it was once the requests were taken, and
they are taken before the first of them is applied.

A second look into the spool finds nothing to apply. For that the host must not put requests there itself,
and the path of the spool must not lead to another directory by then: a restore makes and removes a
directory, and a spool whose path goes through that one can get lost.
-/

set_option autoImplicit false

namespace PoolKeeper

open Operation

variable {σ : Type} {ctx : Context σ} {w : World σ} {dir : String} {m n m' : Machine}
  {subs : List Submission}

/-- What a submission asks the service for. -/
def Submission.action (s : Submission) : Service.Action := .apply s.request

namespace Spool

/-! ## From the first submission to the first look -/

/-- A spool that was made sure of and in which nothing waits. -/
theorem exists_at (hmade : (ensure dir).run.run m = (.ok (), n))
    (hnone : (pending dir).run.run n = (.ok [], n)) :
    ∃ loc, At n.disk n.cwd dir loc ∧ Empty n.disk loc := by
  obtain ⟨-, loc, hloc, hdir, hnames⟩ := run_pending_iff.mp hnone
  refine ⟨loc, at_of_ensure hmade hloc hdir, fun name hname => ?_⟩
  intro x hx heq
  have hlisted : name ∈ n.disk.names loc := List.mem_filterMap.mpr ⟨x, hx, by rw [heq]; exact if_pos rfl⟩
  have hmem : name ∈ (n.disk.names loc).mergeSort.filter isRequestName :=
    List.mem_filter.mpr ⟨(List.mergeSort_perm _ _).symm.subset hlisted, hname⟩
  rw [← hnames] at hmem
  cases hmem

/-- Requests with increasing readings of the clock can be handed over if and only if their names fit. -/
theorem exists_submitted_iff (hmade : (ensure dir).run.run m = (.ok (), n))
    (hnone : (pending dir).run.run n = (.ok [], n))
    (hclock : (subs.map Submission.clock).Pairwise (· < ·))
    (hdigits : ∀ s ∈ subs, s.clock < Nat.pow 10 20) :
    (∃ m', Submitted dir m subs m') ↔ ∀ s ∈ subs, Fits dir s.name := by
  obtain ⟨loc, hat, hempty⟩ := exists_at hmade hnone
  have hsame {m' : Machine} : Submitted dir m subs m' ↔ Submitted dir n subs m' :=
    submitted_iff hmade (run_ensure_at hat)
  constructor
  · rintro ⟨m', hm'⟩
    exact (submitted_stacked hat hempty (.none _ loc) (hsame.mp hm')).1
  · intro hfits
    obtain ⟨m', hm'⟩ := exists_submitted hat hempty (.none _ loc) hfits (by simp)
      (Submission.nodup_names hclock hdigits)
    exact ⟨m', hsame.mpr hm'⟩

/-- What is taken is what was handed over, and the disk is as it was. -/
theorem take_submitted (hmade : (ensure dir).run.run m = (.ok (), n))
    (hnone : (pending dir).run.run n = (.ok [], n)) (hsubs : Submitted dir m subs m') :
    (take dir).run.run m' = (.ok ((subs.mergeSort Submission.before).map Submission.request), n) := by
  obtain ⟨loc, hat, hempty⟩ := exists_at hmade hnone
  rw [submitted_iff hmade (run_ensure_at hat)] at hsubs
  obtain ⟨hfits, files, d', rfl, hfiles, hperm⟩ := submitted_stacked hat hempty (.none _ loc) hsubs
  rw [List.append_nil] at hperm
  exact run_take (m := { n with disk := d' }) hat hempty hfiles hperm hfits

end Spool

namespace Service

/-! ## Applying -/

/-- Applying several requests is applying one after the other, whatever becomes of each. -/
theorem runIn_applyAll (ctx : Context σ) : ∀ (rs : List Request) (w : World σ),
    runIn ctx (applyAll rs) w =
      (.ok (outcomes ctx w (rs.map .apply)), after ctx w (rs.map .apply))
  | [], _ => rfl
  | r :: rs, w => by
    rw [applyAll, runIn_bind, runIn_outcome]
    simp only
    rw [runIn_bind, runIn_applyAll ctx rs]
    rfl

theorem runIn_applyPending (dir : String) : runIn ctx (applyPending dir) w =
    match (Spool.take dir).run.run w.machine with
      | (.error f, m) => (.error f, { w with machine := m })
      | (.ok rs, m) => (.ok (outcomes ctx { w with machine := m } (rs.map .apply)),
          after ctx { w with machine := m } (rs.map .apply)) := by
  rw [applyPending, runIn_bind, onFiles, runIn_bind, runIn_onMachine]
  rcases (Spool.take dir).run.run w.machine with ⟨f | rs, m⟩
  · rfl
  · exact runIn_applyAll ctx rs _

/-- A look into the spool applies nothing. It can only fail where there is no directory. -/
def AppliesNothing (ctx : Context σ) (dir : String) (w : World σ) : Prop :=
  ∃ m, runIn ctx (applyPending dir) w = (.ok [], { w with machine := m }) ∨
    ¬ w.machine.HasDirectory dir ∧
      ∃ f, runIn ctx (applyPending dir) w = (.error f, { w with machine := m })

/-- The host puts no requests into the directory. -/
def HandsNothingOver (host : Host σ) (loc : Loc) : Prop :=
  ∀ c w, Spool.Idle w.machine.disk loc → Spool.Idle (host c w).2.machine.disk loc

variable {loc : Loc}

theorem setRecord_idle (hw : Spool.Idle w.machine.disk loc) (path : String) (r : Record) :
    Spool.Idle (w.setRecord path r).machine.disk loc := by
  have hsaved := hw.save path r
  rw [World.setRecord_machine]
  generalize (r.save path) = saved at hsaved ⊢
  exact hsaved

theorem idle_staging (hhost : HandsNothingOver ctx.host loc) :
    StagingPreserves ctx (fun w => Spool.Idle w.machine.disk loc)
      fun w => Spool.Idle w.machine.disk loc where
  steps :=
    { call := fun {c} _ w hw => .call_exact (hhost c w hw)
      update := fun _ _ hw => .update_exact (setRecord_idle hw _ _)
      isThere := isThere_preserves _ }
  stage hw path := hw.makeStaging path
  resume hw _ := setRecord_idle hw _ _
  drop hw path := hw.dropStaging path

/-- Nothing that is asked of the service puts a request into a spool. -/
theorem after_idle (hhost : HandsNothingOver ctx.host loc) (hw : Spool.Idle w.machine.disk loc)
    (actions : List Action) : Spool.Idle (after ctx w actions).machine.disk loc :=
  after_keeps (P := fun w => Spool.Idle w.machine.disk loc) (idle_staging hhost).perform actions w hw

theorem appliesNothing_of_idle (h : Spool.Idle w.machine.disk loc)
    (hleads : ∀ place, w.machine.disk.resolve w.machine.cwd true dir = .ok place → place = loc) :
    AppliesNothing ctx dir w := by
  rw [AppliesNothing, runIn_applyPending]
  rcases Spool.take_idle h hleads with ⟨m, htake⟩ | ⟨hnone, f, m, htake⟩
  · rw [htake]
    exact ⟨m, .inl rfl⟩
  · rw [htake]
    exact ⟨m, .inr ⟨hnone, f, rfl⟩⟩

/-- Handing requests over and applying what waits is the same as applying them in the order of
submission: in what comes of each, in what is called and put in place, and in what is left. Each is applied
whatever became of those before, and there is nothing to apply the next time. They can all be handed over
unless the path of one is too long for the file system. Readings of a clock with 64 bits have no more than
twenty digits. -/
theorem applyPending_submitted (hmade : (Spool.ensure dir).run.run m = (.ok (), w.machine))
    (hnone : (Spool.pending dir).run.run w.machine = (.ok [], w.machine))
    (hclock : (subs.map Submission.clock).Pairwise (· < ·))
    (hdigits : ∀ s ∈ subs, s.clock < Nat.pow 10 20) :
    ((∃ m', Spool.Submitted dir m subs m') ↔ ∀ s ∈ subs, Spool.Fits dir s.name) ∧
    (∀ m', Spool.Submitted dir m subs m' → runIn ctx (applyPending dir) { w with machine := m' } =
      (.ok (outcomes ctx w (subs.map Submission.action)), after ctx w (subs.map Submission.action))) ∧
    (outcomes ctx w (subs.map Submission.action)).length = subs.length ∧
    ((∀ loc, w.machine.disk.resolve w.machine.cwd true dir = .ok loc → HandsNothingOver ctx.host loc) →
      (∀ loc, (after ctx w (subs.map Submission.action)).machine.disk.resolve
          (after ctx w (subs.map Submission.action)).machine.cwd true dir = .ok loc →
        w.machine.disk.resolve w.machine.cwd true dir = .ok loc) →
      AppliesNothing ctx dir (after ctx w (subs.map Submission.action))) := by
  refine ⟨Spool.exists_submitted_iff hmade hnone hclock hdigits, fun m' hsubs => ?_, ?_,
    fun hhost hleads => ?_⟩
  · -- All requests are taken before the first is applied, from a disk that is then as it was.
    have htake := Spool.take_submitted hmade hnone hsubs
    rw [Submission.mergeSort_eq hclock hdigits] at htake
    rw [runIn_applyPending, htake]
    simp only [List.map_map]
    rfl
  · rw [length_outcomes, List.length_map]
  · obtain ⟨loc, hat, hempty⟩ := Spool.exists_at hmade hnone
    have hidle := after_idle (hhost loc hat.leads) hempty.idle (subs.map Submission.action)
    refine appliesNothing_of_idle hidle fun place hplace => ?_
    exact Except.ok.inj ((hleads place hplace).symm.trans hat.leads)

/-- A service with a spool that was just made. -/
def spooling : World Unit := ⟨{}, ((Spool.ensure "/requests").run.run {}).2, (), []⟩

/-- Three requests of two processes. The first fails, because the service is not enabled yet, and the last
is for a snapshot whose name reads like no value at all. -/
def submissions : List Submission :=
  [⟨.backup, 7, 10, 0⟩, ⟨.update sampleConfig, 3, 200, 4⟩, ⟨.restore "null", 7, 3000, 1⟩]

theorem applyPending_submitted_three :
    (∃ m', Spool.Submitted "/requests" {} submissions m' ∧
      runIn agreeableContext (applyPending "/requests") { spooling with machine := m' } =
        (.ok (outcomes agreeableContext spooling (submissions.map Submission.action)),
          after agreeableContext spooling (submissions.map Submission.action))) ∧
      AppliesNothing agreeableContext "/requests"
        (after agreeableContext spooling (submissions.map Submission.action)) := by
  have hmade : (Spool.ensure "/requests").run.run {} = (.ok (), spooling.machine) := rfl
  have hleads : spooling.machine.disk.resolve spooling.machine.cwd true "/requests" = .ok ["requests"] := by
    decide +kernel
  have hnone : (Spool.pending "/requests").run.run spooling.machine = (.ok [], spooling.machine) := by
    refine Spool.run_pending_iff.mpr ⟨rfl, ["requests"], hleads, ⟨_, rfl⟩, ?_⟩
    rw [show spooling.machine.disk.names ["requests"] = [] from rfl]
    simp
  have hfits : ∀ s ∈ submissions, Spool.Fits "/requests" s.name := by
    unfold Spool.Fits Disk.IsPath
    decide +kernel
  have hclock : (submissions.map Submission.clock).Pairwise (· < ·) := by decide
  have hdigits : ∀ s ∈ submissions, s.clock < Nat.pow 10 20 := by decide
  obtain ⟨hsubmits, happly, -, hagain⟩ := applyPending_submitted hmade hnone hclock hdigits
  obtain ⟨m', hm'⟩ := hsubmits.mpr hfits
  refine ⟨⟨m', hm', happly m' hm'⟩, hagain (fun loc _ c w hw => ?_) ?_⟩
  · cases c <;> exact hw
  · have hstill : (after agreeableContext spooling
        (submissions.map Submission.action)).machine.disk.resolve
          (after agreeableContext spooling (submissions.map Submission.action)).machine.cwd true
            "/requests" = .ok ["requests"] := by decide +kernel
    intro loc hloc
    rw [hleads, ← hstill, hloc]

end Service

end PoolKeeper
