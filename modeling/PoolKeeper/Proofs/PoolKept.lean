import PoolKeeper.Proofs.RestoreOrder
import PoolKeeper.Proofs.Session

/-!
# `PoolKeeper/Proofs/PoolKept.lean` — what becomes of the snapshots on the pool

The service destroys snapshots of the pool, and the pool has others that it must not destroy: those that
were there before, and those that a restore can be undone with. What is destroyed is found out by no
question to the pool, so nothing here depends on what `datasetExists` answers. It depends on the order of
the events alone: a name comes into the hands of a backup when the pool takes a snapshot under it, and
goes out of them with its destruction, in the same cycle.

`Journal` is that order, as a machine over the journal whose state is the name that a backup has in its
hands. The events of every action are read by it from nothing in hand to nothing in hand again
(`parts_leave`). What it says about the pool needs two things of the pool (`PoolStep`): it refuses to
take a snapshot under a name that it has already, and it destroys at most what it was told to.
-/

set_option autoImplicit false

namespace PoolKeeper

/-! ## Events and the pool -/

namespace Service

/-- The full name is one that the passing snapshots of backups have. -/
def IsBackupName (pool name : String) : Prop :=
  ∃ rest, name = pool ++ "@" ++ (PoolSnapshot.lead .backup ++ rest)

/-- No snapshot has a name for both purposes. -/
theorem IsBackupName.not_safety {pool name : String} (h : IsBackupName pool name) :
    ¬ IsSafetyName pool name := by
  rintro ⟨rest', hsafety⟩
  obtain ⟨rest, hbackup⟩ := h
  rw [hbackup, String.append_right_inj] at hsafety
  -- One lead begins with a `k`, the other one with a `b`.
  have hfirst := congrArg (fun name => name.toList.head?) hsafety
  simp [PoolSnapshot.lead] at hfirst

/-- The event is nothing that a backup does with its snapshot: nothing is destroyed, and a snapshot is
taken only for a restore to be undone with. -/
def IsAside (pool : String) : Event → Prop
  | .called (.destroy _) _ => False
  | .called (.snapshot name) (.ok _) => IsSafetyName pool name
  | _ => True

/-- The event is in the middle of a cycle: the slot stays taken, and no snapshot is taken or
destroyed. -/
def IsInCycle : Event → Prop
  | .called (.destroy _) _ | .called (.snapshot _) _ => False
  | .called _ _ => True
  | .updated r _ => r.status.inProgress = true

/-- The event is neither the destruction of a snapshot nor a snapshot that was taken. -/
def LeavesPool : Event → Prop
  | .called (.destroy _) _ | .called (.snapshot _) (.ok _) => False
  | _ => True

/-- What becomes of the names of the snapshots on the pool. -/
inductive PoolStep : Event → (String → Prop) → (String → Prop) → Prop
  /-- A snapshot cannot be taken under a name that there is already. -/
  | taken {name : String} {old new : String → Prop} (hfree : ¬ old name)
    (hnew : ∀ k, new k ↔ old k ∨ k = name) : PoolStep (.called (.snapshot name) (.ok ())) old new
  | destroyed {name : String} {old new : String → Prop} (hnew : ∀ k, new k ↔ old k ∧ k ≠ name) :
    PoolStep (.called (.destroy name) (.ok ())) old new
  /-- A destruction that fails takes away at most the snapshot that was named. -/
  | failed {name : String} {f : Fault} {old new : String → Prop} (hnew : ∀ k, new k → old k)
    (hkept : ∀ k, old k → k ≠ name → new k) : PoolStep (.called (.destroy name) (.error f)) old new
  | other {e : Event} {old new : String → Prop} (he : LeavesPool e) (hnew : ∀ k, new k ↔ old k) :
    PoolStep e old new

/-- The events, the latest first, lead from the first names to the last. -/
inductive PoolRun : List Event → (String → Prop) → (String → Prop) → Prop
  | start {names : String → Prop} : PoolRun [] names names
  | step {e : Event} {es : List Event} {first old new : String → Prop} (h : PoolRun es first old)
    (hstep : PoolStep e old new) : PoolRun (e :: es) first new

/-- The names after the events, the latest first, on a pool that keeps what it fails to destroy; none if
a name was taken twice. -/
def namesAfter? (first : List String) : List Event → Option (List String)
  | [] => some first
  | e :: es => do
    let names ← namesAfter? first es
    match e with
    | .called (.snapshot name) (.ok _) => if name ∈ names then none else some (name :: names)
    | .called (.destroy name) (.ok _) => some (names.filter (· ≠ name))
    | _ => some names

theorem poolRun_of_namesAfter? {first last : List String} {es : List Event}
    (h : namesAfter? first es = some last) : PoolRun es (· ∈ first) (· ∈ last) := by
  induction es generalizing last with
  | nil =>
    cases h
    exact .start
  | cons e es ih =>
    obtain ⟨names, hnames, hlast⟩ := Option.bind_eq_some_iff.mp h
    refine .step (ih hnames) ?_
    split at hlast
    next name _ =>
      split at hlast
      next => cases hlast
      next hfree =>
        cases hlast
        exact .taken hfree fun k => by rw [List.mem_cons, or_comm]
    next name _ =>
      cases hlast
      exact .destroyed fun k => by simp
    next hsnapshot hdestroy =>
      cases hlast
      have hsame (k : String) : k ∈ last ↔ k ∈ last := Iff.rfl
      cases e with
      | updated r saved => exact .other trivial hsame
      | called c reply =>
        cases c
        case destroy name =>
          cases reply with
          | ok u => exact (hdestroy name u rfl).elim
          | error f => exact .failed (fun _ hk => hk) fun _ hk _ => hk
        case snapshot name =>
          cases reply with
          | ok u => exact (hsnapshot name u rfl).elim
          | error f => exact .other trivial hsame
        all_goals exact .other trivial hsame

/-! ## The order of the events -/

/-- The events, the latest first, leave a backup with this name in its hands, or with none. -/
inductive Journal (pool : String) : Option String → List Event → Prop where
  | start : Journal pool none []
  | aside {e : Event} {es : List Event} (h : Journal pool none es) (he : IsAside pool e) :
    Journal pool none (e :: es)
  | taken {name : String} {es : List Event} (h : Journal pool none es)
    (hname : IsBackupName pool name) :
    Journal pool (some name) (.called (.snapshot name) (.ok ()) :: es)
  | working {name : String} {e : Event} {es : List Event} (h : Journal pool (some name) es)
    (he : IsInCycle e) : Journal pool (some name) (e :: es)
  | dropped {name : String} {reply : Except Fault Unit} {es : List Event}
    (h : Journal pool (some name) es) :
    Journal pool none (.called (.destroy name) reply :: es)

/-- The snapshot was taken for a backup, and the cycle that took it is still the one that holds the
slot. -/
def TakenInCycle (pool name : String) (es : List Event) : Prop :=
  IsBackupName pool name ∧ ∃ cycle before, es = cycle ++ .called (.snapshot name) (.ok ()) :: before ∧
    ∀ e ∈ cycle, IsInCycle e

/-- Whatever is destroyed was taken by the same cycle. -/
def DestroysOwn (pool : String) (es : List Event) : Prop :=
  ∀ later name reply earlier, es = later ++ .called (.destroy name) reply :: earlier →
    TakenInCycle pool name earlier

/-- What is left on the pool of the names that it had first, and of those that were taken since. -/
structure PoolKept (pool : String) (es : List Event) (first last : String → Prop) : Prop where
  /-- Whatever was there before is there. -/
  before : ∀ name, first name → last name
  /-- Whatever a restore can be undone with is there. -/
  safety : ∀ name, IsSafetyName pool name → .called (.snapshot name) (.ok ()) ∈ es → last name
  /-- A backup's snapshot is there only if its destruction failed. -/
  backup : ∀ later name earlier, IsBackupName pool name →
    es = later ++ .called (.snapshot name) (.ok ()) :: earlier → last name →
      ∃ f, .called (.destroy name) (.error f) ∈ later

namespace Journal

variable {pool : String} {hand : Option String} {es : List Event}

theorem takenInCycle {name : String} (h : Journal pool (some name) es) : TakenInCycle pool name es := by
  generalize hhand : some name = hand at h
  induction h with
  | start | aside | dropped => cases hhand
  | taken h hname =>
    cases hhand
    exact ⟨hname, [], _, rfl, by simp⟩
  | working h he ih =>
    obtain ⟨hname, cycle, before, rfl, hcycle⟩ := ih hhand
    refine ⟨hname, _ :: cycle, before, rfl, ?_⟩
    intro e hmem
    rcases List.mem_cons.mp hmem with rfl | hmem
    · exact he
    · exact hcycle e hmem

theorem destroysOwn (h : Journal pool hand es) : DestroysOwn pool es := by
  have hcons {e : Event} {es : List Event} (h : DestroysOwn pool es) (he : ∀ name reply,
      e = .called (.destroy name) reply → TakenInCycle pool name es) : DestroysOwn pool (e :: es) := by
    intro later name reply earlier hsplit
    rcases List.cons_eq_append_iff.mp hsplit with ⟨-, heq⟩ | ⟨later', -, hsplit⟩
    · obtain ⟨hevent, rfl⟩ := List.cons.inj heq
      exact he name reply hevent.symm
    · exact h later' name reply earlier hsplit
  induction h with
  | start =>
    intro later name reply earlier hsplit
    simp at hsplit
  | aside _ hevent ih =>
    apply hcons ih
    rintro name reply rfl
    exact hevent.elim
  | taken _ _ ih =>
    apply hcons ih
    rintro name reply ⟨⟩
  | working _ hevent ih =>
    apply hcons ih
    rintro name reply rfl
    exact hevent.elim
  | dropped h ih =>
    apply hcons ih
    rintro name reply ⟨⟩
    exact h.takenInCycle

/-! ### The names on the pool -/

/-- `PoolKept` while a backup may have a name in its hands: that one is there without any failure, and
was not there first. -/
structure Holds (pool : String) (hand : Option String) (es : List Event) (first last : String → Prop) :
    Prop where
  before : ∀ name, first name → last name
  safety : ∀ name, IsSafetyName pool name → .called (.snapshot name) (.ok ()) ∈ es → last name
  backup : ∀ later name earlier, IsBackupName pool name →
    es = later ++ .called (.snapshot name) (.ok ()) :: earlier → last name →
      hand = some name ∨ ∃ f, .called (.destroy name) (.error f) ∈ later
  inHand : ∀ name, hand = some name → ¬ first name

/-- Nothing changes on the pool, and nothing in the hands of a backup. -/
theorem Holds.other {e : Event} {first old new : String → Prop} (h : Holds pool hand es first old)
    (he : LeavesPool e) (hnew : ∀ k, new k ↔ old k) : Holds pool hand (e :: es) first new where
  before name hname := (hnew name).mpr (h.before name hname)
  safety name hname hmem := by
    rcases List.mem_cons.mp hmem with rfl | hmem
    · exact he.elim
    · exact (hnew name).mpr (h.safety name hname hmem)
  backup later name earlier hname hsplit hlast := by
    rcases List.cons_eq_append_iff.mp hsplit with ⟨-, heq⟩ | ⟨later', rfl, hrest⟩
    · obtain ⟨rfl, -⟩ := List.cons.inj heq
      exact he.elim
    · rcases h.backup later' name earlier hname hrest ((hnew name).mp hlast) with hhand | ⟨f, hf⟩
      · exact .inl hhand
      · exact .inr ⟨f, List.mem_cons_of_mem e hf⟩
  inHand := h.inHand

/-- A snapshot is taken under a name that there was not, and comes into the hands of a backup if it was
taken for one. -/
theorem Holds.taken {name : String} {hand' : Option String} {first old new : String → Prop}
    (h : Holds pool none es first old) (hfree : ¬ old name) (hnew : ∀ k, new k ↔ old k ∨ k = name)
    (hbackup : IsBackupName pool name → hand' = some name) (hhand : ∀ k, hand' = some k → k = name) :
    Holds pool hand' (.called (.snapshot name) (.ok ()) :: es) first new where
  before k hk := (hnew k).mpr (.inl (h.before k hk))
  safety k hk hmem := by
    rcases List.mem_cons.mp hmem with heq | hmem
    · cases heq
      exact (hnew _).mpr (.inr rfl)
    · exact (hnew k).mpr (.inl (h.safety k hk hmem))
  backup later k earlier hk hsplit hlast := by
    rcases List.cons_eq_append_iff.mp hsplit with ⟨-, heq⟩ | ⟨later', rfl, hrest⟩
    · obtain ⟨hevent, -⟩ := List.cons.inj heq
      cases hevent
      exact .inl (hbackup hk)
    · rcases (hnew k).mp hlast with hold | rfl
      · rcases h.backup later' k earlier hk hrest hold with hnone | ⟨f, hf⟩
        · cases hnone
        · exact .inr ⟨f, List.mem_cons_of_mem _ hf⟩
      · exact .inl (hbackup hk)
  inHand k hk hfirst := by
    obtain rfl := hhand k hk
    exact hfree (h.before k hfirst)

/-- The snapshot in the hands of a backup is destroyed, or stays because that failed. -/
theorem Holds.dropped {name : String} {reply : Except Fault Unit} {first old new : String → Prop}
    (h : Holds pool (some name) es first old) (hname : IsBackupName pool name)
    (hnew : ∀ k, new k → old k) (hkept : ∀ k, old k → k ≠ name → new k)
    (hgone : reply = .ok () → ¬ new name) :
    Holds pool none (.called (.destroy name) reply :: es) first new where
  before k hk := by
    refine hkept k (h.before k hk) ?_
    rintro rfl
    exact h.inHand k rfl hk
  safety k hk hmem := by
    rcases List.mem_cons.mp hmem with heq | hmem
    · cases heq
    · refine hkept k (h.safety k hk hmem) ?_
      rintro rfl
      exact hname.not_safety hk
  backup later k earlier hk hsplit hlast := by
    rcases List.cons_eq_append_iff.mp hsplit with ⟨-, heq⟩ | ⟨later', rfl, hrest⟩
    · obtain ⟨hevent, -⟩ := List.cons.inj heq
      cases hevent
    · refine .inr ?_
      rcases h.backup later' k earlier hk hrest (hnew k hlast) with hhand | ⟨f, hf⟩
      · cases hhand
        cases reply with
        | ok => exact absurd hlast (hgone rfl)
        | error f => exact ⟨f, List.mem_cons_self⟩
      · exact ⟨f, List.mem_cons_of_mem _ hf⟩
  inHand := by rintro _ ⟨⟩

theorem holds {first last : String → Prop} (h : Journal pool hand es) (hrun : PoolRun es first last) :
    Holds pool hand es first last := by
  -- Each way in which a journal goes on leaves few steps that the pool can have taken.
  induction h generalizing last with
  | start =>
    cases hrun
    exact ⟨fun _ hname => hname, by simp, by simp, by rintro _ ⟨⟩⟩
  | aside _ hevent ih =>
    cases hrun with
    | step hrun hstep =>
      cases hstep with
      | taken hfree hnew =>
        exact (ih hrun).taken hfree hnew (fun hname => absurd hevent hname.not_safety) (by rintro _ ⟨⟩)
      | destroyed | failed => exact hevent.elim
      | other he hnew => exact (ih hrun).other he hnew
  | taken _ _ ih =>
    cases hrun with
    | step hrun hstep =>
      cases hstep with
      | taken hfree hnew => exact (ih hrun).taken hfree hnew (fun _ => rfl) (by rintro _ ⟨⟩; rfl)
      | other he _ => exact he.elim
  | working _ hevent ih =>
    cases hrun with
    | step hrun hstep =>
      cases hstep with
      | taken | destroyed | failed => exact hevent.elim
      | other he hnew => exact (ih hrun).other he hnew
  | dropped h ih =>
    obtain ⟨hname, -⟩ := h.takenInCycle
    cases hrun with
    | step hrun hstep =>
      cases hstep with
      | destroyed hnew =>
        exact (ih hrun).dropped hname (fun k hk => ((hnew k).mp hk).1)
          (fun k hk hne => (hnew k).mpr ⟨hk, hne⟩) fun _ hlast => ((hnew _).mp hlast).2 rfl
      | failed hnew hkept => exact (ih hrun).dropped hname hnew hkept (by rintro ⟨⟩)
      | other he _ => exact he.elim

/-- With nothing in hand, a backup's snapshot is there only if its destruction failed. -/
theorem poolKept {first last : String → Prop} (h : Journal pool none es)
    (hrun : PoolRun es first last) : PoolKept pool es first last where
  before := (h.holds hrun).before
  safety := (h.holds hrun).safety
  backup later name earlier hname hsplit hlast :=
    ((h.holds hrun).backup later name earlier hname hsplit hlast).resolve_left (by rintro ⟨⟩)

end Journal

/-! ## The events of the service -/

open Operation

variable {σ : Type} {ctx : Context σ} {pool : String} {old : List Event} {hand : Option String}
  {w w' : World σ}

/-- The call neither takes a snapshot nor destroys one. -/
def LeavesSnapshots : Call → Prop
  | .snapshot _ | .destroy _ => False
  | _ => True

theorem LeavesSnapshots.isAside {c : Call} (h : LeavesSnapshots c) (reply : c.Reply) :
    IsAside pool (.called c reply) := by
  cases c <;> first | exact h.elim | trivial

theorem LeavesSnapshots.isInCycle {c : Call} (h : LeavesSnapshots c) (reply : c.Reply) :
    IsInCycle (.called c reply) := by
  cases c <;> first | exact h.elim | trivial

theorem IsQuestion.leavesSnapshots {c : Call} (h : IsQuestion c) : LeavesSnapshots c := by
  cases c <;> first | exact h.elim | trivial

theorem IsConnecting.leavesSnapshots {c : Call} (h : IsConnecting c) : LeavesSnapshots c := by
  cases c <;> first | exact h.elim | trivial

/-- The events since `old` leave a backup with the name in its hands, or with none. -/
def Leaves (pool : String) (old : List Event) (hand : Option String) (w : World σ) : Prop :=
  ∃ es, w.events = es ++ old ∧ Journal pool hand es

namespace Leaves

theorem called {c : Call} {reply : c.Reply} (h : Leaves pool old hand w) (hc : LeavesSnapshots c)
    (he : w'.events = .called c reply :: w.events) : Leaves pool old hand w' := by
  obtain ⟨es, hes, hjournal⟩ := h
  refine ⟨.called c reply :: es, by rw [he, hes, List.cons_append], ?_⟩
  cases hand with
  | none => exact hjournal.aside (hc.isAside reply)
  | some name => exact hjournal.working (hc.isInCycle reply)

theorem updated {r : Record} {saved : Bool} (h : Leaves pool old hand w)
    (hbusy : hand.isSome → r.status.inProgress = true)
    (he : w'.events = .updated r saved :: w.events) : Leaves pool old hand w' := by
  obtain ⟨es, hes, hjournal⟩ := h
  refine ⟨.updated r saved :: es, by rw [he, hes, List.cons_append], ?_⟩
  cases hand with
  | none => exact hjournal.aside trivial
  | some name => exact hjournal.working (hbusy rfl)

theorem steps {C : Call → Prop} {U : Record → Record → Prop} (h : Leaves pool old hand w)
    (hsteps : Steps C U w w') (hC : ∀ c, C c → LeavesSnapshots c)
    (hU : ∀ r r', U r r' → hand.isSome → r'.status.inProgress = true) : Leaves pool old hand w' := by
  induction hsteps with
  | refl => exact h
  | tail _ hstep ih =>
    cases hstep with
    | called hc _ he => exact ih.called (hC _ hc) he
    | updated hu he => exact ih.updated (hU _ _ hu) he
    | worked _ he =>
      obtain ⟨es, hes, hjournal⟩ := ih
      exact ⟨es, he.trans hes, hjournal⟩

/-- A backup with nothing in hand does not care how the record changes. -/
theorem footprint {α : Type} {op : Operation σ α} {C : Call → Prop} {U : Record → Record → Prop}
    (h : Leaves pool old none w) (hop : Footprint ctx C U op) (hC : ∀ c, C c → LeavesSnapshots c) :
    Ensures ctx op w (fun _ => Leaves pool old none) (fun _ => Leaves pool old none) :=
  (hop w).mono (fun _ _ hsteps => h.steps hsteps hC (by rintro _ _ _ ⟨⟩))
    fun _ _ hsteps => h.steps hsteps hC (by rintro _ _ _ ⟨⟩)

theorem update {f : Record → Record} {R : Fault → World σ → Prop} (h : Leaves pool old none w) :
    Ensures ctx (Operation.update f) w (fun _ => Leaves pool old none) R :=
  .update fun _ _ _ he => h.updated (by rintro ⟨⟩) he

theorem call {c : Call} {Q : c.Reply → World σ → Prop} {R : Fault → World σ → Prop}
    (hout : ctx.host.Outside) (h : Leaves pool old none w) (hc : LeavesSnapshots c)
    (hQ : ∀ reply w', Leaves pool old none w' → Q reply w') : Ensures ctx (call c) w Q R :=
  .call hout fun reply w' _ he => hQ reply w' (h.called hc he)

end Leaves

/-! ### A backup -/

/-- A cycle holds the slot, and the name. -/
structure Holding (pool : String) (old : List Event) (hand : Option String) (w : World σ) : Prop where
  leaves : Leaves pool old hand w
  busy : w.record.status.inProgress = true

namespace Holding

variable {R : Fault → World σ → Prop}

theorem call {c : Call} {Q : c.Reply → World σ → Prop} (hout : ctx.host.Outside)
    (h : Holding pool old hand w) (hc : LeavesSnapshots c)
    (hQ : ∀ reply w', Holding pool old hand w' → Q reply w') : Ensures ctx (call c) w Q R :=
  .call hout fun reply w' hr he => hQ reply w' ⟨h.leaves.called hc he, hr ▸ h.busy⟩

theorem advance {progress : UInt8} {status : String} (h : Holding pool old hand w) :
    Ensures ctx (advance progress status) w (fun _ => Holding pool old hand) R := by
  refine .update fun saved w' hr he => ⟨h.leaves.updated (fun _ => ?_) he, ?_⟩
  · exact h.busy
  · rw [hr]
    exact h.busy

theorem untouched {α : Type} {op : Operation σ α} {C : Call → Prop}
    (h : Holding pool old hand w) (hop : Footprint ctx C Untouched op)
    (hC : ∀ c, C c → LeavesSnapshots c) :
    Ensures ctx op w (fun _ => Holding pool old hand) (fun _ => Holding pool old hand) := by
  have hkeeps (w' : World σ) (hsteps : Steps C Untouched w w') : Holding pool old hand w' :=
    ⟨h.leaves.steps hsteps hC fun _ _ hU => hU.elim, hsteps.record_eq ▸ h.busy⟩
  exact (hop w).mono (fun _ => hkeeps) fun _ => hkeeps

/-- The snapshot that is destroyed is the one that the cycle has in its hands. -/
theorem destroy {name : String} {Q : Except Fault Unit → World σ → Prop} (hout : ctx.host.Outside)
    (h : Holding pool old (some name) w)
    (hQ : ∀ reply w', Leaves pool old none w' → Q reply w') :
    Ensures ctx (Operation.call (.destroy name)) w Q R := by
  refine .call hout fun reply w' hr he => hQ reply w' ?_
  obtain ⟨es, hes, hjournal⟩ := h.leaves
  exact ⟨.called (.destroy name) reply :: es, by rw [he, hes, List.cons_append], hjournal.dropped⟩

end Holding

theorem take_holds (hout : ctx.host.Outside) (now : Instant) (h : Holding pool old none w) :
    Ensures ctx (PoolSnapshot.take pool .backup now) w
      (fun p => Holding pool old (some p.fullName)) (fun _ => Holding pool old none) := by
  have hask (name : String) (reply : Bool) (w w' : World σ) (h : Holding pool old none w)
      (hr : w'.record = w.record) (he : w'.events = .called (.datasetExists name) reply :: w.events) :
      Holding pool old none w' :=
    ⟨h.leaves.called (c := .datasetExists name) trivial he, hr ▸ h.busy⟩
  refine .bind ((firstFree?_mem hout hask _ w h).mono ?_ fun _ _ h => h)
  rintro (_ | p) w₁ ⟨h₁, hfound⟩
  · exact .throw h₁
  · obtain ⟨rfl, hmem⟩ := hfound p rfl
    have hname : IsBackupName p.pool p.fullName := exists_fullName_of_mem hmem
    obtain ⟨es, hes, hjournal⟩ := h₁.leaves
    refine .bind (.call hout fun reply w₂ hr he => .bind (.ofReply ?_ ?_))
    · rintro ⟨⟩ rfl
      refine .pure ⟨⟨_ :: es, by rw [he, hes, List.cons_append], hjournal.taken hname⟩, ?_⟩
      exact hr ▸ h₁.busy
    · rintro f rfl
      refine ⟨⟨_ :: es, by rw [he, hes, List.cons_append], hjournal.aside ?_⟩, hr ▸ h₁.busy⟩
      exact trivial

theorem upload_holds {R : Fault → World σ → Prop} (hout : ctx.host.Outside) (s : PoolSnapshot)
    (now : Instant) (h : Holding pool old hand w) :
    Ensures ctx (upload s now) w (fun _ => Holding pool old hand) R := by
  refine .bind (.outcome ((h.untouched (view_footprint hout s) ?_).mono ?_ fun f w₁ h₁ => .pure h₁))
  · rintro _ rfl
    trivial
  · intro path w₁ h₁
    exact .bind (h₁.advance.mono (fun _ w₂ h₂ => .bind (h₂.call hout trivial fun _ w₃ h₃ => .pure h₃))
      fun _ _ h => h)

/-- Whatever becomes of the upload, the snapshot is destroyed. -/
theorem backupCycle_leaves (hout : ctx.host.Outside) (retention : Retention) (window : Option String)
    (now : Instant) (h : Holding ctx.settings.pool old none w) :
    Ensures ctx (backupCycle retention window now) w (fun _ => Leaves ctx.settings.pool old none)
      (fun _ => Leaves ctx.settings.pool old none) := by
  refine .bind (.settings (.bind (.outcome ((take_holds hout now h).mono ?_ ?_))))
  · intro snapshot w₁ h₁
    refine .bind ((upload_holds hout snapshot now h₁).mono ?_ fun _ _ h => h)
    intro uploaded w₂ h₂
    cases uploaded with
    | error e =>
      obtain ⟨status, f⟩ := e
      refine .bind (h₂.destroy hout fun _ w₃ h₃ => .bind (h₃.update.mono (fun _ w₄ h₄ => ?_) fun _ _ h => h))
      exact .guard (Leaves ctx.settings.pool old none) (fun _ => h₄.update) (fun _ => h₄)
        fun _ _ h₅ => .throw h₅
    | ok _ =>
      refine .bind (h₂.advance.mono (fun _ w₃ h₃ => .bind (.outcome
        ((h₃.untouched (applyRetention_footprint hout retention) ?_).mono ?_ ?_))) fun _ _ h => h)
      · rintro _ rfl
        trivial
      -- A repository that expires nothing does not keep the snapshot on the pool either.
      all_goals
        intro _ w₄ h₄
        refine .bind (h₄.advance.mono (fun _ w₅ h₅ => .bind (h₅.destroy hout fun _ w₆ h₆ => ?_))
          fun _ _ h => h)
        exact .bind (h₆.call hout trivial fun _ w₇ h₇ => h₇.update)
  · intro f w₁ h₁
    exact .bind (h₁.leaves.update.mono (fun _ w₂ h₂ => .throw h₂) fun _ _ h => h)

theorem backup_leaves (hout : ctx.host.Outside) (h : Leaves ctx.settings.pool old none w) :
    Ensures ctx backup w (fun _ => Leaves ctx.settings.pool old none)
      (fun _ => Leaves ctx.settings.pool old none) := by
  refine .bind (h.call hout trivial fun now w₁ h₁ => .bind (.record (.bind
    ((h₁.footprint (admitBackup_footprint hout _ now) ?_).mono ?_ fun _ _ h => h))))
  · rintro _ ⟨_, rfl⟩
    trivial
  intro window w₂ h₂
  refine .bind (.bind (.record (.bind (.update fun saved w₃ hr he => .pure ?_))))
  have h₃ : Leaves ctx.settings.pool old none w₃ := h₂.updated (by rintro ⟨⟩) he
  -- A cycle that finds the slot taken has nothing in its hands.
  cases hbusy : w₂.record.status.inProgress with
  | true => exact .bind (.throw h₃)
  | false =>
    refine backupCycle_leaves hout _ _ now ⟨h₃, ?_⟩
    rw [hr, hbusy]
    rfl

/-! ### The other actions -/

/-- Nothing that happens in a restore concerns the snapshot of a backup. -/
theorem Trail.isAside {s : Stage} {es : List Event} (h : Trail pool s es) : ∀ e ∈ es, IsAside pool e := by
  induction h with
  | start => simp
  | step _ hfollows ih =>
    intro e hmem
    rcases List.mem_cons.mp hmem with rfl | hmem
    · cases hfollows with
      | asked _ hc reply => exact hc.leavesSnapshots.isAside reply
      | secured hname => exact hname
      | _ => trivial
    · exact ih e hmem

theorem Leaves.trail {s : Stage} {es : List Event} (h : Leaves pool old none w)
    (htrail : Trail pool s es) (he : w'.events = es ++ w.events) : Leaves pool old none w' := by
  obtain ⟨before, hes, hjournal⟩ := h
  refine ⟨es ++ before, by rw [he, hes, List.append_assoc], ?_⟩
  have haside := htrail.isAside
  clear he htrail
  induction es with
  | nil => exact hjournal
  | cons e es ih =>
    refine .aside (ih fun e' hmem => haside e' (List.mem_cons_of_mem e hmem)) ?_
    exact haside e List.mem_cons_self

theorem restore_leaves (hout : ctx.host.Outside) (id : String)
    (h : Leaves ctx.settings.pool old none w) :
    Ensures ctx (restore id) w (fun _ => Leaves ctx.settings.pool old none)
      (fun _ => Leaves ctx.settings.pool old none) := by
  refine (restore_ends hout id w).mono ?_ ?_
  · rintro _ w' ⟨-, _, _, ⟨⟨es, he, htrail⟩, -⟩, -⟩
    exact h.trail htrail he
  · rintro _ w' (⟨-, es, he, htrail, -⟩ | ⟨-, _, _, ⟨⟨es, he, htrail⟩, -⟩, -⟩)
    · exact h.trail htrail he
    · exact h.trail htrail he

theorem ensureConnected_leaves (hout : ctx.host.Outside) (h : Leaves pool old none w) :
    Ensures ctx ensureConnected w (fun _ => Leaves pool old none) (fun _ => Leaves pool old none) :=
  h.footprint (ensureConnected_footprint hout) fun _ hc => hc.leavesSnapshots

theorem stop_leaves (h : Leaves pool old none w) :
    Ensures ctx stop w (fun _ => Leaves pool old none) (fun _ => Leaves pool old none) := h.update

theorem get_leaves (hout : ctx.host.Outside) (h : Leaves pool old none w) :
    Ensures ctx get w (fun _ => Leaves pool old none) (fun _ => Leaves pool old none) := by
  refine .bind (.record (.ite (fun _ => .pure h) fun _ => .bind
    (h.call hout trivial fun reply w₁ h₁ => ?_)))
  cases reply with
  | error f => exact .pure h₁
  | ok listed => exact .bind (h₁.update.mono (fun _ _ h₂ => .record h₂) fun _ _ h => h)

theorem parts_leave (hout : ctx.host.Outside) :
    PartsPreserve ctx (Leaves ctx.settings.pool old none) where
  now _ h := h.call hout trivial fun _ _ h' => h'
  say _ _ h := h.update
  connect _ := ensureConnected_leaves hout
  get _ := get_leaves hout
  stop _ := stop_leaves
  backup _ := backup_leaves hout
  restore id _ := restore_leaves hout id
  configure _ _ _ _ h := h.update

/-- Whatever is done, whatever is answered, and above all whatever the pool says about the names that it
has: everything that is destroyed was taken for a backup by the same cycle. So if the pool refuses names
that it has, and destroys at most what it is told to, then nothing is lost that was there before or that
a restore can be undone with, and nothing is left of the backups but what could not be destroyed. -/
theorem pool_is_kept (s : Settings) (a : Answers σ) (w : World σ) (actions : List Action) :
    ∃ es, (after ⟨s, a.host⟩ w actions).events = es ++ w.events ∧ DestroysOwn s.pool es ∧
      ∀ first last, PoolRun es first last → PoolKept s.pool es first last := by
  have hparts : PartsPreserve ⟨s, a.host⟩ (Leaves s.pool w.events none) := parts_leave a.outside
  obtain ⟨es, hes, hjournal⟩ := after_keeps hparts.perform actions w ⟨[], rfl, .start⟩
  exact ⟨es, hes, hjournal.destroysOwn, fun _ _ => hjournal.poolKept⟩

/-- Answers as one would wish, except that the pool does not let go of its snapshots. -/
def clinging : Answers Unit
  | .destroy _, _, m => (.error ⟨.snapshot, "dataset is busy"⟩, (), m)
  | c, _, m => agreeable c () m

/-- A backup leaves its snapshot beside one that was there before. -/
theorem pool_is_kept_clinging : ∃ es,
    (after ⟨{}, clinging.host⟩ ⟨{}, {}, (), []⟩ [.update sampleConfig, .backup]).events = es ∧
      PoolRun es (· ∈ ["local@daily"]) (· ∈ ["local@kopia-19700101-000000", "local@daily"]) ∧
      PoolKept "local" es (· ∈ ["local@daily"])
        (· ∈ ["local@kopia-19700101-000000", "local@daily"]) := by
  have hnames : namesAfter? ["local@daily"]
      (after ⟨{}, clinging.host⟩ ⟨{}, {}, (), []⟩ [.update sampleConfig, .backup]).events =
        some ["local@kopia-19700101-000000", "local@daily"] := by decide +kernel
  have hrun := poolRun_of_namesAfter? hnames
  obtain ⟨es, hes, -, hkept⟩ := pool_is_kept {} clinging ⟨{}, {}, (), []⟩
    [.update sampleConfig, .backup]
  rw [List.append_nil] at hes
  rw [hes] at hrun
  exact ⟨es, hes, hrun, hkept _ _ hrun⟩

end Service

end PoolKeeper
