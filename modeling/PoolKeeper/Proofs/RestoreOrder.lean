import PoolKeeper.Proofs.Footprint

/-!
# `PoolKeeper/Proofs/RestoreOrder.lean` — the order of the steps of a restore

A restore overwrites the pool, so the order of its calls is what keeps the data safe: the units are
stopped before the pool is touched, there is a snapshot to go back to before anything is fetched, and
the pool is only made equal to what was fetched completely.

`Trail` is that order as a small machine over the journal: a `Stage` says how far the restore has come,
and `Follows` which event may come next and where it leads. The calls of a restore are a trail from
its first event on, whether it fails or not (`restore_ends`), and what a trail says about the order is
read off it by one induction (`Trail.ordered`).
-/

set_option autoImplicit false

namespace PoolKeeper.Service

open Operation

variable {σ : Type} {ctx : Context σ} {pool : String}

/-! ## Stages -/

/-- The full name is one that safety snapshots of the pool have. -/
def IsSafetyName (pool name : String) : Prop :=
  ∃ rest, name = pool ++ "@" ++ (PoolSnapshot.lead .safety ++ rest)

/-- How far a restore has come. -/
inductive Stage where
  /-- Nothing on the pool was touched. -/
  | quiescing
  /-- There is a safety snapshot of this name. -/
  | secured (safety : String)
  /-- The snapshot was fetched into this directory. -/
  | fetched (safety directory : String)
  /-- The pool is equal to what was fetched. -/
  | applied (safety : String)
  /-- A step failed. -/
  | halted (safety : Option String)

/-- The safety snapshot, once there is one. -/
def Stage.safety? : Stage → Option String
  | .quiescing => none
  | .secured s | .fetched s _ | .applied s => some s
  | .halted s => s

/-- Which event may follow at a stage, and the stage after it. -/
inductive Follows (pool : String) : Stage → Event → Stage → Prop where
  | updated (s : Stage) (r : Record) (saved : Bool) : Follows pool s (.updated r saved) s
  | asked (s : Stage) {c : Call} (h : IsQuestion c) (reply : c.Reply) :
      Follows pool s (.called c reply) s
  | stopped (d : Dependent) (reply : Except Fault Unit) :
      Follows pool .quiescing (.called (.stop d) reply) .quiescing
  | secured {name : String} (h : IsSafetyName pool name) :
      Follows pool .quiescing (.called (.snapshot name) (.ok ())) (.secured name)
  | unsecured {name : String} (h : IsSafetyName pool name) (f : Fault) :
      Follows pool .quiescing (.called (.snapshot name) (.error f)) (.halted none)
  | fetched (safety id directory : String) :
      Follows pool (.secured safety) (.called (.fetch id directory) (.ok ()))
        (.fetched safety directory)
  | unfetched (safety id directory : String) (f : Fault) :
      Follows pool (.secured safety) (.called (.fetch id directory) (.error f))
        (.halted (some safety))
  | applied (safety directory target : String) (kept : List String) :
      Follows pool (.fetched safety directory) (.called (.mirror directory target kept) (.ok ()))
        (.applied safety)
  | unapplied (safety directory target : String) (kept : List String) (f : Fault) :
      Follows pool (.fetched safety directory) (.called (.mirror directory target kept) (.error f))
        (.halted (some safety))
  | started (safety : String) (d : Dependent) (reply : Except Fault Unit) :
      Follows pool (.applied safety) (.called (.start d) reply) (.applied safety)

/-- The events, the latest first, lead a restore from its beginning to the stage. -/
inductive Trail (pool : String) : Stage → List Event → Prop where
  | start : Trail pool .quiescing []
  | step {s s' : Stage} {e : Event} {es : List Event} (h : Trail pool s es)
      (hfollows : Follows pool s e s') : Trail pool s' (e :: es)

/-! ## What a trail says about the order -/

/-- The order of the events of a restore, the latest first: `e :: earlier <:+ es` says that `e` came
after `earlier`. -/
structure RestoreOrder (pool : String) (es : List Event) : Prop where
  fetch_after_safety : ∀ {id directory reply earlier},
    .called (.fetch id directory) reply :: earlier <:+ es →
      ∃ name, IsSafetyName pool name ∧ .called (.snapshot name) (.ok ()) ∈ earlier
  mirror_after_fetch : ∀ {source target kept reply earlier},
    .called (.mirror source target kept) reply :: earlier <:+ es →
      ∃ id, .called (.fetch id source) (.ok ()) ∈ earlier
  start_after_mirror : ∀ {d reply earlier}, .called (.start d) reply :: earlier <:+ es →
    ∃ source target kept, .called (.mirror source target kept) (.ok ()) ∈ earlier
  stop_before_snapshot : ∀ {d reply earlier}, .called (.stop d) reply :: earlier <:+ es →
    ∀ name reply', .called (.snapshot name) reply' ∉ earlier
  fetch_once : ∀ {id directory reply earlier},
    .called (.fetch id directory) reply :: earlier <:+ es →
      ∀ id' directory' reply', .called (.fetch id' directory') reply' ∉ earlier
  mirror_once : ∀ {source target kept reply earlier},
    .called (.mirror source target kept) reply :: earlier <:+ es →
      ∀ source' target' kept' reply', .called (.mirror source' target' kept') reply' ∉ earlier
  never_destroys : ∀ name reply, .called (.destroy name) reply ∉ es

/-- What is in the journal at a stage, and what is not. -/
def Stage.Knows (pool : String) (es : List Event) : Stage → Prop
  | .quiescing => (∀ name reply, .called (.snapshot name) reply ∉ es) ∧
      (∀ id directory reply, .called (.fetch id directory) reply ∉ es) ∧
      ∀ source target kept reply, .called (.mirror source target kept) reply ∉ es
  | .secured safety => (IsSafetyName pool safety ∧ .called (.snapshot safety) (.ok ()) ∈ es) ∧
      (∀ id directory reply, .called (.fetch id directory) reply ∉ es) ∧
      ∀ source target kept reply, .called (.mirror source target kept) reply ∉ es
  | .fetched _ directory => (∃ id, .called (.fetch id directory) (.ok ()) ∈ es) ∧
      ∀ source target kept reply, .called (.mirror source target kept) reply ∉ es
  | .applied _ => ∃ source target kept, .called (.mirror source target kept) (.ok ()) ∈ es
  | .halted _ => True

theorem Trail.knows {s : Stage} {es : List Event} (h : Trail pool s es) : s.Knows pool es := by
  induction h with
  | start => simp [Stage.Knows]
  | step h hfollows ih =>
    cases hfollows with
    | updated s r saved => cases s <;> simpa [Stage.Knows] using ih
    | asked s hc reply =>
      rename_i c
      cases c <;> first | exact hc.elim | (cases s <;> simpa [Stage.Knows] using ih)
    | stopped d reply => simpa [Stage.Knows] using ih
    | secured hname => simpa [Stage.Knows, hname] using ih.2
    | unsecured | unfetched | unapplied => trivial
    | fetched safety id directory =>
      obtain ⟨_, _, hmirror⟩ := ih
      exact ⟨⟨id, by simp⟩, by simpa using hmirror⟩
    | applied safety directory target kept => exact ⟨directory, target, kept, by simp⟩
    | started safety d reply => simpa [Stage.Knows] using ih

/-- The only snapshot that was taken is the one that the stage names. -/
theorem Trail.safety {s : Stage} {es : List Event} (h : Trail pool s es) {name : String}
    (hname : .called (.snapshot name) (.ok ()) ∈ es) : s.safety? = some name := by
  induction h with
  | start => simp at hname
  | step h hfollows ih =>
    cases hfollows with
    | updated | stopped => exact ih (by simpa using hname)
    | asked s hc reply =>
      rename_i c
      cases c <;> first | exact hc.elim | exact ih (by simpa using hname)
    | secured _ | unsecured _ _ =>
      have hnone := h.knows.1
      simp_all [Stage.safety?]
    | fetched | unfetched | applied | unapplied | started => exact ih (by simpa using hname)

/-- An event with what came before it is the newest of a journal, or was there before that one. -/
theorem newest_or_before {e e' : Event} {es es' : List Event} (h : e' :: es' <:+ e :: es) :
    (e' = e ∧ es' = es) ∨ e' :: es' <:+ es :=
  (List.suffix_cons_iff.mp h).imp_left List.cons.inj

/-- One more event keeps the order, if it has before it what it needs. -/
theorem RestoreOrder.cons {e : Event} {es : List Event} (h : RestoreOrder pool es)
    (hfetch : ∀ id directory reply, e = .called (.fetch id directory) reply →
      (∃ name, IsSafetyName pool name ∧ .called (.snapshot name) (.ok ()) ∈ es) ∧
        ∀ id' directory' reply', .called (.fetch id' directory') reply' ∉ es)
    (hmirror : ∀ source target kept reply, e = .called (.mirror source target kept) reply →
      (∃ id, .called (.fetch id source) (.ok ()) ∈ es) ∧
        ∀ source' target' kept' reply', .called (.mirror source' target' kept') reply' ∉ es)
    (hstart : ∀ d reply, e = .called (.start d) reply →
      ∃ source target kept, .called (.mirror source target kept) (.ok ()) ∈ es)
    (hstop : ∀ d reply, e = .called (.stop d) reply →
      ∀ name reply', .called (.snapshot name) reply' ∉ es)
    (hdestroy : ∀ name reply, e ≠ .called (.destroy name) reply) : RestoreOrder pool (e :: es) where
  fetch_after_safety hsuffix := by
    rcases newest_or_before hsuffix with ⟨rfl, rfl⟩ | hsuffix
    · exact (hfetch _ _ _ rfl).1
    · exact h.fetch_after_safety hsuffix
  mirror_after_fetch hsuffix := by
    rcases newest_or_before hsuffix with ⟨rfl, rfl⟩ | hsuffix
    · exact (hmirror _ _ _ _ rfl).1
    · exact h.mirror_after_fetch hsuffix
  start_after_mirror hsuffix := by
    rcases newest_or_before hsuffix with ⟨rfl, rfl⟩ | hsuffix
    · exact hstart _ _ rfl
    · exact h.start_after_mirror hsuffix
  stop_before_snapshot hsuffix := by
    rcases newest_or_before hsuffix with ⟨rfl, rfl⟩ | hsuffix
    · exact hstop _ _ rfl
    · exact h.stop_before_snapshot hsuffix
  fetch_once hsuffix := by
    rcases newest_or_before hsuffix with ⟨rfl, rfl⟩ | hsuffix
    · exact (hfetch _ _ _ rfl).2
    · exact h.fetch_once hsuffix
  mirror_once hsuffix := by
    rcases newest_or_before hsuffix with ⟨rfl, rfl⟩ | hsuffix
    · exact (hmirror _ _ _ _ rfl).2
    · exact h.mirror_once hsuffix
  never_destroys name reply hmem := by
    rcases List.mem_cons.mp hmem with heq | hmem
    · exact hdestroy name reply heq.symm
    · exact h.never_destroys name reply hmem

/-- The events of a restore are in order. -/
theorem Trail.ordered {s : Stage} {es : List Event} (h : Trail pool s es) : RestoreOrder pool es := by
  induction h with
  | start => constructor <;> simp
  | step h hfollows ih =>
    -- What has to come before an event is known at the stage at which it follows.
    have hknows := h.knows
    cases hfollows with
    | updated s r saved => exact ih.cons (by simp) (by simp) (by simp) (by simp) (by simp)
    | asked s hc reply =>
      rename_i c
      cases c <;> first
        | exact hc.elim
        | exact ih.cons (by simp) (by simp) (by simp) (by simp) (by simp)
    | stopped d reply =>
      exact ih.cons (by simp) (by simp) (by simp) (fun _ _ _ => hknows.1) (by simp)
    | secured _ | unsecured _ _ =>
      exact ih.cons (by simp) (by simp) (by simp) (by simp) (by simp)
    | fetched safety _ _ | unfetched safety _ _ _ =>
      obtain ⟨⟨hname, hmem⟩, hfetch, -⟩ := hknows
      exact ih.cons (fun _ _ _ _ => ⟨⟨safety, hname, hmem⟩, hfetch⟩) (by simp) (by simp) (by simp)
        (by simp)
    | applied _ directory _ _ | unapplied _ directory _ _ _ =>
      obtain ⟨⟨id, hmem⟩, hmirror⟩ := hknows
      refine ih.cons (by simp) (fun source _ _ _ heq => ⟨⟨id, ?_⟩, hmirror⟩) (by simp) (by simp)
        (by simp)
      injection heq with hcall
      injection hcall with hsource
      exact hsource ▸ hmem
    | started _ d reply =>
      exact ih.cons (by simp) (by simp) (fun _ _ _ => hknows) (by simp) (by simp)

/-! ## A restore follows a trail -/

section Trail

variable {old : List Event} {r : Record} {w : World σ} {R : Fault → World σ → Prop}

/-- The events since `old` lead to the stage, and the record is `r`. -/
def Stage.At (pool : String) (old : List Event) (s : Stage) (r : Record) (w : World σ) : Prop :=
  (∃ es, w.events = es ++ old ∧ Trail pool s es) ∧ w.record = r

theorem Stage.At.step {s s' : Stage} {e : Event} {r' : Record} {w' : World σ}
    (h : s.At pool old r w) (hfollows : Follows pool s e s') (hr : w'.record = r')
    (he : w'.events = e :: w.events) : s'.At pool old r' w' := by
  obtain ⟨⟨es, hes, htrail⟩, -⟩ := h
  exact ⟨⟨e :: es, by rw [he, hes, List.cons_append], htrail.step hfollows⟩, hr⟩

theorem Stage.At.same {s : Stage} {w' : World σ} (h : s.At pool old r w)
    (hr : w'.record = w.record) (he : w'.events = w.events) : s.At pool old r w' := by
  obtain ⟨⟨es, hes, htrail⟩, hrecord⟩ := h
  exact ⟨⟨es, he.trans hes, htrail⟩, hr.trans hrecord⟩

/-- A question changes nothing. -/
theorem Stage.At.ask {s : Stage} {c : Call} {Q : c.Reply → World σ → Prop}
    (hout : ctx.host.Outside) (h : s.At pool old r w) (hc : IsQuestion c)
    (hQ : ∀ reply w', s.At pool old r w' → Q reply w') :
    Ensures ctx (call c) w Q R :=
  .call hout fun reply _ hr he => hQ reply _ (h.step (.asked s hc reply) (hr.trans h.2) he)

/-- An update changes the record alone. -/
theorem Stage.At.update {s : Stage} {f : Record → Record} {Q : Unit → World σ → Prop}
    (h : s.At pool old r w) (hQ : ∀ w', s.At pool old (f r) w' → Q () w') :
    Ensures ctx (Operation.update f) w Q R :=
  .update fun saved _ hr he =>
    hQ _ (h.step (.updated s (f w.record) saved) (hr.trans (congrArg f h.2)) he)

/-- Calls that lead nowhere else change nothing. -/
theorem Stage.At.calls {s : Stage} {C : Call → Prop} {w' : World σ} (h : s.At pool old r w)
    (hC : ∀ c reply, C c → Follows pool s (.called c reply) s) (hsteps : Steps C Untouched w w') :
    s.At pool old r w' := by
  refine hsteps.keeps (P := fun r' es' => (∃ es, es' = es ++ old ∧ Trail pool s es) ∧ r' = r)
    ?_ (fun _ _ _ _ hU => hU.elim) h
  rintro c reply _ _ hc ⟨⟨es, rfl, htrail⟩, rfl⟩
  exact ⟨⟨.called c reply :: es, rfl, htrail.step (hC c reply hc)⟩, rfl⟩

theorem stopDependents_keeps (hout : ctx.host.Outside) (h : Stage.quiescing.At pool old r w) :
    Ensures ctx stopDependents w (fun _ => Stage.quiescing.At pool old r) R := by
  refine (stopDependents_footprint hout).ensures stopDependents_neverFails fun _ _ => h.calls ?_
  rintro c reply (hc | ⟨d, rfl⟩)
  · exact .asked _ hc reply
  · exact .stopped d reply

theorem startDependents_keeps (hout : ctx.host.Outside) {safety : String}
    (h : (Stage.applied safety).At pool old r w) :
    Ensures ctx startDependents w (fun _ => (Stage.applied safety).At pool old r) R := by
  refine (startDependents_footprint hout).ensures startDependents_neverFails fun _ _ => h.calls ?_
  rintro c reply (hc | ⟨d, rfl⟩)
  · exact .asked _ hc reply
  · exact .started safety d reply

/-! ### The safety snapshot -/

/-- A name that is found is one of those that were tried; what every question keeps is kept. -/
theorem firstFree?_mem {P : World σ → Prop} (hout : ctx.host.Outside)
    (hask : ∀ name reply w w', P w → w'.record = w.record →
      w'.events = .called (.datasetExists name) reply :: w.events → P w') :
    ∀ (names : List String) (w : World σ), P w →
      Ensures ctx (PoolSnapshot.firstFree? pool names) w
        (fun found w' => P w' ∧ ∀ p, found = some p → p.pool = pool ∧ p.name ∈ names) R
  | [], w, h => .pure ⟨h, by simp⟩
  | name :: names, w, h => by
    refine .bind (.call hout fun there w₁ hr he => ?_)
    have h₁ := hask _ there w w₁ h hr he
    cases there with
    | true =>
      refine (firstFree?_mem hout hask names w₁ h₁).mono ?_ fun _ _ => id
      rintro found w₂ ⟨h₂, hfound⟩
      exact ⟨h₂, fun p hp => (hfound p hp).imp_right (List.mem_cons_of_mem name)⟩
    | false =>
      refine .pure ⟨h₁, fun p hp => ?_⟩
      cases hp
      exact ⟨rfl, List.mem_cons_self⟩

theorem exists_suffix_of_mem_candidates {base name : String}
    (h : name ∈ PoolSnapshot.candidates base) : ∃ rest, name = base ++ rest := by
  rcases List.mem_cons.mp h with rfl | hmem
  · exact ⟨"", by simp⟩
  · obtain ⟨k, -, rfl⟩ := List.mem_map.mp hmem
    exact ⟨"-" ++ String.ofList (Text.decimal (k + 1)), by simp [String.append_assoc]⟩

theorem exists_fullName_of_mem {p : PoolSnapshot} {purpose : Purpose} {now : Instant}
    (h : p.name ∈ PoolSnapshot.candidates (PoolSnapshot.baseName purpose now)) :
    ∃ rest, p.fullName = p.pool ++ "@" ++ (PoolSnapshot.lead purpose ++ rest) := by
  obtain ⟨rest, hrest⟩ := exists_suffix_of_mem_candidates h
  refine ⟨now.compactText ++ rest, ?_⟩
  simp only [PoolSnapshot.fullName, hrest, PoolSnapshot.baseName, String.append_assoc]

/-- Taking the safety snapshot secures the pool, or ends the restore before anything was touched. -/
theorem take_secures (hout : ctx.host.Outside) (now : Instant)
    (h : Stage.quiescing.At pool old r w) :
    Ensures ctx (PoolSnapshot.take pool .safety now) w
      (fun p => (Stage.secured p.fullName).At pool old r)
      (fun _ w' => ∃ s : Stage, s.safety? = none ∧ s.At pool old r w') := by
  have hask (name : String) (reply : Bool) (w w' : World σ) (h : Stage.quiescing.At pool old r w)
      (hr : w'.record = w.record) (he : w'.events = .called (.datasetExists name) reply :: w.events) :
      Stage.quiescing.At pool old r w' :=
    h.step (.asked (c := .datasetExists name) _ trivial reply) (hr.trans h.2) he
  refine .bind ((firstFree?_mem hout hask _ w h).mono ?_ fun _ _ => id)
  rintro (_ | p) w₁ ⟨h₁, hfound⟩
  · exact .throw ⟨.quiescing, rfl, h₁⟩
  · obtain ⟨rfl, hmem⟩ := hfound p rfl
    have hname : IsSafetyName p.pool p.fullName := exists_fullName_of_mem hmem
    refine .bind (.call hout fun reply w₂ hr he => .bind (.ofReply ?_ ?_))
    · rintro ⟨⟩ rfl
      exact .pure (h₁.step (.secured hname) (hr.trans h₁.2) he)
    · rintro f rfl
      exact ⟨.halted none, rfl, h₁.step (.unsecured hname f) (hr.trans h₁.2) he⟩

/-! ### From the claimed slot to the end of the cycle -/

def Completed (s : Status) : Prop :=
  s.inProgress = false ∧ s.progress = 100 ∧ s.lastStatus = "Restore completed successfully"

/-- The slot is free after a restore that failed, and the safety snapshot, if there is one, is
named. -/
def Failed (safety : Option String) (s : Status) : Prop :=
  s.inProgress = false ∧ s.progress = 0 ∧
    ∀ name, safety = some name → ∃ before after, s.lastStatus = before ++ name ++ after

/-- How a cycle ends that failed at a stage. -/
def EndsFailed (pool : String) (old : List Event) (w : World σ) : Prop :=
  ∃ (s : Stage) (r : Record), s.At pool old r w ∧ Failed s.safety? r.status

theorem fetchAndApply_ends (hout : ctx.host.Outside) (id : String) (safety : PoolSnapshot)
    (mountpoint : String) (h : (Stage.secured safety.fullName).At pool old r w) :
    Ensures ctx (fetchAndApply id safety mountpoint) w
      (fun _ w' => ∃ (name : String) (r' : Record), (Stage.applied name).At pool old r' w' ∧
        Completed r'.status)
      (fun _ => EndsFailed pool old) := by
  refine .bind (h.update fun w₁ h₁ => .bind (.outcome (.onFiles ?_ ?_)))
  · intro _ w₂ hr₂ he₂
    have h₂ := h₁.same hr₂ he₂
    refine .bind (h₂.update fun w₃ h₃ => .bind (.call hout fun fetched w₄ hr₄ he₄ => ?_))
    cases fetched with
    | error f =>
      have h₄ := h₃.step (.unfetched safety.fullName id _ f) (hr₄.trans h₃.2) he₄
      refine .bind (h₄.update fun w₅ h₅ => .bind (.onMachine fun _ w₆ hr₆ he₆ => .throw ?_))
      refine ⟨_, _, h₅.same hr₆ he₆, rfl, rfl, ?_⟩
      rintro name ⟨⟩
      exact ⟨_, _, rfl⟩
    | ok _ =>
      have h₄ := h₃.step (.fetched safety.fullName id _) (hr₄.trans h₃.2) he₄
      refine .bind (h₄.update fun w₅ h₅ => .bind (.call hout fun applied w₆ hr₆ he₆ => .bind ?_))
      refine .onMachine fun _ w₇ hr₇ he₇ => ?_
      cases applied with
      | error f =>
        have h₆ := h₅.step (.unapplied safety.fullName _ _ _ f) (hr₆.trans h₅.2) he₆
        refine .bind ((h₆.same hr₇ he₇).update fun w₈ h₈ => .throw ⟨_, _, h₈, rfl, rfl, ?_⟩)
        rintro name ⟨⟩
        exact ⟨_, _, rfl⟩
      | ok _ =>
        have h₆ := h₅.step (.applied safety.fullName _ _ _) (hr₆.trans h₅.2) he₆
        refine .bind ((h₆.same hr₇ he₇).update fun w₈ h₈ => .bind ?_)
        refine (startDependents_keeps hout h₈).mono (fun _ w₉ h₉ => ?_) fun _ _ hf => hf
        exact h₉.update fun w' h' => ⟨_, _, h', rfl, rfl, rfl⟩
  · intro f w₂ hr₂ he₂
    refine .bind ((h₁.same hr₂ he₂).update fun w₃ h₃ => .throw ⟨_, _, h₃, rfl, rfl, ?_⟩)
    rintro name ⟨⟩
    exact ⟨_, _, rfl⟩

theorem restoreCycle_ends (hout : ctx.host.Outside) (id : String)
    (h : Stage.quiescing.At ctx.settings.pool old r w) :
    Ensures ctx (restoreCycle id) w
      (fun _ w' => ∃ (name : String) (r' : Record),
        (Stage.applied name).At ctx.settings.pool old r' w' ∧ Completed r'.status)
      (fun _ => EndsFailed ctx.settings.pool old) := by
  refine .bind (.settings (.bind ((stopDependents_keeps hout h).mono ?_ fun _ _ hf => hf)))
  intro _ w₁ h₁
  refine .bind (h₁.update fun w₂ h₂ => .bind (h₂.ask hout trivial fun now w₃ h₃ => ?_))
  refine .bind (.outcome ((take_secures hout now h₃).mono ?_ ?_))
  · intro safety w₄ h₄
    refine .bind (h₄.update fun w₅ h₅ => .bind (h₅.ask hout trivial fun mounted w₆ h₆ => ?_))
    cases mounted with
    | ok mountpoint => exact fetchAndApply_ends hout id safety mountpoint h₆
    | error f =>
      refine .bind (h₆.update fun w₇ h₇ => .throw ⟨_, _, h₇, rfl, rfl, ?_⟩)
      rintro name ⟨⟩
      exact ⟨_, _, rfl⟩
  · rintro f w₄ ⟨s, hs, h₄⟩
    refine .bind (h₄.update fun w₅ h₅ => .throw ⟨s, _, h₅, rfl, rfl, ?_⟩)
    simp [hs]

/-! ### Who may begin -/

/-- A restore may begin: no cycle holds the slot, there is an order, a session and a pool. -/
def Admissible (ctx : Context σ) (id : String) (w : World σ) : Prop :=
  w.record.status.inProgress = false ∧ id ≠ "" ∧ w.record.status.connected = true ∧
    (ctx.host (.poolExists ctx.settings.pool) w).1 = true

/-- Nothing was touched, and nothing changed about who holds the slot. -/
def Refused (pool : String) (w w' : World σ) : Prop :=
  ∃ es, w'.events = es ++ w.events ∧ Trail pool .quiescing es ∧
    (∀ r saved, .updated r saved ∈ es → r.status.inProgress = w.record.status.inProgress) ∧
    w'.record.status.inProgress = w.record.status.inProgress

theorem Refused.refl (pool : String) (w : World σ) : Refused pool w w :=
  ⟨[], rfl, .start, by simp, rfl⟩

theorem Refused.ask {w' w'' : World σ} {c : Call} {reply : c.Reply} (h : Refused pool w w')
    (hc : IsQuestion c) (hr : w''.record = w'.record)
    (he : w''.events = .called c reply :: w'.events) : Refused pool w w'' := by
  obtain ⟨es, hes, htrail, hslot, hrecord⟩ := h
  refine ⟨.called c reply :: es, ?_, htrail.step (.asked _ hc reply), ?_, hr ▸ hrecord⟩
  · rw [he, hes, List.cons_append]
  · simpa using hslot

theorem Refused.update {w' w'' : World σ} {r : Record} {saved : Bool} (h : Refused pool w w')
    (hr : w''.record = r) (he : w''.events = .updated r saved :: w'.events)
    (hslot : r.status.inProgress = w'.record.status.inProgress) : Refused pool w w'' := by
  obtain ⟨es, hes, htrail, hslots, hrecord⟩ := h
  have hkept : r.status.inProgress = w.record.status.inProgress := hslot.trans hrecord
  refine ⟨.updated r saved :: es, ?_, htrail.step (.updated _ _ _), ?_, hr ▸ hkept⟩
  · rw [he, hes, List.cons_append]
  · rintro r' saved' hmem
    rcases List.mem_cons.mp hmem with heq | hmem
    · cases heq
      exact hkept
    · exact hslots r' saved' hmem

theorem refuseRestore_refuses {α : Type} {w' : World σ} {Q : α → World σ → Prop} (detail : String)
    (h : Refused pool w w') (hR : ∀ f w'', Refused pool w w'' → R f w'') :
    Ensures ctx (refuseRestore detail) w' Q R :=
  .bind <| .update fun _ _ hr he => .throw (hR _ _ (h.update hr he rfl))

/-- What is not admissible is refused. -/
theorem admitRestore_decides (hout : ctx.host.Outside) (id : String) (w : World σ) :
    Ensures ctx (admitRestore id) w
      (fun _ w' => Admissible ctx id w ∧ Stage.quiescing.At ctx.settings.pool w.events w.record w')
      (fun _ w' => ¬ Admissible ctx id w ∧ Refused ctx.settings.pool w w') := by
  have hrefl := Refused.refl ctx.settings.pool w
  have hstart : Stage.quiescing.At ctx.settings.pool w.events w.record w :=
    ⟨⟨[], rfl, .start⟩, rfl⟩
  refine .bind (.record (.bind (.settings (.ite (fun hbusy => ?_) fun hidle => .ite (fun hid => ?_)
    fun hid => .ite (fun hsession => ?_) fun hsession => .bind ?_))))
  · exact .bind (.throw ⟨fun h => absurd hbusy (by simp [h.1]), hrefl⟩)
  · exact .bind (.throw ⟨fun h => h.2.1 hid, hrefl⟩)
  · exact .bind (refuseRestore_refuses _ hrefl fun _ _ h' =>
      ⟨fun h => absurd hsession (by simp [h.2.2.1]), h'⟩)
  · refine .call_eq hout fun there w₁ hthere hr he => .ite (fun hnone => ?_) fun hsome => ?_
    · refine refuseRestore_refuses _ (hrefl.ask (by trivial) hr he) fun _ _ h' => ⟨fun h => ?_, h'⟩
      exact absurd hnone (by simp [hthere, h.2.2.2])
    · refine .pure ⟨⟨?_, hid, ?_, ?_⟩, hstart.step (.asked _ (by trivial) _) hr he⟩
      · simpa using hidle
      · simpa using hsession
      · simpa [hthere] using hsome

/-- How a restore ends that was not refused. -/
def EndsCompleted (pool : String) (old : List Event) (w : World σ) : Prop :=
  ∃ (name : String) (r : Record), (Stage.applied name).At pool old r w ∧ Completed r.status

theorem tryRestore_ends (hout : ctx.host.Outside) (id : String) (w : World σ) :
    Ensures ctx (tryRestore id) w
      (fun _ w' => Admissible ctx id w ∧ EndsCompleted ctx.settings.pool w.events w')
      (fun _ w' => (¬ Admissible ctx id w ∧ Refused ctx.settings.pool w w') ∨
        (Admissible ctx id w ∧ EndsFailed ctx.settings.pool w.events w')) := by
  refine .bind ((admitRestore_decides hout id w).mono ?_ fun _ _ h => .inl h)
  rintro _ w₁ ⟨hadmissible, h₁⟩
  have hidle : w₁.record.status.inProgress = false := h₁.2 ▸ hadmissible.1
  refine .bind (.bind (.record (.bind (h₁.update fun w₂ h₂ => .pure ?_))))
  simp only [hidle, Bool.not_false, Bool.not_true, Bool.false_eq_true, if_false]
  exact (restoreCycle_ends hout id h₂).mono (fun _ _ h => ⟨hadmissible, h⟩)
    fun _ _ h => .inr ⟨hadmissible, h⟩

/-- Clearing the order leaves the end of a restore as it is. -/
theorem restore_ends (hout : ctx.host.Outside) (id : String) (w : World σ) :
    Ensures ctx (restore id) w
      (fun _ w' => Admissible ctx (Text.trim id) w ∧ EndsCompleted ctx.settings.pool w.events w')
      (fun _ w' => (¬ Admissible ctx (Text.trim id) w ∧ Refused ctx.settings.pool w w') ∨
        (Admissible ctx (Text.trim id) w ∧ EndsFailed ctx.settings.pool w.events w')) := by
  refine .bind (.outcome ((tryRestore_ends hout (Text.trim id) w).mono ?_ ?_))
  · rintro _ w₁ ⟨hadmissible, name, r, h₁, hcompleted⟩
    exact .bind (h₁.update fun w₂ h₂ => .pure ⟨hadmissible, name, _, h₂, hcompleted⟩)
  · rintro f w₁ (⟨hnot, h₁⟩ | ⟨hadmissible, s, r, h₁, hfailed⟩)
    · exact .bind (.update fun _ _ hr he => .throw (.inl ⟨hnot, h₁.update hr he rfl⟩))
    · exact .bind (h₁.update fun w₂ h₂ => .throw (.inr ⟨hadmissible, s, _, h₂, hfailed⟩))

end Trail

end PoolKeeper.Service
