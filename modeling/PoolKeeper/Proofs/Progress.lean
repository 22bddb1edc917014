import PoolKeeper.Proofs.StepByStep

/-!
# `PoolKeeper/Proofs/Progress.lean` — every operation leaves the slot free

Most of the service may change the record, but not what the record says of the slot (`slot_steps`). What
is left are the two cycles. `Slot` says whether the slot is taken in a world that is otherwise good, and
each word of a cycle has its place: `claim` takes the slot, `advance` keeps it, and `failCycle` and
`completeCycle` give it back. A cycle that has just made a directory may have lost its file (`Holds`); its
next word finds it again.
-/

set_option autoImplicit false

namespace PoolKeeper.Service

open Operation

variable {σ : Type} {α β : Type} {ctx : Context σ} {K : σ → Prop} {w : World σ}

/-! ## The slot -/

/-- All is good, and a cycle holds the slot or none does. -/
def Slot (ctx : Context σ) (K : σ → Prop) (busy : Bool) (w : World σ) : Prop :=
  Good ctx K w ∧ w.record.status.inProgress = busy

/-- A cycle holds the slot, and all is good but for the file. -/
structure Holds (K : σ → Prop) (w : World σ) : Prop where
  orderly : Orderly w
  known : K w.host
  busy : w.record.status.inProgress = true

theorem Slot.holds (hw : Slot ctx K true w) : Holds K w := ⟨hw.1.orderly, hw.1.known, hw.2⟩

/-- What is done in passing leaves the slot to whoever has it. -/
theorem slot_steps {busy : Bool} (hkeeps : ctx.Keeps K) :
    SilentStepsPreserve ctx (fun _ => True) (Slot ctx K busy) where
  call _ _ hw := .call_good hkeeps hw.1 fun _ _ hr hgood => ⟨hgood, hr ▸ hw.2⟩
  update hf w hw := .update_good hw.1.orderly hw.1.known ((hf w.record).sound hw.1.orderly.held)
    (hf w.record).leads fun _ hr hgood => ⟨hgood, hr ▸ (hf w.record).1.trans hw.2⟩
  isThere := isThere_preserves _

theorem call_slot {busy : Bool} {c : Call} {Q : c.Reply → World σ → Prop}
    {R : Fault → World σ → Prop} (hkeeps : ctx.Keeps K) (hw : Slot ctx K busy w)
    (h : ∀ reply w', Slot ctx K busy w' → Q reply w') : Ensures ctx (call c) w Q R :=
  .call_good hkeeps hw.1 fun reply w' hr hgood => h reply w' ⟨hgood, hr ▸ hw.2⟩

section Words

variable {Q : Unit → World σ → Prop} {R : Fault → World σ → Prop} {status : String}

theorem claim_slot (hw : Slot ctx K false w) : Ensures ctx (claim status) w
    (fun claimed w' => claimed = true ∧ Slot ctx K true w') R := by
  refine .bind (.record (.bind (.update_good hw.1.orderly hw.1.known ?_ ?_ fun w' hr hw' =>
    .pure ⟨by simp [hw.2], hw', ?_⟩)))
  all_goals simp only [hw.2, Bool.false_eq_true, if_false] at *
  · exact Record.claim_sound _ _
  · intro hbusy
    simp [hw.2] at hbusy
  · rw [hr]
    rfl

theorem advance_slot {progress : UInt8} (hw : Holds K w) (h : ∀ w', Slot ctx K true w' → Q () w') :
    Ensures ctx (advance progress status) w Q R :=
  .update_good hw.orderly hw.known (Record.advance_sound hw.orderly.held hw.busy)
    (Record.advance_leads _ _ _) fun w' hr hw' => h w' ⟨hw', by rw [hr]; exact hw.busy⟩

theorem failCycle_slot (hw : Holds K w) (h : ∀ w', Slot ctx K false w' → Q () w') :
    Ensures ctx (failCycle status) w Q R :=
  .update_good hw.orderly hw.known (Record.fail_sound _ _) (fun _ hbusy => by cases hbusy)
    fun w' hr hw' => h w' ⟨hw', by rw [hr]; rfl⟩

theorem completeCycle_slot {result : Record → Record} (hresult : ∀ r : Record, r.SameSlot (result r))
    (hw : Holds K w) (h : ∀ w', Slot ctx K false w' → Q () w') :
    Ensures ctx (completeCycle status result) w Q R := by
  have hsame := hresult (w.record.complete status)
  have hidle : (result (w.record.complete status)).status.inProgress = false := hsame.1
  refine .update_good hw.orderly hw.known (hsame.sound (Record.complete_sound _ _))
    (fun _ hbusy => ?_) fun w' hr hw' => h w' ⟨hw', by rw [hr]; exact hidle⟩
  rw [hidle] at hbusy
  cases hbusy

end Words

/-! ## The cycles -/

theorem upload_slot (hkeeps : ctx.Keeps K) (s : PoolSnapshot) (now : Instant)
    {R : Fault → World σ → Prop} (hw : Slot ctx K true w) :
    Ensures ctx (upload s now) w (fun _ => Slot ctx K true) R := by
  refine .bind (.outcome (((slot_steps hkeeps).view s _ hw).mono ?_ ?_))
  · intro path w₁ hw₁
    exact .bind (advance_slot hw₁.holds fun w₂ hw₂ => .bind (call_slot hkeeps hw₂
      fun _ _ hw₃ => .pure hw₃))
  · exact fun f w₁ hw₁ => .pure hw₁

theorem backupCycle_slot (hkeeps : ctx.Keeps K) (retention : Retention) (window : Option String)
    (now : Instant) (hw : Slot ctx K true w) : Ensures ctx (backupCycle retention window now) w
      (fun _ => Slot ctx K false) (fun _ => Slot ctx K false) := by
  refine .bind (.settings (.bind (.outcome (((slot_steps hkeeps).take _ _ now _ hw).mono
    ?taken fun f w₁ hw₁ => .bind (failCycle_slot hw₁.holds fun w₂ hw₂ => .throw hw₂)))))
  intro snapshot w₁ hw₁
  refine .bind ((upload_slot hkeeps snapshot now hw₁).mono ?_ fun _ _ h => h)
  intro uploaded w₂ hw₂
  cases uploaded with
  | error e =>
    obtain ⟨status, f⟩ := e
    refine .bind (call_slot hkeeps hw₂ fun _ w₃ hw₃ => .bind (failCycle_slot hw₃.holds
      fun w₄ hw₄ => ?_))
    refine .guard (Slot ctx K false) (fun _ => ?_) (fun _ => hw₄) fun _ w₅ hw₅ => .throw hw₅
    exact (slot_steps hkeeps).update (f := (·.setConnected false)) (fun r => .refl r) _ hw₄
  | ok _ =>
    refine .bind (advance_slot hw₂.holds fun w₃ hw₃ => .bind (.outcome
      (((slot_steps hkeeps).applyRetention retention _ hw₃).mono ?_ ?_)))
    all_goals
      intro _ w₄ hw₄
      refine .bind (advance_slot hw₄.holds fun w₅ hw₅ => .bind (call_slot hkeeps hw₅
        fun _ w₆ hw₆ => .bind (call_slot hkeeps hw₆ fun finished w₇ hw₇ => ?_)))
      exact completeCycle_slot (fun r => .refl r) hw₇.holds fun _ hw₈ => hw₈

theorem backup_slot (hkeeps : ctx.Keeps K) (hw : Slot ctx K false w) :
    Ensures ctx backup w (fun _ => Slot ctx K false) (fun _ => Slot ctx K false) := by
  refine .bind (call_slot hkeeps hw fun now w₁ hw₁ => .bind (.record (.bind
    (((slot_steps hkeeps).admitBackup (fun _ _ => trivial) _ now _ hw₁).mono ?_ fun _ _ h => h))))
  intro window w₂ hw₂
  refine .bind ((claim_slot hw₂).mono ?_ fun _ _ h => h)
  rintro _ w₃ ⟨rfl, hw₃⟩
  exact backupCycle_slot hkeeps _ _ now hw₃

/-- Making the staging directory loses nothing but the file. -/
theorem makeStaging_holds {Q : Except Fault Unit → World σ → Prop} {R : Fault → World σ → Prop}
    (path : String) (hw : Slot ctx K true w) (h : ∀ made w', Holds K w' → Q made w') :
    Ensures ctx (outcome (onFiles (makeStaging path))) w Q R := by
  have hholds (made : Except Fault Unit) (m : Machine) : Q made { w with machine := m } :=
    h made _ ⟨hw.1.orderly.of_eq rfl rfl, hw.1.known, hw.2⟩
  refine .outcome (.bind (.onMachine_exact ?_))
  split
  next => exact .pure (hholds _ _)
  next => exact .throw (hholds _ _)

/-- Taking the staging directory away loses nothing. -/
theorem dropStaging_slot {busy : Bool} {Q : Unit → World σ → Prop} {R : Fault → World σ → Prop}
    (path : String) (hw : Slot ctx K busy w) (h : ∀ w', Slot ctx K busy w' → Q () w') :
    Ensures ctx (onMachine (dropStaging path)) w Q R := by
  refine .onMachine_exact (h _ ⟨⟨hw.1.orderly.of_eq rfl rfl, hw.1.known, ?_⟩, hw.2⟩)
  exact fun text htext => hw.1.filed text (Files.text?_removeTree htext)

theorem failKeeping_slot (safety : PoolSnapshot) (what : String) (f result : Fault)
    {Q : α → World σ → Prop} (hw : Holds K w) :
    Ensures ctx (failKeeping safety what f result : Operation σ α) w Q (fun _ => Slot ctx K false) :=
  .bind (failCycle_slot hw fun _ hw' => .throw hw')

theorem fetchAndApply_slot (hkeeps : ctx.Keeps K) (id : String) (safety : PoolSnapshot)
    (mountpoint : String) (hw : Slot ctx K true w) : Ensures ctx (fetchAndApply id safety mountpoint) w
      (fun _ => Slot ctx K false) (fun _ => Slot ctx K false) := by
  refine .bind (advance_slot hw.holds fun w₁ hw₁ => .bind (makeStaging_holds _ hw₁
    fun made w₂ hw₂ => ?_))
  cases made with
  | error f => exact failKeeping_slot _ _ _ _ hw₂
  | ok _ =>
    refine .bind (advance_slot hw₂ fun w₃ hw₃ => .bind (call_slot hkeeps hw₃
      fun fetched w₄ hw₄ => ?_))
    cases fetched with
    | error f =>
      exact .bind (failCycle_slot hw₄.holds fun w₅ hw₅ => .bind (dropStaging_slot _ hw₅
        fun w₆ hw₆ => .throw hw₆))
    | ok _ =>
      refine .bind (advance_slot hw₄.holds fun w₅ hw₅ => .bind (call_slot hkeeps hw₅
        fun applied w₆ hw₆ => .bind (dropStaging_slot _ hw₆ fun w₇ hw₇ => ?_)))
      cases applied with
      | error f => exact .bind (failCycle_slot hw₇.holds fun w₈ hw₈ => .throw hw₈)
      | ok _ =>
        refine .bind (advance_slot hw₇.holds fun w₈ hw₈ => .bind
          ((((slot_steps hkeeps).startDependents _ hw₈).and
            (startDependents_neverFails w₈)).mono ?_ fun _ _ h => h.2.elim))
        exact fun _ w₉ hw₉ => completeCycle_slot (fun r => .refl r) hw₉.1.holds fun _ h => h

theorem restoreCycle_slot (hkeeps : ctx.Keeps K) (id : String) (hw : Slot ctx K true w) :
    Ensures ctx (restoreCycle id) w (fun _ => Slot ctx K false) (fun _ => Slot ctx K false) := by
  refine .bind (.settings (.bind ((((slot_steps hkeeps).stopDependents _ hw).and
    (stopDependents_neverFails w)).mono ?_ fun _ _ h => h.2.elim)))
  rintro _ w₁ ⟨hw₁, -⟩
  refine .bind (advance_slot hw₁.holds fun w₂ hw₂ => .bind (call_slot hkeeps hw₂
    fun now w₃ hw₃ => .bind (.outcome (((slot_steps hkeeps).take _ _ now _ hw₃).mono ?_
      fun f w₄ hw₄ => .bind (failCycle_slot hw₄.holds fun _ hw₅ => .throw hw₅)))))
  intro safety w₄ hw₄
  refine .bind (advance_slot hw₄.holds fun w₅ hw₅ => .bind (call_slot hkeeps hw₅
    fun mounted w₆ hw₆ => ?_))
  cases mounted with
  | error f => exact failKeeping_slot _ _ _ _ hw₆.holds
  | ok mountpoint => exact fetchAndApply_slot hkeeps id safety mountpoint hw₆

theorem tryRestore_slot (hkeeps : ctx.Keeps K) (id : String) (hw : Slot ctx K false w) :
    Ensures ctx (tryRestore id) w (fun _ => Slot ctx K false) (fun _ => Slot ctx K false) := by
  refine .bind (((slot_steps hkeeps).admitRestore (fun _ _ => trivial) id _ hw).mono ?_ fun _ _ h => h)
  intro _ w₁ hw₁
  refine .bind ((claim_slot hw₁).mono ?_ fun _ _ h => h)
  rintro _ w₂ ⟨rfl, hw₂⟩
  exact restoreCycle_slot hkeeps id hw₂

/-! ## The operations -/

theorem restore_slot (hkeeps : ctx.Keeps K) (id : String) (hw : Slot ctx K false w) :
    Ensures ctx (restore id) w (fun _ => Slot ctx K false) (fun _ => Slot ctx K false) := by
  have hclear : Preserves ctx (Slot ctx K false)
      (Operation.update fun r => { r with config := r.config.clearTrigger }) :=
    (slot_steps hkeeps).update fun r => .refl r
  have hrest (result : Except Fault Unit) : Preserves ctx (Slot ctx K false) (do
      Operation.update fun r => { r with config := r.config.clearTrigger }
      ofReply result) := .bind hclear fun _ => .ofReply result
  exact .bind (.outcome ((tryRestore_slot hkeeps _ hw).mono (fun _ _ => hrest _ _)
    fun _ _ => hrest _ _))

theorem stop_slot (hw : Slot ctx K false w) :
    Ensures ctx stop w (fun _ => Slot ctx K false) (fun _ => Slot ctx K false) := by
  have hslot : ∀ r : Record, r.Sound → r.status.inProgress = false →
      let r' := if !r.config.enabled then r else
        let r := r.setConnected false
        if r.status.inProgress then r else { r with status := { r.status with progress := 0 } }
      r'.Sound ∧ r'.status.inProgress = false := by
    intro r hr hidle
    cases henabled : r.config.enabled with
    | false => exact ⟨hr, hidle⟩
    | true =>
      have hconnected : (r.setConnected false).status.inProgress = false := hidle
      simp only [Bool.not_true, Bool.false_eq_true, if_false, hconnected]
      exact ⟨⟨show (0 : UInt8) ≤ 100 by decide, fun _ => .inl rfl⟩, trivial⟩
  obtain ⟨hsound, hidle⟩ := hslot w.record hw.1.orderly.held hw.2
  refine .update_good hw.1.orderly hw.1.known hsound (fun hbusy => ?_) fun w' hr hw' =>
    ⟨hw', by rw [hr]; exact hidle⟩
  simp [hw.2] at hbusy

theorem configured_sameSlot (requested previous : Config) (r : Record) :
    r.SameSlot (configured requested previous r) := by
  unfold configured
  dsimp only
  split <;> exact .refl _

theorem parts_slot (hkeeps : ctx.Keeps K) : PartsPreserve ctx (Slot ctx K false) where
  now := (slot_steps hkeeps).call trivial
  say _ := (slot_steps hkeeps).update fun r => .refl r
  connect := (slot_steps hkeeps).ensureConnected fun _ _ => trivial
  get := (slot_steps hkeeps).get trivial
  stop _ := stop_slot
  backup _ := backup_slot hkeeps
  restore id _ := restore_slot hkeeps id
  configure _ _ _ := (slot_steps hkeeps).update (configured_sameSlot _ _)

theorem perform_slot (hkeeps : ctx.Keeps K) (a : Action) (hw : Slot ctx K false w) :
    Ensures ctx (perform a) w (fun _ => Slot ctx K false) (fun _ => Slot ctx K false) :=
  (parts_slot hkeeps).perform a w hw

end PoolKeeper.Service
