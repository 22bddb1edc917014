import Mathlib.Data.Finset.Card
import PoolKeeper.Proofs.Commands
import PoolKeeper.Proofs.Mirrored
import PoolKeeper.Proofs.OncePerWindow

/-!
# `PoolKeeper/Proofs/MinimumInterval.lean` — the time between two backups

With a frequency, the schedule starts no backup before that length of time has passed since the last one
was complete. What it compares are the time of the decision and the time in the record; what an operator
sees are the times at which backups were complete, by hand or by schedule, in this process or in the ones
before it, and the time at which the next one begins.

`completions` reads the first off the journal: a backup is complete when the clock is read after the
upload succeeded. `Course` is everything that may happen in between. The record agrees with the journal as
long as saves succeed, because a completed backup writes down just that reading (`backup_completes`),
because nothing else touches it, and because the next process finds it in the file (`Mirrored`).

Leap seconds are the reason why lengths of time are not simply subtracted. `Instant.line` puts instants
on a line on which leap seconds have a place of their own. What the schedule reckons (`Instant.since`) is
never more than the distance there, whatever leap seconds there were (`Instant.since_le_line`).
-/

set_option autoImplicit false

namespace PoolKeeper

/-! ## Lengths of time -/

namespace Instant

variable {leaps : Finset Int} {a b : Instant}

/-- Nanoseconds on a line on which the leap seconds after the seconds in `leaps` have a place. -/
def line (leaps : Finset Int) (t : Instant) : Int :=
  (t.seconds + (leaps.filter (· < t.seconds)).card) * nanosPerSecond + t.nanos

theorem card_before_mono {s t : Int} (h : s ≤ t) :
    (leaps.filter (· < s)).card ≤ (leaps.filter (· < t)).card :=
  Finset.card_le_card fun l hl => by
    rw [Finset.mem_filter] at hl ⊢
    exact ⟨hl.1, lt_of_lt_of_le hl.2 h⟩

theorem card_before_lt {s t : Int} (hs : s ∈ leaps) (h : s < t) :
    (leaps.filter (· < s)).card < (leaps.filter (· < t)).card := by
  refine Finset.card_lt_card ⟨fun l hl => ?_, fun hall => ?_⟩
  · rw [Finset.mem_filter] at hl ⊢
    exact ⟨hl.1, lt_trans hl.2 h⟩
  · exact lt_irrefl s (Finset.mem_filter.mp (hall (Finset.mem_filter.mpr ⟨hs, h⟩))).2

/-- What is not after an instant is not after it on the line. -/
theorem line_mono (ha : a.isRepresentable) (hleap : a.isLeap → a.seconds ∈ leaps)
    (h : a.NotAfter b) : a.line leaps ≤ b.line leaps := by
  unfold line nanosPerSecond
  rcases h with hlt | ⟨heq, hnanos⟩
  · have hmono : (leaps.filter (· < a.seconds)).card ≤ (leaps.filter (· < b.seconds)).card :=
      card_before_mono (le_of_lt hlt)
    by_cases hin : a.isLeap
    · have hstrict := card_before_lt (hleap hin) hlt
      have hbound : a.nanos < 2000000000 := by
        unfold isRepresentable nanosPerSecond at ha
        simp at ha
        omega
      omega
    · have hbound : a.nanos < 1000000000 := by
        unfold isLeap nanosPerSecond at hin
        simpa using hin
      omega
  · rw [heq]
    omega

/-- What is reckoned between two instants is never more than their distance on the line. -/
theorem since_le_line (hleap : b.isLeap → b.seconds ∈ leaps) (h : b.NotAfter a) :
    a.since b ≤ a.line leaps - b.line leaps := by
  have hmono : b.seconds ≤ a.seconds := by
    rcases h with hlt | ⟨heq, -⟩
    · exact le_of_lt hlt
    · exact le_of_eq heq
  have hcard : (leaps.filter (· < b.seconds)).card ≤ (leaps.filter (· < a.seconds)).card :=
    card_before_mono hmono
  unfold since line nanosPerSecond
  dsimp only
  split
  next hcounted =>
    -- A leap second is counted only if `b` lies in one and `a` in another second.
    simp only [Bool.and_eq_true, decide_eq_true_eq] at hcounted
    have hne : b.seconds ≠ a.seconds := by
      intro heq
      have hday : a.secondOfDay = b.secondOfDay := by rw [secondOfDay, secondOfDay, heq]
      omega
    have hstrict := card_before_lt (hleap hcounted.2) (lt_of_le_of_ne hmono hne)
    omega
  next =>
    split
    · omega
    · omega

end Instant

namespace Service

open Operation

variable {σ : Type} {ctx : Context σ} {w w' : World σ} {es es' : List Event}

/-! ## Completed backups in the journal -/

/-- An upload succeeded, and the clock was not read since. -/
def awaits : List Event → Bool
  | [] => false
  | .called (.upload ..) (.ok _) :: _ => true
  | .called .now _ :: _ => false
  | _ :: es => awaits es

/-- The times at which backups were complete, the latest first: the first that the clock said after an
upload had succeeded. -/
def completions : List Event → List Instant
  | [] => []
  | .called .now t :: es => if awaits es then t :: completions es else completions es
  | _ :: es => completions es

/-- Calls that neither read the clock nor upload. -/
def IsTimeless : Call → Prop
  | .now | .upload .. => False
  | _ => True

theorem awaits_called {c : Call} (hc : IsTimeless c) (reply : c.Reply) :
    awaits (.called c reply :: es) = awaits es := by
  cases c <;> first | exact hc.elim | rfl

theorem completions_called {c : Call} (hc : IsTimeless c) (reply : c.Reply) :
    completions (.called c reply :: es) = completions es := by
  cases c <;> first | exact hc.elim | rfl

theorem completions_updated (r : Record) (saved : Bool) :
    completions (.updated r saved :: es) = completions es := rfl

theorem completions_sublist (es : List Event) : (completions es).Sublist (readings es) := by
  induction es using completions.induct with
  | case1 => exact .refl _
  | case2 t es hawaits ih =>
    rw [completions, if_pos hawaits, readings_cons]
    exact ih.cons_cons t
  | case3 t es hawaits ih =>
    rw [completions, if_neg hawaits, readings_cons]
    exact ih.cons t
  | case4 e es hnow ih =>
    have hsame : completions (e :: es) = completions es := by rw [completions]; exact hnow
    rw [hsame, readings_cons]
    exact ih.trans (List.sublist_append_right _ _)

/-! ## Steps between backups -/

/-- The records have one last backup. -/
def KeepsBackup (r r' : Record) : Prop := r'.status.lastBackup = r.status.lastBackup

def KeepsFrequency (r r' : Record) : Prop := r'.config.frequency = r.config.frequency

/-- The records have all in common that the time of the next backup depends on. -/
structure KeepsInterval (r r' : Record) : Prop where
  frequency : KeepsFrequency r r'
  backup : KeepsBackup r r'

theorem KeepsInterval.trans {r r' r'' : Record} (h : KeepsInterval r r')
    (h' : KeepsInterval r' r'') : KeepsInterval r r'' :=
  ⟨Eq.trans h'.frequency h.frequency, Eq.trans h'.backup h.backup⟩

theorem Progresses.keepsInterval {r r' : Record} (h : Progresses r r') : KeepsInterval r r' := by
  constructor
  · rw [KeepsFrequency, h]
  · rw [KeepsBackup, h]

theorem Reconnects.keepsInterval {r r' : Record} (h : Reconnects r r') : KeepsInterval r r' := by
  constructor
  · rw [KeepsFrequency, h]
  · rw [KeepsBackup, h]

theorem Restores.keepsInterval {r r' : Record} (h : Restores r r') : KeepsInterval r r' := by
  rcases h with h | rfl
  · exact h.keepsInterval
  · exact ⟨rfl, rfl⟩

theorem stop_keepsInterval : Footprint ctx (fun _ => False) KeepsInterval stop := by
  refine .update fun r => ?_
  dsimp only
  split
  · exact ⟨rfl, rfl⟩
  · split <;> exact ⟨rfl, rfl⟩

theorem get_keepsInterval (hout : ctx.host.Outside) :
    Footprint ctx (· = .listSnapshots) KeepsInterval get := by
  refine .bind .record fun r => .ite (.pure r) (.bind (.call hout rfl) fun listed => ?_)
  cases listed with
  | error f => exact .pure r
  | ok snapshots => exact .bind (.update fun _ => ⟨rfl, rfl⟩) fun _ => .record

/-- Nothing came of what was done: no backup was completed, and none is waited for. -/
structure Rests (w w' : World σ) : Prop where
  grows : w.events <:+ w'.events
  settled : awaits w'.events = false
  completions : completions w'.events = completions w.events
  keeps : KeepsBackup w.record w'.record

theorem Rests.refl (h : awaits w.events = false) : Rests w w := ⟨List.suffix_refl _, h, rfl, rfl⟩

def IsNoUpload : Call → Prop
  | .upload .. => False
  | _ => True

theorem IsRestoring.isNoUpload {c : Call} (h : IsRestoring c) : IsNoUpload c := by
  cases c <;> first | exact h.elim | trivial

theorem IsConnecting.isNoUpload {c : Call} (h : IsConnecting c) : IsNoUpload c := by
  cases c <;> first | exact h.elim | trivial

theorem rests_called {c : Call} (hc : IsNoUpload c) (reply : c.Reply) (h : awaits es = false) :
    awaits (.called c reply :: es) = false ∧ completions (.called c reply :: es) = completions es := by
  cases c
  case now => exact ⟨rfl, by rw [completions, if_neg (by simp [h])]⟩
  all_goals first | exact hc.elim | exact ⟨h, rfl⟩

theorem Rests.steps (h : Rests w w') {w'' : World σ} (hsteps : Steps IsNoUpload KeepsBackup w' w'') :
    Rests w w'' := by
  -- That nothing is waited for is needed to know that a reading of the clock completes nothing.
  have hkept := hsteps.keeps (P := fun r es => w.events <:+ es ∧ awaits es = false ∧
    Service.completions es = Service.completions w.events ∧ KeepsBackup w.record r) ?_ ?_
    ⟨h.grows, h.settled, h.completions, h.keeps⟩
  · exact ⟨hkept.1, hkept.2.1, hkept.2.2.1, hkept.2.2.2⟩
  · rintro c reply r es hc ⟨hgrows, hsettled, hcompletions, hkeeps⟩
    obtain ⟨hsettled', hcompletions'⟩ := rests_called hc reply hsettled
    exact ⟨hgrows.trans (List.suffix_cons _ _), hsettled', hcompletions'.trans hcompletions, hkeeps⟩
  · rintro r r' saved es hr ⟨hgrows, hsettled, hcompletions, hkeeps⟩
    exact ⟨hgrows.trans (List.suffix_cons _ _), hsettled, hcompletions, Eq.trans hr hkeeps⟩

/-- An operation without an upload. -/
theorem Rests.of_footprint {α : Type} {op : Operation σ α} (h : Rests w w')
    (hop : Footprint ctx IsNoUpload KeepsBackup op) :
    Ensures ctx op w' (fun _ => Rests w) (fun _ => Rests w) :=
  (hop w').mono (fun _ _ => h.steps) fun _ _ => h.steps

/-- A step without an upload, and then the rest. -/
theorem Rests.bind {α β : Type} {op : Operation σ α} {next : α → Operation σ β}
    {Q : β → World σ → Prop} (h : Rests w w') (hop : Footprint ctx IsNoUpload KeepsBackup op)
    (hnext : ∀ a w'', Rests w w'' → Ensures ctx (next a) w'' Q (fun _ => Rests w)) :
    Ensures ctx (op >>= next) w' Q (fun _ => Rests w) :=
  .bind ((h.of_footprint hop).mono hnext fun _ _ h => h)

/-! ## A backup -/

/-- A backup was completed at the instant. -/
structure Completes (finished : Instant) (w w' : World σ) : Prop where
  settled : awaits w'.events = false
  completions : completions w'.events = finished :: completions w.events
  writes : w'.record.status.lastBackup = some finished

theorem account_keepsBackup {f : Record → Record} (hf : ∀ r, Progresses r (f r)) :
    Footprint ctx IsNoUpload KeepsBackup (Operation.update f) :=
  .update fun r => (hf r).keepsInterval.backup

/-- The upload succeeded, and the clock was not read since. -/
structure Uploaded (w w' : World σ) : Prop where
  awaits : awaits w'.events = true
  completions : completions w'.events = completions w.events

theorem Uploaded.steps {C : Call → Prop} {U : Record → Record → Prop} (h : Uploaded w w')
    (hC : ∀ c, C c → IsTimeless c) {w'' : World σ} (hsteps : Steps C U w' w'') : Uploaded w w'' := by
  have hkept := hsteps.keeps (P := fun _ es => Service.awaits es = true ∧
    Service.completions es = Service.completions w.events) ?_ ?_ ⟨h.awaits, h.completions⟩
  · exact ⟨hkept.1, hkept.2⟩
  · rintro c reply _ es hc ⟨hawaits, hcompletions⟩
    exact ⟨(awaits_called (hC c hc) reply).trans hawaits,
      (completions_called (hC c hc) reply).trans hcompletions⟩
  · intro _ _ _ _ _ hkept
    exact hkept

theorem Uploaded.of_footprint {α : Type} {C : Call → Prop} {U : Record → Record → Prop}
    {op : Operation σ α} (h : Uploaded w w') (hC : ∀ c, C c → IsTimeless c)
    (hop : Footprint ctx C U op) :
    Ensures ctx op w' (fun _ => Uploaded w) (fun _ => Uploaded w) :=
  (hop w').mono (fun _ _ => h.steps hC) fun _ _ => h.steps hC

theorem Uploaded.updated {r : Record} {saved : Bool} {w'' : World σ} (h : Uploaded w w')
    (he : w''.events = .updated r saved :: w'.events) : Uploaded w w'' :=
  ⟨he ▸ h.awaits, he ▸ h.completions⟩

theorem upload_uploads (hout : ctx.host.Outside) (s : PoolSnapshot) (now : Instant)
    (h : Rests w w') : Ensures ctx (upload s now) w'
      (fun result w'' => match result with
        | .ok _ => Uploaded w w''
        | .error _ => Rests w w'') (fun _ => Rests w) := by
  have hview : Footprint ctx IsNoUpload KeepsBackup s.view :=
    (view_footprint hout s).mono (by rintro _ rfl; trivial) fun _ _ h => h.elim
  refine h.bind hview.outcome fun path w₁ h₁ => ?_
  cases path with
  | error f => exact .pure h₁
  | ok path =>
    refine h₁.bind (account_keepsBackup fun _ => rfl) fun _ w₂ h₂ => ?_
    refine .bind (.call hout fun reply w₃ hr he => .pure ?_)
    cases reply with
    | error f =>
      refine ⟨?_, ?_, ?_, by rw [hr]; exact h₂.keeps⟩
      · rw [he]
        exact h₂.grows.trans (List.suffix_cons _ _)
      · rw [he]
        exact h₂.settled
      · rw [he]
        exact h₂.completions
    | ok _ =>
      constructor
      · rw [he]
        rfl
      · rw [he]
        exact h₂.completions

/-- What is left to do after an upload ends with a reading of the clock, which is written down. -/
theorem finish_completes (hout : ctx.host.Outside) (retention : Retention) (window : Option String)
    (snapshot : PoolSnapshot) {R : Fault → World σ → Prop} (h : Uploaded w w') :
    Ensures ctx (do
      advance 75 "Applying retention policies"
      let _ ← outcome (applyRetention retention)
      advance 90 "Cleaning up ZFS snapshot"
      let _ ← call (.destroy snapshot.fullName)
      let finished ← call .now
      completeCycle "Backup completed successfully" (backedUp finished window)) w'
      (fun _ w'' => ∃ finished, Completes finished w w'') R := by
  have hexpire : Footprint ctx (· = .expire retention) Untouched (applyRetention retention) :=
    applyRetention_footprint hout retention
  have hend (w₁ : World σ) (h₁ : Uploaded w w₁) : Ensures ctx (do
      advance 90 "Cleaning up ZFS snapshot"
      let _ ← call (.destroy snapshot.fullName)
      let finished ← call .now
      completeCycle "Backup completed successfully" (backedUp finished window)) w₁
      (fun _ w'' => ∃ finished, Completes finished w w'') R := by
    refine .bind (.update fun _ w₂ _ he₂ => .bind (.call hout fun reply w₃ _ he₃ => .bind ?_))
    have h₃ : Uploaded w w₃ := (h₁.updated he₂).steps (U := Untouched) (C := (· = .destroy _))
      (by rintro _ rfl; trivial) (.single (.called rfl ‹_› he₃))
    refine .call hout fun finished w₄ _ he₄ => .update fun saved w₅ hr₅ he₅ => ⟨finished, ?_⟩
    refine ⟨?_, ?_, by rw [hr₅]; rfl⟩
    · rw [he₅, he₄]
      rfl
    · rw [he₅, he₄, completions_updated, completions, if_pos h₃.awaits, h₃.completions]
  refine .bind (.update fun _ w₁ _ he₁ => .bind (.outcome ?_))
  exact ((h.updated he₁).of_footprint (by rintro _ rfl; trivial) hexpire).mono (fun _ => hend)
    fun _ => hend

theorem backupCycle_completes (hout : ctx.host.Outside) (retention : Retention)
    (window : Option String) (now : Instant) (h : Rests w w') :
    Ensures ctx (backupCycle retention window now) w'
      (fun _ w'' => ∃ finished, Completes finished w w'') (fun _ => Rests w) := by
  have htake : Footprint ctx IsNoUpload KeepsBackup
      (PoolSnapshot.take ctx.settings.pool .backup now) :=
    (take_footprint hout _ _ now).mono (fun _ h => h.isRestoring.isNoUpload) fun _ _ h => h.elim
  refine .bind (.settings (h.bind htake.outcome fun taken w₁ h₁ => ?_))
  cases taken with
  | error f => exact h₁.bind (account_keepsBackup fun _ => rfl) fun _ _ h₂ => .throw h₂
  | ok snapshot =>
    refine .bind ((upload_uploads hout snapshot now h₁).mono ?_ fun _ _ h => h)
    rintro (⟨status, f⟩ | ⟨⟩) w₂ h₂
    -- The snapshot is destroyed, the failure is told, and maybe the session ends.
    · refine Rests.bind h₂ (.call hout trivial) fun _ w₃ h₃ => ?_
      refine h₃.bind (account_keepsBackup fun _ => rfl) fun _ w₄ h₄ => ?_
      exact .guard (Rests w) (fun _ => h₄.of_footprint (.update fun _ => rfl)) (fun _ => h₄)
        fun _ _ h₅ => .throw h₅
    · exact finish_completes hout retention window snapshot h₂

/-- A backup that succeeds is completed, at the time that it writes down; one that fails leaves
everything as it was. -/
theorem backup_completes (hout : ctx.host.Outside) (h : awaits w.events = false) :
    Ensures ctx backup w (fun _ w' => ∃ finished, Completes finished w w') (fun _ => Rests w) := by
  have hwindow (r : Record) (now : Instant) :
      Footprint ctx IsNoUpload KeepsBackup (admitBackup r now) :=
    (admitBackup_footprint hout r now).mono (by rintro _ ⟨pool, rfl⟩; trivial)
      fun _ _ h => h.keepsInterval.backup
  have hclaim (status : String) : Footprint ctx IsNoUpload KeepsBackup (claim status) :=
    (claim_footprint status).mono (fun _ h => h) fun _ _ h => h.keepsInterval.backup
  refine (Rests.refl h).bind (.call hout trivial) fun now w₁ h₁ => .bind (.record ?_)
  refine h₁.bind (hwindow _ now) fun window w₂ h₂ => h₂.bind (hclaim _) fun claimed w₃ h₃ => ?_
  exact .ite (fun _ => .bind (.throw h₃)) fun _ => backupCycle_completes hout _ _ now h₃

/-! ## What the record knows -/

/-- Every save succeeded, and all that the clock said can be written down. -/
def Faithful (es : List Event) : Prop := AllSaved es ∧ ∀ t ∈ readings es, t.isRepresentable

theorem Faithful.of_suffix (h : Faithful es') (hsuffix : es <:+ es') : Faithful es := by
  refine ⟨h.1.of_suffix hsuffix, fun t ht => h.2 t ?_⟩
  exact (List.IsSuffix.filterMap reading? hsuffix).subset ht

/-- The time in the record is that of the backup which was completed last, if there was one, and none is
waited for. -/
def Marks (w : World σ) : Prop :=
  awaits w.events = false ∧ (Faithful w.events →
    ∀ t ∈ (completions w.events).head?, w.record.status.lastBackup = some t)

theorem Rests.marks (h : Rests w w') (hw : Marks w) : Marks w' := by
  refine ⟨h.settled, fun hfaithful t ht => ?_⟩
  rw [h.completions] at ht
  exact Eq.trans h.keeps (hw.2 (hfaithful.of_suffix h.grows) t ht)

theorem Completes.marks {finished : Instant} (h : Completes finished w w') : Marks w' := by
  refine ⟨h.settled, fun _ t ht => ?_⟩
  rw [h.completions] at ht
  cases ht
  exact h.writes

theorem marks_of_footprint {α : Type} {op : Operation σ α}
    (hop : Footprint ctx IsNoUpload KeepsBackup op) : Preserves ctx Marks op := fun _ hw =>
  ((Rests.refl hw.1).of_footprint hop).mono (fun _ _ h => h.marks hw) fun _ _ h => h.marks hw

theorem parts_mark (hout : ctx.host.Outside) : PartsPreserve ctx Marks where
  now := marks_of_footprint (.call hout trivial)
  say _ := marks_of_footprint (account_keepsBackup fun _ => rfl)
  connect := marks_of_footprint ((ensureConnected_footprint hout).mono
    (fun _ h => h.isNoUpload) fun _ _ h => h.keepsInterval.backup)
  get := marks_of_footprint ((get_keepsInterval hout).mono (by rintro _ rfl; trivial)
    fun _ _ h => h.backup)
  stop := marks_of_footprint (stop_keepsInterval.mono (fun _ h => h.elim) fun _ _ h => h.backup)
  backup _ hw := (backup_completes hout hw.1).mono (fun _ _ ⟨_, h⟩ => h.marks) fun _ _ h => h.marks hw
  restore id := marks_of_footprint ((restore_footprint hout id).mono
    (fun _ h => h.isNoUpload) fun _ _ h => h.keepsInterval.backup)
  configure _ _ _ := marks_of_footprint (.update fun r => by
    unfold configured KeepsBackup
    dsimp only
    split <;> rfl)

/-! ## The frequency -/

def HasFrequency (frequency : String) (w : World σ) : Prop := w.record.config.frequency = frequency

variable {frequency : String} {C : Call → Prop}

theorem hasFrequency_of_footprint {α : Type} {op : Operation σ α}
    (hop : Footprint ctx C KeepsFrequency op) : Preserves ctx (HasFrequency frequency) op :=
  .of_footprint (P := fun r => r.config.frequency = frequency) hop fun _ _ hU hr => Eq.trans hU hr

/-- The operation leaves the frequency alone, whatever it calls. -/
abbrev LeavesFrequency (ctx : Context σ) {α : Type} (op : Operation σ α) : Prop :=
  Footprint ctx (fun _ => True) KeepsFrequency op

theorem Progresses.leavesFrequency {α : Type} {op : Operation σ α} (h : Footprint ctx C Progresses op) :
    LeavesFrequency ctx op := h.mono (fun _ _ => trivial) fun _ _ h => h.keepsInterval.frequency

theorem Untouched.leavesFrequency {α : Type} {op : Operation σ α} (h : Footprint ctx C Untouched op) :
    LeavesFrequency ctx op := h.mono (fun _ _ => trivial) fun _ _ h => h.elim

theorem connect_leavesFrequency (hout : ctx.host.Outside) : LeavesFrequency ctx ensureConnected :=
  (ensureConnected_footprint hout).mono (fun _ _ => trivial) fun _ _ h => h.keepsInterval.frequency

theorem restore_leavesFrequency (hout : ctx.host.Outside) (id : String) :
    LeavesFrequency ctx (restore id) :=
  (restore_footprint hout id).mono (fun _ _ => trivial) fun _ _ h => h.keepsInterval.frequency

theorem start_leavesFrequency (hout : ctx.host.Outside) : LeavesFrequency ctx start :=
  .bind (.bind .record fun _ => .pure _) fun _ => .ite (connect_leavesFrequency hout) (.pure ())

theorem stop_leavesFrequency : LeavesFrequency ctx stop :=
  stop_keepsInterval.mono (fun _ _ => trivial) fun _ _ h => h.frequency

theorem get_leavesFrequency (hout : ctx.host.Outside) : LeavesFrequency ctx get :=
  (get_keepsInterval hout).mono (fun _ _ => trivial) fun _ _ h => h.frequency

theorem backup_leavesFrequency (hout : ctx.host.Outside) : LeavesFrequency ctx backup := by
  have hcycle (retention : Retention) (window : Option String) (now : Instant) :
      LeavesFrequency ctx (backupCycle retention window now) := by
    refine .bind .settings fun s =>
      .bind (Untouched.leavesFrequency (take_footprint hout _ _ now)).outcome fun taken => ?_
    cases taken with
    | error f => exact .bind (.update fun _ => rfl) fun _ => .throw f
    | ok snapshot =>
      refine .bind (Progresses.leavesFrequency (upload_footprint hout snapshot now)) fun uploaded => ?_
      rcases uploaded with ⟨status, f⟩ | ⟨⟩
      · exact .bind (.call hout trivial) fun _ => .bind (.update fun _ => rfl) fun _ =>
          .guard (.update fun _ => rfl) fun _ => .throw f
      · exact .bind (.update fun _ => rfl) fun _ =>
          .bind (Untouched.leavesFrequency (applyRetention_footprint hout retention)).outcome fun _ =>
          .bind (.update fun _ => rfl) fun _ => .bind (.call hout trivial) fun _ =>
          .bind (.call hout trivial) fun _ => .update fun _ => rfl
  exact .bind (.call hout trivial) fun now => .bind .record fun r =>
    .bind (Progresses.leavesFrequency (admitBackup_footprint hout r now)) fun _ =>
    .bind (Progresses.leavesFrequency (C := IsQuestion) (claim_footprint _)) fun _ =>
    .guard (.throw _) fun _ => hcycle _ _ now

theorem look_leavesFrequency (hout : ctx.host.Outside) : LeavesFrequency ctx look := by
  have hjudge (now : Instant) : LeavesFrequency ctx (judge now) := by
    refine .bind .record fun r => .bind .settings fun s => ?_
    cases Schedule.decide r s.windows now with
    | error defect => exact .guard (.update fun _ => rfl) fun _ => .throw _
    | ok decision => exact .pure decision
  exact .bind (.call hout trivial) fun now => .bind .record fun _ =>
    .ite (.bind (connect_leavesFrequency hout).outcome fun _ => hjudge now) (hjudge now)

theorem tick_leavesFrequency (hout : ctx.host.Outside) : LeavesFrequency ctx tick := by
  rw [tick_eq_look]
  refine .bind (look_leavesFrequency hout) fun decision => .bind ?_ fun _ => .pure decision
  cases decision with
  | run window => exact backup_leavesFrequency hout
  | skip reason => exact .pure ()

/-- A configuration that is taken over brings its frequency with it. -/
theorem update_hasFrequency (hout : ctx.host.Outside) {requested : Config}
    (hrequested : requested.frequency = frequency) :
    Preserves ctx (HasFrequency frequency) (update requested) := by
  refine .update (hasFrequency_of_footprint stop_leavesFrequency)
    (fun id => hasFrequency_of_footprint (restore_leavesFrequency hout id))
    (hasFrequency_of_footprint (connect_leavesFrequency hout)) fun w₀ _ w _ => ?_
  refine .update fun _ w' hr _ => ?_
  have htaken : (Config.takeRestoreOrder w₀.record.config requested).2.frequency =
      requested.frequency := by
    unfold Config.takeRestoreOrder
    dsimp only
    split <;> rfl
  rw [HasFrequency, hr, configured, ← hrequested, ← htaken]
  split <;> rfl

/-- The action asks for no other frequency. -/
def Action.Keeps (frequency : String) : Action → Prop
  | .update requested | .apply (.update requested) => requested.frequency = frequency
  | _ => True

theorem perform_hasFrequency (hout : ctx.host.Outside) {a : Action} (ha : a.Keeps frequency) :
    Preserves ctx (HasFrequency frequency) (perform a) := by
  cases a with
  | update requested => exact update_hasFrequency hout ha
  | start => exact hasFrequency_of_footprint (start_leavesFrequency hout)
  | stop => exact hasFrequency_of_footprint stop_leavesFrequency
  | get => exact .bind (hasFrequency_of_footprint (get_leavesFrequency hout)) fun _ => .pure _
  | tick => exact .bind (hasFrequency_of_footprint (tick_leavesFrequency hout)) fun _ => .pure _
  | backup => exact hasFrequency_of_footprint (backup_leavesFrequency hout)
  | restore id => exact hasFrequency_of_footprint (restore_leavesFrequency hout id)
  | apply r =>
    cases r with
    | update requested => exact update_hasFrequency hout ha
    | restore id =>
      intro w hw
      have hsame : ({ w.record.config with restoreTrigger := id } : Config).frequency = frequency := hw
      exact .bind (.record (update_hasFrequency hout hsame w hw))
    | backup =>
      exact .bind (hasFrequency_of_footprint (start_leavesFrequency hout)) fun _ =>
        hasFrequency_of_footprint (backup_leavesFrequency hout)

/-! ## One process after the other -/

/-- The journal goes on from `old`. -/
def GoesOn (old : List Event) (w : World σ) : Prop := old <:+ w.events

theorem goesOn_steps (hout : ctx.host.Outside) (old : List Event) :
    StepsPreserve ctx (fun _ => True) (GoesOn old) where
  call _ w hw := .call hout fun _ _ _ he => by
    rw [GoesOn, he]
    exact hw.trans (List.suffix_cons _ _)
  update f w hw := .update fun _ _ _ he => by
    rw [GoesOn, he]
    exact hw.trans (List.suffix_cons _ _)
  isThere := isThere_preserves _

theorem parts_goOn (hout : ctx.host.Outside) (old : List Event) :
    PartsPreserve ctx (GoesOn old) := by
  refine (goesOn_steps hout old).parts fun id w hw => ?_
  have hkept {w' : World σ} (h : Steps IsRestoring Restores w w') : GoesOn old w' :=
    h.keeps (P := fun _ es => old <:+ es) (fun _ _ _ _ _ h => h.trans (List.suffix_cons _ _))
      (fun _ _ _ _ _ h => h.trans (List.suffix_cons _ _)) hw
  exact (restore_footprint hout id w).mono (fun _ _ => hkept) fun _ _ => hkept

/-- What may happen to a service that has the frequency. Its processes write one journal. -/
inductive Course (ctx : Context σ) (frequency : String) : World σ → Prop
  /-- The first process opens the file. -/
  | opened {m m' : Machine} {host : σ} {r : Record}
    (hopen : (openRecord ctx.settings.statePath).run.run m = (.ok r, m'))
    (hfrequency : r.config.frequency = frequency) : Course ctx frequency ⟨r, m', host, []⟩
  /-- Something is asked of the service, but no other frequency. -/
  | act {w : World σ} (h : Course ctx frequency w) (a : Action) (ha : a.Keeps frequency) :
    Course ctx frequency (runIn ctx (perform a) w).2
  /-- Others are at work on the machine, but not on the state file. -/
  | elsewhere {w : World σ} {m : Machine} (h : Course ctx frequency w)
    (hfile : ((Files.readText ctx.settings.statePath).run.run m).1 =
      ((Files.readText ctx.settings.statePath).run.run w.machine).1) :
    Course ctx frequency { w with machine := m }
  /-- The next process opens the file. -/
  | restart {w : World σ} {m : Machine} {host : σ} {r : Record} (h : Course ctx frequency w)
    (hopen : (openRecord ctx.settings.statePath).run.run w.machine = (.ok r, m)) :
    Course ctx frequency ⟨r, m, host, w.events⟩

/-- What every world on the way is like. -/
structure OnCourse (ctx : Context σ) (frequency : String) (w : World σ) : Prop where
  marks : Marks w
  mirrored : Mirrored ctx w
  hasFrequency : AllSaved w.events → HasFrequency frequency w

theorem onCourse (hout : ctx.host.Outside) (hfile : ctx.host.LeavesFile ctx.settings.statePath)
    (h : Course ctx frequency w) : OnCourse ctx frequency w := by
  induction h with
  | opened hopen hfrequency =>
    refine ⟨⟨rfl, fun _ t ht => ?_⟩, fun _ => (mirrors_open hopen).2, fun _ => hfrequency⟩
    cases ht
  | @act w _ a ha ih =>
    refine ⟨((parts_mark hout).perform a _ ih.marks).of_runIn,
      ((parts_mirrored hout hfile).perform a _ ih.mirrored).of_runIn, fun hsaved => ?_⟩
    have hgrows := ((parts_goOn hout w.events).perform a w (List.suffix_refl _)).of_runIn
    exact (perform_hasFrequency hout ha _ (ih.hasFrequency (hsaved.of_suffix hgrows))).of_runIn
  | elsewhere _ hsame ih =>
    exact ⟨ih.marks, fun hsaved => Mirrors.congr (ih.mirrored hsaved) hsame, ih.hasFrequency⟩
  | restart _ hopen ih =>
    -- The next process knows only what is in the file, which is where the saves count.
    refine ⟨⟨ih.marks.1, fun hfaithful t ht => ?_⟩, fun _ => (mirrors_open hopen).2, fun hsaved => ?_⟩
    · have hread : t ∈ readings _ := (completions_sublist _).subset (List.mem_of_mem_head? ht)
      exact (ih.mirrored hfaithful.1 _ _ hopen).lastBackup t (ih.marks.2 hfaithful t ht)
        (hfaithful.2 t hread)
    · exact (congrArg Config.frequency (ih.mirrored hsaved _ _ hopen).config).trans
        (ih.hasFrequency hsaved)

/-! ## A look at the schedule -/

/-- A backup is due by its frequency only if the last one is not too recent. -/
theorem decide_due {r : Record} {ws : List Window} {now : Instant} {window : String}
    {interval : Span} (hevery : r.config.readFrequency = .ok (.every interval))
    (h : Schedule.decide r ws now = .ok (.run window)) :
    Schedule.isTooSoon interval r.status.lastBackup now = false := by
  unfold Schedule.decide at h
  rw [hevery] at h
  repeat' split at h
  all_goals simp_all

theorem readFrequency_congr {c c' : Config} (h : c'.frequency = c.frequency) :
    c'.readFrequency = c.readFrequency := by
  unfold Config.readFrequency
  rw [h]

/-- What a look at the schedule goes by if it finds that a backup is due: the time that it reads, and what
was in the record before. -/
theorem look_due (hout : ctx.host.Outside) {interval : Span}
    (hevery : w.record.config.readFrequency = .ok (.every interval)) :
    Ensures ctx look w (fun decision w' => ∀ window, decision = .run window →
      ∃ now, readings w'.events = now :: readings w.events ∧
        Schedule.isTooSoon interval w.record.status.lastBackup now = false) (fun _ _ => True) := by
  refine .bind (.call hout fun now w₁ hr₁ he₁ => .bind (.record ?_))
  -- The session is seen to before the schedule is looked at.
  have hjudge (w₂ : World σ) (hreads : readings w₂.events = now :: readings w.events)
      (hkeeps : KeepsInterval w.record w₂.record) :
      Ensures ctx (judge now) w₂ (fun decision w' => ∀ window, decision = .run window →
        ∃ now, readings w'.events = now :: readings w.events ∧
          Schedule.isTooSoon interval w.record.status.lastBackup now = false)
        (fun _ _ => True) := by
    refine .bind (.record (.bind (.settings ?_)))
    cases hdecision : Schedule.decide w₂.record ctx.settings.windows now with
    | error defect =>
      exact .guard (fun _ => True) (fun _ => .update fun _ _ _ _ => trivial) (fun _ => trivial)
        fun _ _ _ => .throw trivial
    | ok decision =>
      refine .pure fun window hrun => ⟨now, hreads, ?_⟩
      rw [hrun] at hdecision
      rw [← hkeeps.backup]
      exact decide_due ((readFrequency_congr hkeeps.frequency).trans hevery) hdecision
  have hreads₁ : readings w₁.events = now :: readings w.events := by
    rw [he₁]
    rfl
  have hkeeps₁ : KeepsInterval w.record w₁.record := by
    rw [hr₁]
    exact ⟨rfl, rfl⟩
  have hconnect : Ensures ctx ensureConnected w₁
      (fun _ w₂ => readings w₂.events = now :: readings w.events ∧
        KeepsInterval w.record w₂.record)
      (fun _ w₂ => readings w₂.events = now :: readings w.events ∧
        KeepsInterval w.record w₂.record) := by
    have hkept {w₂ : World σ} (h : Steps IsConnecting Reconnects w₁ w₂) :
        readings w₂.events = now :: readings w.events ∧ KeepsInterval w.record w₂.record := by
      refine h.keeps (P := fun r es => readings es = now :: readings w.events ∧
        KeepsInterval w.record r) ?_ ?_ ⟨hreads₁, hkeeps₁⟩
      · intro c reply r es hc hkept
        cases c <;> first | exact hc.elim | exact hkept
      · intro r r' saved es hr hkept
        exact ⟨hkept.1, hkept.2.trans hr.keepsInterval⟩
    exact (ensureConnected_footprint hout w₁).mono (fun _ _ => hkept) fun _ _ => hkept
  refine .ite (fun _ => .bind (.outcome (hconnect.mono ?_ ?_))) fun _ => hjudge w₁ hreads₁ hkeeps₁
  · exact fun _ w₂ h => hjudge w₂ h.1 h.2
  · exact fun _ w₂ h => hjudge w₂ h.1 h.2

/-- Where the clock does not go back, what was complete before the last backup is not too recent
either. -/
theorem line_of_due {interval : Span} {now began finished : Instant} {leaps : Finset Int}
    (hreads : readings w'.events = now :: readings w.events)
    (hdue : Schedule.isTooSoon interval w.record.status.lastBackup now = false)
    (hmarks : ∀ t ∈ (completions w.events).head?, w.record.status.lastBackup = some t)
    (hclock : Clocked (.called .now began :: w'.events))
    (hleaps : ∀ t ∈ readings (.called .now began :: w'.events), t.isLeap → t.seconds ∈ leaps)
    (hfinished : finished ∈ completions w.events) :
    finished.line leaps + interval.nanos ≤ began.line leaps := by
  obtain ⟨hsorted, hwritable⟩ := hclock
  have hall : readings (.called .now began :: w'.events) = began :: now :: readings w.events := by
    rw [readings_cons, hreads]
    rfl
  rw [hall] at hsorted hwritable hleaps
  have hearlier (t : Instant) (ht : t ∈ completions w.events) :
      t ∈ began :: now :: readings w.events :=
    List.mem_cons_of_mem _ (List.mem_cons_of_mem _ ((completions_sublist _).subset ht))
  have hbegan : now.line leaps ≤ began.line leaps :=
    Instant.line_mono (hwritable now (by simp)) (hleaps now (by simp))
      ((List.pairwise_cons.mp hsorted).1 now (by simp))
  have hbefore (t : Instant) (ht : t ∈ completions w.events) : t.NotAfter now :=
    (List.pairwise_cons.mp (List.pairwise_cons.mp hsorted).2).1 t
      ((completions_sublist _).subset ht)
  have hcompleted : (completions w.events).Pairwise fun late early => early.NotAfter late :=
    (List.pairwise_cons.mp (List.pairwise_cons.mp hsorted).2).2.sublist (completions_sublist _)
  rcases hlist : completions w.events with _ | ⟨last, others⟩
  · rw [hlist] at hfinished
    cases hfinished
  have hlast : last ∈ completions w.events := by rw [hlist]; exact List.mem_cons_self
  -- The schedule looked at the last one; the others were complete before that.
  have hsince : (interval.nanos : Int) ≤ now.since last := by
    rw [hmarks last (by rw [hlist]; rfl)] at hdue
    simpa [Schedule.isTooSoon] using hdue
  have hline := Instant.since_le_line (hleaps last (hearlier last hlast)) (hbefore last hlast)
  have hother : finished.line leaps ≤ last.line leaps := by
    rw [hlist] at hfinished hcompleted
    rcases List.mem_cons.mp hfinished with rfl | hmem
    · exact le_refl _
    · have hmem' : finished ∈ completions w.events := by rw [hlist]; exact hfinished
      exact Instant.line_mono (hwritable _ (hearlier _ hmem')) (hleaps _ (hearlier _ hmem'))
        ((List.pairwise_cons.mp hcompleted).1 finished hmem)
  omega

/-- Every backup that the schedule starts begins at least the interval after all backups before it were
complete, whoever made them and in whichever process, and however many leap seconds there were in between.
A backup that succeeds is complete at the time it writes down; one that fails leaves that time alone. -/
theorem interval_respected (hout : ctx.host.Outside)
    (hfile : ctx.host.LeavesFile ctx.settings.statePath) {frequency : String} {interval : Span}
    (hevery : ({ frequency } : Config).readFrequency = .ok (.every interval))
    (hcourse : Course ctx frequency w) (hsaved : AllSaved w.events) :
    (∀ window w', runIn ctx look w = (.ok (.run window), w') →
      runIn ctx tick w = runIn ctx (do backup; return .run window) w' ∧
      (Clocked (.called .now (ctx.host .now w').1 :: w'.events) → ∀ leaps : Finset Int,
        (∀ t ∈ readings (.called .now (ctx.host .now w').1 :: w'.events),
          t.isLeap → t.seconds ∈ leaps) →
        ∀ finished ∈ completions w.events,
          finished.line leaps + interval.nanos ≤ (ctx.host .now w').1.line leaps)) ∧
    (∀ w', runIn ctx backup w = (.ok (), w') → ∃ finished,
      completions w'.events = finished :: completions w.events ∧
        w'.record.status.lastBackup = some finished) ∧
    ∀ f w', runIn ctx backup w = (.error f, w') → completions w'.events = completions w.events ∧
      w'.record.status.lastBackup = w.record.status.lastBackup := by
  have hon := onCourse hout hfile hcourse
  have hbackup := backup_completes hout hon.marks.1
  refine ⟨fun window w' hlook => ⟨?_, fun hclock leaps hleaps finished hfinished => ?_⟩,
    fun w' hrun => ?_, fun f w' hrun => ?_⟩
  · simp only [tick_eq_look, runIn_bind, hlook, follow]
  -- The clock is read twice, for the decision and when the backup begins; only the first counts.
  · have hsame : w.record.config.frequency = ({ frequency } : Config).frequency :=
      hon.hasFrequency hsaved
    have hevery' : w.record.config.readFrequency = .ok (.every interval) :=
      (readFrequency_congr hsame).trans hevery
    obtain ⟨now, hreads, hdue⟩ := (look_due hout hevery').of_ok hlook window rfl
    have hfaithful : Faithful w.events := ⟨hsaved, fun t ht => hclock.2 t (by
      rw [readings_cons, hreads]
      exact List.mem_cons_of_mem _ (List.mem_cons_of_mem _ ht))⟩
    exact line_of_due hreads hdue (hon.marks.2 hfaithful) hclock hleaps hfinished
  · obtain ⟨finished, hcompletes⟩ := hbackup.of_ok hrun
    exact ⟨finished, hcompletes.completions, hcompletes.writes⟩
  · have hrests := hbackup.of_error hrun
    exact ⟨hrests.completions, hrests.keeps⟩

/-- All goes well, and the clock says one instant after the other. -/
def paced : Answers (List Instant)
  | .now, script, m => (script.headD ⟨0, 0⟩, script.tail, m)
  | c, script, m => ((agreeable c () m).1, script, m)

/-- The settings by default, and a host whose clock goes on. -/
def pacedContext : Context (List Instant) := ⟨{}, paced.host⟩

/-- A service that makes a backup every six hours. -/
def sixHourly : Record := { config := { sampleConfig with frequency := "6h" } }

/-- The machine that it was configured on, with the views of the snapshots of two backups. -/
def sixHourlyMachine : Machine := { CommandLine.installed sixHourly none with
  disk := ⟨(CommandLine.installed sixHourly none).disk.entries ++
    [(["local"], .newDirectory), ([".zfs", "local"], .newDirectory),
      (["snapshot", ".zfs", "local"], .newDirectory),
      (["kopia-20260301-020000", "snapshot", ".zfs", "local"], .newDirectory),
      (["kopia-20260301-080000", "snapshot", ".zfs", "local"], .newDirectory)]⟩ }

theorem sixHourlyMachine_saved :
    sixHourlyMachine.text? "/var/lib/poolvault/state.yaml" = some sixHourly.yaml := by
  have hloc : sixHourlyMachine.disk.resolve sixHourlyMachine.cwd true
      "/var/lib/poolvault/state.yaml" = .ok ["state.yaml", "poolvault", "lib", "var"] := rfl
  rw [Files.text?_of_file hloc rfl, Text.decode?_toUTF8]

/-- The service is opened at two o'clock. -/
def atTwo : World (List Instant) where
  record := sixHourly.reopened
  machine := sixHourlyMachine
  host := [⟨1772330400, 0⟩, ⟨1772330400, 0⟩, ⟨1772330400, 0⟩,
    ⟨1772352000, 0⟩, ⟨1772352000, 0⟩, ⟨1772352000, 0⟩]

/-- It made its first backup, and it is eight o'clock. -/
def atEight : World (List Instant) := (runIn pacedContext (perform .tick) atTwo).2

theorem course_atTwo : Course pacedContext "6h" atTwo :=
  .opened (openRecord_of_readText (Files.run_readText_text sixHourlyMachine_saved)
    (.of_none rfl rfl)) rfl

/-- At eight o'clock a backup is due, and the clock does not go back. -/
theorem look_atEight : ∃ w', runIn pacedContext look atEight = (.ok (.run "always@2026-03-01"), w') ∧
    (pacedContext.host .now w').1 = ⟨1772352000, 0⟩ ∧
    readings (.called .now (pacedContext.host .now w').1 :: w'.events) =
      [⟨1772352000, 0⟩, ⟨1772352000, 0⟩, ⟨1772330400, 0⟩, ⟨1772330400, 0⟩, ⟨1772330400, 0⟩] := by
  have hdue : (runIn pacedContext look atEight).1 = .ok (.run "always@2026-03-01") := by
    decide +kernel
  have hnow : (pacedContext.host .now (runIn pacedContext look atEight).2).1 =
      ⟨1772352000, 0⟩ := by decide +kernel
  have hreads : readings (runIn pacedContext look atEight).2.events =
      [⟨1772352000, 0⟩, ⟨1772330400, 0⟩, ⟨1772330400, 0⟩, ⟨1772330400, 0⟩] := by decide +kernel
  rcases hlook : runIn pacedContext look atEight with ⟨result, w'⟩
  rw [hlook] at hdue hnow hreads
  cases hdue
  refine ⟨w', rfl, hnow, ?_⟩
  rw [readings_cons, hreads, hnow]
  rfl

theorem interval_respected_atEight :
    completions atEight.events = [⟨1772330400, 0⟩] ∧
    (∃ window w', runIn pacedContext look atEight = (.ok (.run window), w') ∧
      (pacedContext.host .now w').1 = ⟨1772352000, 0⟩ ∧
      (⟨1772330400, 0⟩ : Instant).line ∅ + 6 * 3600 * nanosPerSecond ≤
        (⟨1772352000, 0⟩ : Instant).line ∅) ∧
    (∃ w', runIn pacedContext backup atEight = (.ok (), w') ∧
      ∃ finished, completions w'.events = finished :: completions atEight.events ∧
        w'.record.status.lastBackup = some finished) ∧
    ∃ f w', runIn pacedContext backup atTwo = (.error f, w') ∧
      completions w'.events = completions atTwo.events ∧
      w'.record.status.lastBackup = atTwo.record.status.lastBackup := by
  have hout : pacedContext.host.Outside := paced.outside
  have hfile : pacedContext.host.LeavesFile pacedContext.settings.statePath := fun c w => by
    cases c <;> rfl
  have hevery : ({ frequency := "6h" } : Config).readFrequency =
      .ok (.every ⟨6 * 3600 * nanosPerSecond⟩) := by decide +kernel
  have hcourse : Course pacedContext "6h" atEight := course_atTwo.act .tick trivial
  have hsaved : AllSaved atEight.events := by
    rw [allSaved_iff]
    decide +kernel
  have hcompletions : completions atEight.events = [⟨1772330400, 0⟩] := by decide +kernel
  refine ⟨hcompletions, ?_, ?_, ?_⟩
  · obtain ⟨w', hlook, hnow, hreads⟩ := look_atEight
    have hclock : Clocked (.called .now (pacedContext.host .now w').1 :: w'.events) := by
      rw [Clocked, hreads]
      unfold Instant.NotAfter
      decide +kernel
    have hleaps : ∀ t ∈ readings (.called .now (pacedContext.host .now w').1 :: w'.events),
        t.isLeap → t.seconds ∈ (∅ : Finset Int) := by
      rw [hreads]
      decide +kernel
    have hlate := ((interval_respected hout hfile hevery hcourse hsaved).1 _ w' hlook).2
      hclock ∅ hleaps ⟨1772330400, 0⟩ (by rw [hcompletions]; exact List.mem_cons_self)
    rw [hnow] at hlate
    exact ⟨_, w', hlook, hnow, hlate⟩
  · have hdone : (runIn pacedContext backup atEight).1 = .ok () := by decide +kernel
    rcases hrun : runIn pacedContext backup atEight with ⟨result, w'⟩
    rw [hrun] at hdone
    cases hdone
    exact ⟨w', rfl, (interval_respected hout hfile hevery hcourse hsaved).2.1 w' hrun⟩
  · have hrefused : (runIn pacedContext backup atTwo).1 =
        .error ⟨.backupRefused, "repository not connected"⟩ := by decide +kernel
    rcases hrun : runIn pacedContext backup atTwo with ⟨result, w'⟩
    rw [hrun] at hrefused
    cases hrefused
    have hnone : AllSaved atTwo.events := fun _ _ hmem => nomatch hmem
    exact ⟨_, w', rfl,
      (interval_respected hout hfile hevery course_atTwo hnone).2.2 _ w' hrun⟩

end Service

end PoolKeeper
