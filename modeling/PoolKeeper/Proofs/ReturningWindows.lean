import PoolKeeper.Proofs.OncePerWindow
import PoolKeeper.Proofs.SnapshotView

/-!
# `PoolKeeper/Proofs/ReturningWindows.lean` — what happens when windows come back

The windows of a list may come back, and then nothing is needed for a second backup in one occurrence but
three ticks: while it is open, while the other one is, and when it is open again (`ticks_script`). The
host that shows it is one where all goes well, and the clock says what is on a `Script`.

With `ticks_history` this makes `Window.Returns` the exact condition.
-/

set_option autoImplicit false

namespace PoolKeeper.Service

open Operation

/-- What the clock is going to say. -/
abbrev Script : Type := List Instant

/-- All goes well, and the clock follows the script. Where the pool is mounted, there is the view of a
snapshot that was just taken. -/
def scripted : Answers Script
  | .now, script, m => (script.headD ⟨0, 0⟩, script.tail, m)
  | .mountpoint _, script, m =>
    let name := PoolSnapshot.baseName .backup (script.headD ⟨0, 0⟩)
    (.ok "/", script, { m with disk := PoolSnapshot.viewDisk name })
  | .poolExists _, script, m => (true, script, m)
  | c, script, m => ((agreeable c () m).1, script, m)

variable {s : Settings} {w : World Script} {r : Record} {script : Script} {reads : List Instant}
  {R : Fault → World Script → Prop}

/-- The world where the record is `r`, the script is still to come, and `reads` was read. -/
structure At (r : Record) (script : Script) (reads : List Instant) (w : World Script) : Prop where
  record : w.record = r
  host : w.host = script
  reads : readings w.events = reads

theorem At.call {c : Call} {Q : c.Reply → World Script → Prop} (h : At r script reads w)
    (hQ : ∀ w', At r (scripted c script w.machine).2.1
      ((reading? (.called c (scripted c script w.machine).1)).toList ++ reads) w' →
      w'.machine = (scripted c script w.machine).2.2 → Q (scripted c script w.machine).1 w') :
    Ensures ⟨s, scripted.host⟩ (call c) w Q R := by
  obtain ⟨rfl, rfl, rfl⟩ := h
  unfold Ensures
  exact hQ _ ⟨rfl, rfl, readings_cons _ _⟩ rfl

theorem At.now {t : Instant} {Q : Instant → World Script → Prop} (h : At r (t :: script) reads w)
    (hQ : ∀ w', At r script (t :: reads) w' → Q t w') :
    Ensures ⟨s, scripted.host⟩ (Operation.call .now) w Q R :=
  h.call fun w' h' _ => hQ w' h'

theorem At.update {f : Record → Record} {Q : Unit → World Script → Prop} (h : At r script reads w)
    (hQ : ∀ w', At (f r) script reads w' → Q () w') :
    Ensures ⟨s, scripted.host⟩ (Operation.update f) w Q R := by
  obtain ⟨rfl, rfl, rfl⟩ := h
  unfold Ensures
  refine hQ _ ⟨?_, ?_, ?_⟩
  · exact World.setRecord_record ..
  · exact World.setRecord_host ..
  · rw [World.setRecord_events, readings_cons]
    rfl

theorem At.onMachine {α : Type} {step : StateM Machine α} {Q : α → World Script → Prop}
    (h : At r script reads w) (hQ : ∀ w', At r script reads w' → Q (step.run w.machine).1 w') :
    Ensures ⟨s, scripted.host⟩ (Operation.onMachine step) w Q R := by
  obtain ⟨rfl, rfl, rfl⟩ := h
  unfold Ensures
  exact hQ _ ⟨rfl, rfl, rfl⟩

/-! ## One tick -/

theorem take_scripted (pool : String) (t : Instant) (h : At r script reads w) :
    Ensures ⟨s, scripted.host⟩ (PoolSnapshot.take pool .backup t) w
      (fun p w' => p = ⟨pool, PoolSnapshot.baseName .backup t⟩ ∧ At r script reads w') R := by
  refine .bind (.bind (h.call fun w₁ h₁ _ => .pure (.bind (h₁.call fun w₂ h₂ _ => ?_))))
  exact .bind (.pure (.pure ⟨rfl, h₂⟩))

theorem upload_scripted {pool : String} {t : Instant} (ht : t.isRepresentable)
    (h : At r (t :: script) reads w) :
    Ensures ⟨s, scripted.host⟩ (upload ⟨pool, PoolSnapshot.baseName .backup t⟩ t) w
      (fun reply w' => reply = .ok () ∧
        At (r.advance 25 "Creating Kopia snapshot") (t :: script) reads w') R := by
  refine .bind (.outcome (.bind (h.call fun w₁ h₁ hm₁ => .bind (.pure (.bind ?_)))))
  have hthere := PoolSnapshot.isThere_view (PoolSnapshot.isPlain_baseName ht) w.machine
  refine h₁.onMachine fun w₂ h₂ => ?_
  rw [hm₁]
  refine .ite (fun _ => .pure ?_) fun hnot => absurd hthere hnot
  refine .bind (h₂.update fun w₃ h₃ => .bind (h₃.call fun w₄ h₄ _ => .pure ⟨rfl, h₄⟩))

/-- The record of a service that a backup can start on. -/
structure Ready (r : Record) : Prop where
  enabled : r.config.enabled = true
  blank : r.config.readFrequency = .ok .perWindow
  forgetful : r.config.retention.isEmpty = true
  connected : r.status.connected = true
  idle : r.status.inProgress = false

theorem backupCycle_scripted {retention : Retention} (hretention : retention.isEmpty = true)
    {t : Instant} (ht : t.isRepresentable) (window : String) (h : At r (t :: script) reads w) :
    Ensures ⟨s, scripted.host⟩ (backupCycle retention (some window) t) w
      (fun _ w' => ∃ r', At r' script (t :: reads) w' ∧ r'.config = r.config ∧
        r'.status.connected = r.status.connected ∧ r'.status.inProgress = false ∧
        r'.status.lastWindow = some window) R := by
  refine .bind (.settings (.bind (.outcome ((take_scripted s.pool t h).mono ?_ fun _ _ h => h))))
  rintro _ w₁ ⟨rfl, h₁⟩
  refine .bind ((upload_scripted ht h₁).mono ?_ fun _ _ h => h)
  rintro _ w₂ ⟨rfl, h₂⟩
  refine .bind (h₂.update fun w₃ h₃ => .bind (.outcome (.ite (fun _ => .pure ?_) fun hnot =>
    absurd hretention hnot)))
  refine .bind (h₃.update fun w₄ h₄ => .bind (h₄.call fun w₅ h₅ _ => .bind ?_))
  exact h₅.call fun w₆ h₆ _ => h₆.update fun w₇ h₇ => ⟨_, h₇, rfl, rfl, rfl, rfl⟩

theorem admitBackup_scripted {now : Instant} {window : String} (hr : Ready r)
    (hactive : Window.active? s.windows now = some window) (h : At r script reads w) :
    Ensures ⟨s, scripted.host⟩ (admitBackup r now) w
      (fun opened w' => opened = window ∧ At r script reads w') R := by
  refine .bind (.settings (.ite (fun hoff => ?_) fun _ => .ite (fun hoff => ?_) fun _ => ?_))
  · simp [hr.enabled] at hoff
  · simp [hr.connected] at hoff
  · rw [hactive]
    exact .bind (h.call fun w₁ h₁ _ => .pure ⟨rfl, h₁⟩)

theorem claim_scripted (status : String) (hr : Ready r) (h : At r script reads w) :
    Ensures ⟨s, scripted.host⟩ (claim status) w
      (fun claimed w' => claimed = true ∧ At (r.claim status) script reads w') R := by
  refine .bind (.record (.bind (h.update fun w₁ h₁ => .pure ⟨?_, ?_⟩)))
  · rw [h.record, hr.idle]
    rfl
  · simpa [hr.idle] using h₁

theorem backup_scripted {t : Instant} (ht : t.isRepresentable) {window : String} (hr : Ready r)
    (hactive : Window.active? s.windows t = some window) (h : At r (t :: t :: script) reads w) :
    Ensures ⟨s, scripted.host⟩ backup w
      (fun _ w' => ∃ r', At r' script (t :: t :: reads) w' ∧ Ready r' ∧
        r'.status.lastWindow = some window) R := by
  refine .bind (h.now fun w₁ h₁ => .bind (.record (.bind ?_)))
  rw [h₁.record]
  refine (admitBackup_scripted hr hactive h₁).mono ?_ fun _ _ h => h
  rintro opened w₂ ⟨rfl, h₂⟩
  refine .bind ((claim_scripted _ hr h₂).mono ?_ fun _ _ h => h)
  rintro _ w₃ ⟨rfl, h₃⟩
  rw [hr.blank]
  refine (backupCycle_scripted hr.forgetful ht opened h₃).mono ?_ fun _ _ h => h
  rintro _ w₄ ⟨r', h₄, hconfig, hconnected, hidle, hlast⟩
  refine ⟨r', h₄, ⟨?_, ?_, ?_, ?_, hidle⟩, hlast⟩
  · rw [hconfig]
    exact hr.enabled
  · rw [hconfig]
    exact hr.blank
  · rw [hconfig]
    exact hr.forgetful
  · exact hconnected.trans hr.connected

/-- A tick while a window is open that was not counted last. -/
theorem tick_scripted {t : Instant} (ht : t.isRepresentable) {window : String} (hr : Ready r)
    (hactive : Window.active? s.windows t = some window) (hdue : r.status.lastWindow ≠ some window)
    (h : At r (t :: t :: t :: script) reads w) : Ensures ⟨s, scripted.host⟩ tick w
      (fun decision w' => decision = .run window ∧ ∃ r', At r' script (t :: t :: t :: reads) w' ∧
        Ready r' ∧ r'.status.lastWindow = some window)
      R := by
  have hdecide : Schedule.decide r (Context.mk s scripted.host).settings.windows t =
      .ok (.run window) := by
    simp [Schedule.decide, hr.enabled, hr.idle, hr.connected, hr.blank, hactive, hdue]
  refine .bind (h.now fun w₁ h₁ => .bind (.record ?_))
  rw [h₁.record]
  refine .ite (fun hopen => ?_) fun _ => .bind (.record (.bind (.settings ?_)))
  · simp [hr.connected] at hopen
  · rw [h₁.record, hdecide]
    refine .bind ((backup_scripted ht hr hactive h₁).mono (fun _ w₂ h₂ => ?_) fun _ _ h => h)
    exact .pure ⟨rfl, h₂⟩

/-! ## Three ticks -/

theorem runIn_tick_scripted {t : Instant} (ht : t.isRepresentable) {window : String} (hr : Ready r)
    (hactive : Window.active? s.windows t = some window) (hdue : r.status.lastWindow ≠ some window)
    (h : At r (t :: t :: t :: script) reads w) :
    ∃ w' r', runIn ⟨s, scripted.host⟩ tick w = (.ok (.run window), w') ∧
      At r' script (t :: t :: t :: reads) w' ∧ Ready r' ∧ r'.status.lastWindow = some window := by
  have hrun := tick_scripted (R := fun _ _ => False) ht hr hactive hdue h
  unfold Ensures at hrun
  rcases heq : runIn ⟨s, scripted.host⟩ tick w with ⟨f | decision, w'⟩
  · rw [heq] at hrun
    exact hrun.elim
  · rw [heq] at hrun
    obtain ⟨rfl, r', hat, hready, hlast⟩ := hrun
    exact ⟨w', r', rfl, hat, hready, hlast⟩

/-- A service that is enabled and has a session, with the script before it. -/
def readyWorld (script : Script) : World Script where
  record := { config := { enabled := true }, status := { connected := true } }
  machine := {}
  host := script

theorem ready_readyWorld (script : Script) : Ready (readyWorld script).record :=
  ⟨rfl, rfl, rfl, rfl, rfl⟩

/-- Three ticks, one in each occurrence: each makes a backup. -/
theorem ticks_script {a b c : Instant} {i j : String}
    (hread : a.isRepresentable ∧ b.isRepresentable ∧ c.isRepresentable)
    (ha : Window.active? s.windows a = some i) (hb : Window.active? s.windows b = some j)
    (hc : Window.active? s.windows c = some i) (hother : j ≠ i) :
    (ticks ⟨s, scripted.host⟩ (readyWorld [a, a, a, b, b, b, c, c, c]) 3).2 = [i, j, i] ∧
      readings (ticks ⟨s, scripted.host⟩ (readyWorld [a, a, a, b, b, b, c, c, c]) 3).1.events =
        [c, c, c, b, b, b, a, a, a] := by
  obtain ⟨w₁, r₁, hrun₁, hat₁, hr₁, hlast₁⟩ := runIn_tick_scripted hread.1
    (ready_readyWorld [a, a, a, b, b, b, c, c, c]) ha (by simp [readyWorld]) ⟨rfl, rfl, rfl⟩
  obtain ⟨w₂, r₂, hrun₂, hat₂, hr₂, hlast₂⟩ := runIn_tick_scripted hread.2.1 hr₁ hb
    (by simp [hlast₁, Ne.symm hother]) hat₁
  obtain ⟨w₃, r₃, hrun₃, hat₃, hr₃, hlast₃⟩ := runIn_tick_scripted hread.2.2 hr₂ hc
    (by simp [hlast₂, hother]) hat₂
  simp only [ticks, hrun₁, hrun₂, hrun₃]
  refine ⟨?_, hat₃.reads⟩
  simp [recorded, hat₁.record, hat₂.record, hat₃.record, hlast₁, hlast₂, hlast₃]

theorem clocked_script {a b c : Instant} {es : List Event}
    (hread : a.isRepresentable ∧ b.isRepresentable ∧ c.isRepresentable) (hab : a.NotAfter b)
    (hbc : b.NotAfter c) (h : readings es = [c, c, c, b, b, b, a, a, a]) : Clocked es := by
  have hrefl (t : Instant) : t.NotAfter t := .inr ⟨rfl, Nat.le_refl _⟩
  refine ⟨?_, ?_⟩
  · simp [h, hrefl, hab, hbc, hab.trans hbc]
  · simp [h, hread]

theorem readFrequency_of_blank {c : Config} (h : Text.trim c.frequency = "") :
    c.readFrequency = .ok .perWindow := by
  simp [Config.readFrequency, h]

/-- Without a frequency, ticks record no occurrence of a window twice exactly if the windows do not come
back. -/
theorem ticks_nodup_iff (ws : List Window) :
    (∀ (σ : Type) (s : Settings) (a : Answers σ) (w : World σ) (n : Nat), s.windows = ws →
      Text.trim w.record.config.frequency = "" → Clocked (ticks ⟨s, a.host⟩ w n).1.events →
        (ticks ⟨s, a.host⟩ w n).2.Nodup) ↔ ¬ Window.Returns ws := by
  constructor
  · rintro hnodup ⟨a, b, c, i, j, hread, hab, hbc, ha, hb, hc, hother⟩
    obtain ⟨hids, hreads⟩ := ticks_script (s := { windows := ws }) hread ha hb hc hother
    have hblank : Text.trim "" = "" := by decide +kernel
    have htwice := hnodup Script { windows := ws } scripted
      (readyWorld [a, a, a, b, b, b, c, c, c]) 3 rfl hblank (clocked_script hread hab hbc hreads)
    rw [hids] at htwice
    simp at htwice
  · rintro hnever σ s a w n rfl hblank hclock
    have hout : (Context.mk s a.host).host.Outside := a.outside
    obtain ⟨counted, hids, hcounted, -⟩ :=
      ticks_history hout hnever (readFrequency_of_blank hblank) n hclock
    exact hids ▸ hcounted

/-- A short window in the middle of a long one. The short one comes first in the list. -/
def nestedWindows : List Window :=
  [{ startHour := 12, endHour := 13 }, { startHour := 8, endHour := 20 }]

/-- The windows can be used, and three ticks of a day record the long one twice. -/
theorem nestedWindows_twice :
    Settings.checkWindows 0 nestedWindows = .ok () ∧ ∃ w : World Script,
      Text.trim w.record.config.frequency = "" ∧
      Clocked (ticks ⟨{ windows := nestedWindows }, scripted.host⟩ w 3).1.events ∧
      (ticks ⟨{ windows := nestedWindows }, scripted.host⟩ w 3).2 =
        ["window-1@2026-03-01T08:00Z", "window-0@2026-03-01T12:00Z",
          "window-1@2026-03-01T08:00Z"] := by
  have hread : (⟨1772355600, 0⟩ : Instant).isRepresentable ∧
      (⟨1772368200, 0⟩ : Instant).isRepresentable ∧ (⟨1772373600, 0⟩ : Instant).isRepresentable := by
    decide +kernel
  obtain ⟨hids, hreads⟩ := ticks_script (s := { windows := nestedWindows })
    (i := "window-1@2026-03-01T08:00Z") (j := "window-0@2026-03-01T12:00Z") hread
    (by decide +kernel) (by decide +kernel) (by decide +kernel) (by decide +kernel)
  refine ⟨by rfl, _, by decide +kernel, ?_, hids⟩
  exact clocked_script hread (.inl (by decide)) (.inl (by decide)) hreads

end PoolKeeper.Service
