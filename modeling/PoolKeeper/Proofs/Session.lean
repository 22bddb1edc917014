import PoolKeeper.Proofs.Life
import PoolKeeper.Tools.Host

/-!
# `PoolKeeper/Proofs/Session.lean` — whose session it is

The record says whether a session with the repository is open, and the engine knows which one. The two
agree only if every change that makes the session useless also clears the flag: another backend or
password, a disabled service, a failure of the engine to upload. `SessionFits` is that agreement, between
a record and the journal.

Most steps keep it because they neither connect nor upload, and leave the configuration alone; `Attends`
collects what they keep, so that an update which first stops the service and then restores a snapshot
still knows whose session it had. Two operations have to be looked at: opening a session, and the end of
an upload, where the flag lags behind the journal until the backup has failed.
-/

set_option autoImplicit false

namespace PoolKeeper.Service

open Operation

variable {σ : Type} {ctx : Context σ} {w w' : World σ}

/-! ## Sessions in the journal -/

/-- Neither an attempt to connect nor a failure of the engine to upload. -/
def KeepsSession : Event → Prop
  | .called (.connect ..) _ => False
  | .called (.upload ..) (.error f) => f.kind ≠ .engine
  | _ => True

/-- The last attempt to connect was one to the store with the password, it succeeded, and the engine has
not failed to upload since. -/
def HasSession (store : Store) (password : String) (es : List Event) : Prop :=
  ∃ later earlier, es = later ++ .called (.connect store password) (.ok ()) :: earlier ∧
    ∀ e ∈ later, KeepsSession e

/-- When the engine's program fails to upload, that is a failure of the engine: the tools report no
other. -/
theorem upload_fails_for_engine {s : Settings} {clock : World σ → Instant × World σ}
    {run : Tools.Runner σ} {path description : String} {f : Fault}
    (h : (Tools.host s clock run (.upload path description) w).1 = .error f) : f.kind = .engine := by
  simp only [Tools.host, Tools.effect, Tools.faulting] at h
  generalize (Tools.capture run _ w).1 = result at h
  cases result with
  | error failure =>
    cases h
    rfl
  | ok text => cases h

theorem HasSession.cons {store : Store} {password : String} {e : Event} {es : List Event}
    (h : HasSession store password es) (he : KeepsSession e) :
    HasSession store password (e :: es) := by
  obtain ⟨later, earlier, rfl, hlater⟩ := h
  refine ⟨e :: later, earlier, rfl, fun e' hmem => ?_⟩
  rcases List.mem_cons.mp hmem with rfl | hmem
  · exact he
  · exact hlater e' hmem

/-- A session that the record says is open is the one of its configuration. -/
def SessionFits (r : Record) (es : List Event) : Prop :=
  r.status.connected = true → r.config.enabled = true ∧
    ∃ store, r.config.validate = .ok store ∧ HasSession store r.config.password es

theorem SessionFits.of_disconnected {r : Record} {es : List Event}
    (h : r.status.connected = false) : SessionFits r es :=
  fun hconnected => absurd hconnected (by simp [h])

/-! ## Steps that attend to something else -/

/-- Neither a connection nor an upload. -/
def IsElsewhere : Call → Prop
  | .connect .. | .upload .. => False
  | _ => True

theorem IsElsewhere.keepsSession {c : Call} {reply : c.Reply} (h : IsElsewhere c) :
    KeepsSession (.called c reply) := by
  cases c <;> first | exact h.elim | trivial

theorem IsRestoring.isElsewhere {c : Call} (h : IsRestoring c) : IsElsewhere c := by
  cases c <;> first | exact h.elim | trivial

/-- The record is for the same session as `r`, if that was open. -/
structure Attends (r r' : Record) : Prop where
  connected : r'.status.connected = true → r.status.connected = true
  enabled : r'.config.enabled = r.config.enabled
  backend : r'.config.backend = r.config.backend
  password : r'.config.password = r.config.password

theorem Attends.refl (r : Record) : Attends r r := ⟨fun h => h, rfl, rfl, rfl⟩

theorem Attends.trans {r r' r'' : Record} (h : Attends r r') (h' : Attends r' r'') :
    Attends r r'' :=
  ⟨fun hc => h.connected (h'.connected hc), h'.enabled.trans h.enabled,
    h'.backend.trans h.backend, h'.password.trans h.password⟩

theorem Attends.validate {r r' : Record} (h : Attends r r') :
    r'.config.validate = r.config.validate := by
  unfold Config.validate
  rw [h.enabled, h.backend, h.password]

theorem SessionFits.attends {r r' : Record} {es : List Event} (h : SessionFits r es)
    (hr : Attends r r') : SessionFits r' es := by
  intro hconnected
  obtain ⟨henabled, store, hstore, hsession⟩ := h (hr.connected hconnected)
  exact ⟨hr.enabled.trans henabled, store, hr.validate.trans hstore, hr.password ▸ hsession⟩

theorem SessionFits.cons {r : Record} {e : Event} {es : List Event} (h : SessionFits r es)
    (he : KeepsSession e) : SessionFits r (e :: es) := by
  intro hconnected
  obtain ⟨henabled, store, hstore, hsession⟩ := h hconnected
  exact ⟨henabled, store, hstore, hsession.cons he⟩

theorem Progresses.attends {r r' : Record} (h : Progresses r r') : Attends r r' := by
  rw [h]
  exact ⟨fun h => h, rfl, rfl, rfl⟩

theorem Restores.attends {r r' : Record} (h : Restores r r') : Attends r r' := by
  rcases h with h | rfl
  · exact h.attends
  · exact ⟨fun h => h, rfl, rfl, rfl⟩

/-- Steps elsewhere keep a session that fits, and the record attends to it still. -/
theorem sessionFits_of_steps (h : Steps IsElsewhere Attends w w')
    (hw : SessionFits w.record w.events) :
    SessionFits w'.record w'.events ∧ Attends w.record w'.record := by
  refine h.keeps (P := fun r es => SessionFits r es ∧ Attends w.record r) ?_ ?_ ⟨hw, .refl _⟩
  · rintro c reply r es hc ⟨hfits, hattends⟩
    exact ⟨hfits.cons hc.keepsSession, hattends⟩
  · rintro r r' saved es hr ⟨hfits, hattends⟩
    exact ⟨(hfits.attends hr).cons trivial, hattends.trans hr⟩

/-- The session of the record in memory fits what happened. -/
def Fits (w : World σ) : Prop := SessionFits w.record w.events

theorem Fits.called {c : Call} {reply : c.Reply} (hw : Fits w) (hr : w'.record = w.record)
    (he : w'.events = .called c reply :: w.events) (hc : IsElsewhere c) : Fits w' := by
  unfold Fits
  rw [hr, he]
  exact SessionFits.cons hw hc.keepsSession

theorem fits_of_footprint {α : Type} {op : Operation σ α}
    (h : Footprint ctx IsElsewhere Attends op) (hw : Fits w) :
    Ensures ctx op w (fun _ w' => Fits w' ∧ Attends w.record w'.record)
      (fun _ w' => Fits w' ∧ Attends w.record w'.record) :=
  (h w).mono (fun _ _ hsteps => sessionFits_of_steps hsteps hw)
    fun _ _ hsteps => sessionFits_of_steps hsteps hw

theorem restore_attends (hout : ctx.host.Outside) (id : String) :
    Footprint ctx IsElsewhere Attends (restore id) :=
  (restore_footprint hout id).mono (fun _ h => h.isElsewhere) fun _ _ h => h.attends

theorem get_attends (hout : ctx.host.Outside) : Footprint ctx IsElsewhere Attends get := by
  refine .bind .record fun r => .ite (.pure r) (.bind (.call hout (by trivial)) fun reply => ?_)
  cases reply with
  | error f => exact .pure r
  | ok snapshots => exact .bind (.update fun _ => ⟨fun h => h, rfl, rfl, rfl⟩) fun _ => .record

theorem stop_attends : Footprint ctx IsElsewhere Attends stop := by
  refine .update fun r => ?_
  split
  · exact .refl r
  · refine ⟨?_, ?_, ?_, ?_⟩ <;> dsimp only <;> split <;> simp [Record.setConnected]

theorem stop_disconnects (ctx : Context σ) (w : World σ) : Ensures ctx stop w
    (fun _ w' => w.record.config.enabled = true → w'.record.status.connected = false)
    (fun _ _ => False) := by
  refine .update fun _ w' hr _ henabled => ?_
  simp only [hr, henabled, Bool.not_true, Bool.false_eq_true, if_false]
  split <;> rfl

theorem say_attends (status : String) : Footprint ctx IsElsewhere Attends (say status) :=
  .update fun _ => ⟨fun h => h, rfl, rfl, rfl⟩

/-! ## Opening a session -/

theorem connectOrCreate_opens (hout : ctx.host.Outside) (store : Store) (password : String)
    {R : Fault → World σ → Prop} : Ensures ctx (connectOrCreate store password) w
      (fun reply w' => w'.record = w.record ∧
        (reply = .ok () → HasSession store password w'.events)) R := by
  have hopened {es es' : List Event} (h : es' = .called (.connect store password) (.ok ()) :: es) :
      HasSession store password es' := ⟨[], es, h, by simp⟩
  refine .bind (.call hout fun first w₁ hr₁ he₁ => ?_)
  cases first with
  | ok _ => exact .pure ⟨hr₁, fun _ => hopened he₁⟩
  | error first =>
    refine .bind (.call hout fun created w₂ hr₂ he₂ => ?_)
    cases created with
    | error f => exact .pure ⟨hr₂.trans hr₁, by rintro ⟨⟩⟩
    | ok _ =>
      refine .bind (.call hout fun second w₃ hr₃ he₃ => .pure ⟨hr₃.trans (hr₂.trans hr₁), ?_⟩)
      cases second with
      | error f => rintro ⟨⟩
      | ok _ => exact fun _ => hopened he₃

theorem disconnected_fits {α : Type} {Q : α → World σ → Prop} (what : String) (f : Fault) :
    Ensures ctx (disconnected what f) w Q (fun _ => Fits) :=
  .bind (.update fun _ _ hr _ => .throw (.of_disconnected (by rw [hr]; rfl)))

/-- An enabled service opens the session of its configuration. -/
theorem ensureConnected_fits (hout : ctx.host.Outside) (henabled : w.record.config.enabled = true)
    (hw : Fits w) : Ensures ctx ensureConnected w (fun _ => Fits) (fun _ => Fits) := by
  refine .bind (.record ?_)
  cases hstore : w.record.config.validate with
  | error defect => exact disconnected_fits _ _
  | ok store =>
    refine .ite (fun _ => .pure hw) fun _ => .bind ?_
    refine (prepareCache_footprint hout).ensures prepareCache_neverFails fun made w₁ hsteps => ?_
    cases made with
    | error f => exact disconnected_fits _ _
    | ok _ =>
      refine .bind ((connectOrCreate_opens hout store w.record.config.password
        (R := fun _ => Fits)).mono ?_ fun _ _ h => h)
      rintro opened w₂ ⟨hr₂, hsession⟩
      cases opened with
      | error f => exact disconnected_fits _ _
      | ok _ =>
        have hr₂ : w₂.record = w.record := hr₂.trans hsteps.record_eq
        refine .update fun saved w₃ hr₃ he₃ => ?_
        have hconfig : w₃.record.config = w.record.config := by rw [hr₃, hr₂]; rfl
        intro _
        rw [hconfig, he₃]
        exact ⟨henabled, store, hstore, (hsession rfl).cons trivial⟩

theorem start_fits (hout : ctx.host.Outside) (hw : Fits w) :
    Ensures ctx start w (fun _ => Fits) (fun _ => Fits) :=
  .bind (.bind (.record (.pure (.ite (fun henabled => ensureConnected_fits hout henabled hw)
    fun _ => .pure hw))))

/-! ## Backups -/

theorem admitBackup_attends (hout : ctx.host.Outside) (r : Record) (now : Instant) :
    Footprint ctx IsElsewhere Attends (admitBackup r now) :=
  (admitBackup_footprint hout r now).mono (by rintro _ ⟨pool, rfl⟩; trivial)
    fun _ _ h => h.attends

/-- After an upload the session fits, unless it is the engine's failure that is reported. -/
theorem upload_fits (hout : ctx.host.Outside) (s : PoolSnapshot) (now : Instant) (hw : Fits w)
    {R : Fault → World σ → Prop} : Ensures ctx (upload s now) w
      (fun reply w' => Fits w' ∨ ∃ status f, reply = .error (status, f) ∧ f.kind = .engine) R := by
  have hview : Footprint ctx IsElsewhere Attends s.view :=
    (view_footprint hout s).mono (by rintro _ rfl; trivial) fun _ _ h => h.elim
  refine .bind ((fits_of_footprint hview.outcome hw).and (NeverFails.outcome _ w) |>.mono ?_
    fun _ _ h => h.2.elim)
  rintro path w₁ ⟨⟨hw₁, -⟩, -⟩
  cases path with
  | error f => exact .pure (.inl hw₁)
  | ok path =>
    refine .bind (.update fun _ w₂ hr₂ he₂ => .bind (.call hout fun reply w₃ hr₃ he₃ => .pure ?_))
    have hw₂ : Fits w₂ := by
      unfold Fits
      rw [hr₂, he₂]
      exact (hw₁.attends ⟨fun h => h, rfl, rfl, rfl⟩).cons trivial
    by_cases hkeeps : KeepsSession (.called (.upload path (backupDescription s.pool now)) reply)
    · left
      unfold Fits
      rw [hr₃, he₃]
      exact hw₂.cons hkeeps
    · right
      cases reply with
      | ok _ => exact absurd trivial hkeeps
      | error f => exact ⟨_, f, rfl, by simpa [KeepsSession] using hkeeps⟩

/-- Steps elsewhere do for a session that fits, whatever comes of them. -/
theorem fits_of_attends {α : Type} {op : Operation σ α}
    (h : Footprint ctx IsElsewhere Attends op) (hw : Fits w) :
    Ensures ctx op w (fun _ => Fits) (fun _ => Fits) :=
  (fits_of_footprint h hw).mono (fun _ _ h => h.1) fun _ _ h => h.1

/-- A backup that fails for the engine ends the session. -/
theorem backupCycle_fits (hout : ctx.host.Outside) (retention : Retention) (window : Option String)
    (now : Instant) (hw : Fits w) :
    Ensures ctx (backupCycle retention window now) w (fun _ => Fits) (fun _ => Fits) := by
  refine .bind (.settings (.bind (.outcome ?_)))
  have htake : Footprint ctx IsElsewhere Attends (PoolSnapshot.take ctx.settings.pool .backup now) :=
    (take_footprint hout _ _ now).mono (fun _ h => h.isRestoring.isElsewhere) fun _ _ h => h.elim
  refine (fits_of_attends htake hw).mono ?_ ?_
  · intro snapshot w₁ hw₁
    refine .bind ((upload_fits hout snapshot now hw₁ (R := fun _ => Fits)).mono ?_ fun _ _ h => h)
    rintro (⟨status, f⟩ | ⟨⟩) w₂ hw₂
    · by_cases hengine : f.kind = .engine
      · refine .bind (.call hout fun _ w₃ _ _ => .bind (.update fun _ w₄ _ _ => .ite (fun _ => ?_)
          fun hother => absurd hengine hother))
        exact .bind (.update fun _ w₅ hr₅ _ => .throw (.of_disconnected (by rw [hr₅]; rfl)))
      · have hw₂ : Fits w₂ := hw₂.resolve_right (by rintro ⟨_, _, ⟨⟩, h⟩; exact hengine h)
        refine fits_of_attends (.bind (.call hout (by trivial)) fun _ => .bind (.update ?_) fun _ =>
          .guard (.update ?_) fun _ => .throw f) hw₂
        · exact fun _ => ⟨fun h => h, rfl, rfl, rfl⟩
        · exact fun _ => ⟨fun h => absurd h Bool.false_ne_true, rfl, rfl, rfl⟩
    · have hw₂ : Fits w₂ := hw₂.resolve_right (by rintro ⟨_, _, ⟨⟩, _⟩)
      have hexpire : Footprint ctx IsElsewhere Attends (applyRetention retention) :=
        (applyRetention_footprint hout retention).mono (by rintro _ rfl; trivial) fun _ _ h => h.elim
      refine fits_of_attends (.bind (.update ?_) fun _ => .bind hexpire.outcome fun _ =>
        .bind (.update ?_) fun _ => .bind (.call hout (by trivial)) fun _ =>
          .bind (.call hout (by trivial)) fun _ => .update ?_) hw₂ <;>
        exact fun _ => ⟨fun h => h, rfl, rfl, rfl⟩
  · intro f w₁ hw₁
    exact fits_of_attends (.bind (.update fun _ => ⟨fun h => h, rfl, rfl, rfl⟩) fun _ => .throw f) hw₁

theorem backup_fits (hout : ctx.host.Outside) (hw : Fits w) :
    Ensures ctx backup w (fun _ => Fits) (fun _ => Fits) := by
  refine .bind (.call hout fun now w₁ hr₁ he₁ => ?_)
  have hw₁ : Fits w₁ := hw.called hr₁ he₁ (by trivial)
  refine .bind (.record (.bind ((fits_of_attends (admitBackup_attends hout _ now) hw₁).mono ?_
    fun _ _ h => h)))
  intro window w₂ hw₂
  have hclaim : Footprint ctx IsElsewhere Attends (claim "Creating ZFS snapshot") :=
    (claim_footprint _).mono (fun _ h => h) fun _ _ h => h.attends
  refine .bind ((fits_of_attends hclaim hw₂).mono (fun claimed w₃ hw₃ => ?_) fun _ _ h => h)
  exact .ite (fun _ => .bind (.throw hw₃)) fun _ => backupCycle_fits hout _ _ now hw₃

/-! ## Every action -/

theorem attend_fits (hout : ctx.host.Outside) (now : Instant) (hw : Fits w) :
    Ensures ctx (attend now) w (fun _ => Fits) (fun _ => Fits) :=
  Preserves.attend (fun _ _ => fits_of_attends (say_attends _)) (fun _ => backup_fits hout) now w hw

/-- The service opens a session only if it is enabled, and works with it as far as the schedule says. -/
theorem tick_fits (hout : ctx.host.Outside) (hw : Fits w) :
    Ensures ctx tick w (fun _ => Fits) (fun _ => Fits) := by
  rw [tick_eq]
  refine .bind (.call hout fun now w₁ hr₁ he₁ => ?_)
  have hw₁ : Fits w₁ := hw.called hr₁ he₁ (by trivial)
  refine .bind (.record (.ite (fun hopen => .bind (.outcome ?_)) fun _ => attend_fits hout now hw₁))
  have henabled : w₁.record.config.enabled = true := by simp_all
  exact (ensureConnected_fits hout henabled hw₁).mono (fun _ _ => attend_fits hout now)
    fun _ _ => attend_fits hout now

theorem takeRestoreOrder_enabled (previous requested : Config) :
    (Config.takeRestoreOrder previous requested).2.enabled = requested.enabled := by
  unfold Config.takeRestoreOrder
  dsimp only
  split <;> rfl

/-- An update that does not give up the session leaves the service enabled, and the repository the
same. -/
theorem configured_fits {requested previous : Config} {r₀ r : Record} {es : List Event}
    (h : SessionFits r es) (hr : Attends r₀ r) (hprevious : r₀.config = previous)
    (henabled : r.status.connected = true → requested.enabled = true) :
    SessionFits (configured requested previous r) es := by
  unfold configured
  split
  · exact .of_disconnected rfl
  · next hsame =>
    intro hconnected
    have hconnected : r.status.connected = true := hconnected
    simp only [Config.repositoryChanged, Bool.or_eq_true, decide_eq_true_eq, not_or,
      Decidable.not_not] at hsame
    have hkept : Attends r { r with config := requested } := by
      refine ⟨fun h => h, ?_, ?_, ?_⟩
      · exact (henabled hconnected).trans (h hconnected).1.symm
      · rw [hr.backend, hprevious, ← hsame.1]
      · rw [hr.password, hprevious, ← hsame.2]
    exact h.attends hkept hconnected

theorem update_fits (hout : ctx.host.Outside) (requested : Config) (hw : Fits w) :
    Ensures ctx (update requested) w (fun _ => Fits) (fun _ => Fits) := by
  -- A session that is still open after the stop is one of a service that stays enabled.
  refine .bind (.record (.guard (fun w₁ => (Fits w₁ ∧ Attends w.record w₁.record) ∧
    (w₁.record.status.connected = true → requested.enabled = true)) (fun hoff => ?_)
    (fun hkeeps => ⟨⟨hw, .refl _⟩, fun hconnected => ?_⟩) ?_))
  · have hstopped := (fits_of_footprint stop_attends hw).and (stop_disconnects ctx w)
    refine hstopped.mono ?_ fun _ _ h => h.1.1
    rintro _ w₁ ⟨hw₁, hdisconnected⟩
    have hnone := hdisconnected (by simp_all)
    exact ⟨hw₁, fun hconnected => absurd hconnected (by simp [hnone])⟩
  · have henabled := (hw hconnected).1
    simpa [henabled] using hkeeps
  · rintro _ w₁ ⟨⟨hw₁, hr₁⟩, hon⟩
    have henabled := takeRestoreOrder_enabled w.record.config requested
    rcases htaken : Config.takeRestoreOrder w.record.config requested with ⟨order, requested'⟩
    rw [htaken] at henabled
    have hend (w₂ : World σ) (h₂ : Fits w₂ ∧ Attends w₁.record w₂.record) : Ensures ctx (do
        Operation.update (configured requested' w.record.config)
        if requested'.enabled then ensureConnected) w₂ (fun _ => Fits) (fun _ => Fits) := by
      refine .bind (.update fun _ w₃ hr₃ he₃ => ?_)
      have hw₃ : Fits w₃ := by
        unfold Fits
        rw [hr₃, he₃]
        exact (configured_fits h₂.1 (hr₁.trans h₂.2) rfl fun hconnected =>
          henabled.trans (hon (h₂.2.connected hconnected))).cons trivial
      refine .ite (fun hon => ensureConnected_fits hout ?_ hw₃) fun _ => .pure hw₃
      rw [hr₃]
      unfold configured
      split <;> exact hon
    cases order with
    | none => exact hend w₁ ⟨hw₁, .refl _⟩
    | some id =>
      exact .bind ((fits_of_footprint (restore_attends hout id) hw₁).mono (fun _ => hend)
        fun _ _ h => h.1)

theorem apply_fits (hout : ctx.host.Outside) (r : Request) (hw : Fits w) :
    Ensures ctx (apply r) w (fun _ => Fits) (fun _ => Fits) := by
  cases r with
  | update config => exact update_fits hout config hw
  | restore id => exact .bind (.record (update_fits hout _ hw))
  | backup => exact .bind ((start_fits hout hw).mono (fun _ _ => backup_fits hout) fun _ _ h => h)

theorem perform_fits (hout : ctx.host.Outside) (a : Action) (hw : Fits w) :
    Ensures ctx (perform a) w (fun _ => Fits) (fun _ => Fits) := by
  cases a with
  | update requested => exact update_fits hout requested hw
  | start => exact start_fits hout hw
  | stop => exact fits_of_attends stop_attends hw
  | get => exact .bind ((fits_of_attends (get_attends hout) hw).mono (fun _ _ h => .pure h) fun _ _ h => h)
  | tick => exact .bind ((tick_fits hout hw).mono (fun _ _ h => .pure h) fun _ _ h => h)
  | backup => exact backup_fits hout hw
  | restore id => exact fits_of_attends (restore_attends hout id) hw
  | apply r => exact apply_fits hout r hw

/-- Whatever is asked of the service since its record was opened, and whatever is answered to it: when
the record says that a session is open, the service is enabled, its configuration is valid, and the
session is the one that was opened last, for just this store and password. Under the tools, every upload
that failed since would have ended it. -/
theorem session_belongs_to_config (s : Settings) (a : Answers σ) {m m' : Machine} {r : Record}
    (hopen : (openRecord s.statePath).run.run m = (.ok r, m')) (host : σ) (actions : List Action) :
    Fits (after ⟨s, a.host⟩ { record := r, machine := m', host } actions) ∧
      ∀ clock run path description w f,
        (Tools.host (σ := σ) s clock run (.upload path description) w).1 = .error f →
          ¬ KeepsSession (.called (.upload path description) (.error f)) := by
  refine ⟨after_keeps (fun b _ => perform_fits a.outside b) actions _
    (.of_disconnected (openRecord_disconnected hopen)), ?_⟩
  exact fun clock run path description w f h hkeeps => hkeeps (upload_fails_for_engine h)

/-- The configuration of an enabled service with a repository. -/
def sampleConfig : Config where
  enabled := true
  password := "secret"
  backend := {
    kind := "s3"
    s3 := some { endpoint := "store", bucket := "pool", accessKey := "key", secretKey := "hush" } }

theorem session_belongs_to_sampleConfig :
    (openRecord (Settings.statePath {})).run.run {} = (.ok {}, {}) ∧
      (after ⟨{}, agreeable.host⟩ ⟨{}, {}, (), []⟩ [.update sampleConfig]).record.status.connected ∧
      Fits (after ⟨{}, agreeable.host⟩ ⟨{}, {}, (), []⟩ [.update sampleConfig]) := by
  have hopen : (openRecord (Settings.statePath {})).run.run {} = (.ok {}, {}) := rfl
  exact ⟨hopen, by decide +kernel, (session_belongs_to_config {} agreeable hopen () _).1⟩

end PoolKeeper.Service
