import PoolKeeper.Proofs.OneShotOrder
import PoolKeeper.Proofs.Session

/-!
# `PoolKeeper/Proofs/UpdateOutcome.lean` — what becomes of an update

An update passes four stations. It ends the session of a service that is to be disabled, has the order
carried out that the configuration carries (both in `carryOut`), takes over what is left of the
configuration (`reconfigured`), and opens a session if there is none for it. It may end at the order; then
nothing of the configuration is taken over. After that only the session can fail, and how that ends depends
on the world that the configuration was taken over in and on nothing before (`ensureConnected_outcome`).

Which session it meets is known from the record at the start. A session that is open belongs to an enabled
service (`Fits`), so it is lost exactly when the service is disabled or the repository is another one.
-/

set_option autoImplicit false

namespace PoolKeeper

namespace Config

variable {previous requested : Config}

instance (previous requested : Config) : Decidable (Orders previous requested) :=
  inferInstanceAs (Decidable (_ ∧ _))

/-- What is left of a configuration when its order was consumed. -/
def left (previous requested : Config) : Config :=
  if previous.Orders requested then requested.clearTrigger else requested

theorem takeRestoreOrder_eq : takeRestoreOrder previous requested =
    (if previous.Orders requested then some (Text.trim requested.restoreTrigger) else none,
      previous.left requested) := by
  by_cases horder : previous.Orders requested
  · rw [takeRestoreOrder_of_orders horder, left, if_pos horder, if_pos horder]
  · have hnone : (Text.trim requested.restoreTrigger = "" ||
        Text.trim requested.restoreTrigger = Text.trim previous.restoreTrigger) = true := by
      simpa [Orders, Classical.or_iff_not_imp_left] using horder
    rw [left, if_neg horder, if_neg horder, takeRestoreOrder]
    simp only [hnone, if_true]

/-- An order has no part in what the service runs on. -/
theorem left_eq (previous requested : Config) : previous.left requested =
    { requested with restoreTrigger := (previous.left requested).restoreTrigger } := by
  unfold left
  split <;> rfl

@[simp] theorem left_enabled : (previous.left requested).enabled = requested.enabled := by
  rw [left_eq]

@[simp] theorem left_password : (previous.left requested).password = requested.password := by
  rw [left_eq]

@[simp] theorem left_backend : (previous.left requested).backend = requested.backend := by
  rw [left_eq]

@[simp] theorem left_validate : (previous.left requested).validate = requested.validate := by
  simp only [validate, left_backend, left_enabled, left_password]

def SameRepository (previous requested : Config) : Prop :=
  requested.backend = previous.backend ∧ requested.password = previous.password

theorem repositoryChanged_eq_false_iff :
    requested.repositoryChanged previous = false ↔ previous.SameRepository requested := by
  simp [repositoryChanged, SameRepository]

@[simp] theorem left_sameRepository (c : Config) :
    c.SameRepository (previous.left requested) ↔ c.SameRepository requested := by
  simp only [SameRepository, left_backend, left_password]

end Config

namespace Service

open Operation

variable {σ : Type} {ctx : Context σ} {w w' v : World σ} {store : Store} {password : String}

/-! ## Attempts to connect -/

/-- The attempts to connect in a journal, the latest first: to which store, and with which password. -/
def attempts (es : List Event) : List (Store × String) := (calls es).filterMap fun
  | .connect store password => some (store, password)
  | _ => none

theorem attempts_updated (r : Record) (saved : Bool) (es : List Event) :
    attempts (.updated r saved :: es) = attempts es := rfl

theorem attempts_setRecord (w : World σ) (path : String) (r : Record) :
    attempts (w.setRecord path r).events = attempts w.events := by
  rw [World.setRecord_events, attempts_updated]

theorem attempts_connect (reply : Except Fault Unit) (es : List Event) :
    attempts (.called (.connect store password) reply :: es) = (store, password) :: attempts es := rfl

theorem attempts_elsewhere {c : Call} (h : IsElsewhere c) (reply : c.Reply) (es : List Event) :
    attempts (.called c reply :: es) = attempts es := by
  cases c <;> first | exact h.elim | rfl

theorem attempts_of_steps {U : Record → Record → Prop} (h : Steps IsElsewhere U w w') :
    attempts w'.events = attempts w.events :=
  h.keeps (P := fun _ es => attempts es = attempts w.events)
    (fun _ reply _ es hc hes => (attempts_elsewhere hc reply es).trans hes) (fun _ _ _ _ _ hes => hes) rfl

theorem prepareCache_elsewhere (hout : ctx.host.Outside) :
    Footprint ctx IsElsewhere Untouched prepareCache :=
  .bind .settings fun _ => .bind (.call hout (by trivial)) fun _ =>
    .ite (.pure _) (.call hout (by trivial))

/-- Whoever opens a session tries to connect at least once, and always to the same repository. -/
theorem connectOrCreate_attempts (hout : ctx.host.Outside) (store : Store) (password : String)
    {R : Fault → World σ → Prop} : Ensures ctx (connectOrCreate store password) w (fun _ w' =>
      ∃ n, attempts w'.events = List.replicate (n + 1) (store, password) ++ attempts w.events) R := by
  refine .bind (.call hout fun first w₁ _ he₁ => ?_)
  have h₁ : attempts w₁.events = (store, password) :: attempts w.events := by rw [he₁, attempts_connect]
  cases first with
  | ok _ => exact .pure ⟨0, h₁⟩
  | error first =>
    refine .bind (.call hout fun created w₂ _ he₂ => ?_)
    have h₂ : attempts w₂.events = (store, password) :: attempts w.events := by
      rw [he₂, attempts_elsewhere (by trivial), h₁]
    cases created with
    | error f => exact .pure ⟨0, h₂⟩
    | ok _ =>
      refine .bind (.call hout fun second w₃ _ he₃ => .pure ⟨1, ?_⟩)
      rw [he₃, attempts_connect, h₂]
      rfl

theorem connectOrCreate_neverFails (store : Store) (password : String) :
    NeverFails ctx (connectOrCreate store password) := by
  refine .bind (.call _) fun first => ?_
  cases first with
  | ok _ => exact .pure _
  | error first =>
    refine .bind (.call _) fun created => ?_
    cases created with
    | error f => exact .pure _
    | ok _ => exact .bind (.call _) fun _ => .pure _

/-! ## Opening a session -/

/-- The cache can be made ready. -/
def CacheReady (ctx : Context σ) (v : World σ) : Prop := (runIn ctx prepareCache v).1 = .ok (.ok ())

/-- Once the cache was seen to, a session can be opened. -/
def Connects (ctx : Context σ) (store : Store) (password : String) (v : World σ) : Prop :=
  (runIn ctx (connectOrCreate store password) (runIn ctx prepareCache v).2).1 = .ok (.ok ())

/-- How an attempt to make sure of a session ends. -/
structure Opening (ctx : Context σ) (v : World σ) (result : Except Fault Unit) (v' : World σ) : Prop where
  ok_iff : result = .ok () ↔ ∃ store, v.record.config.validate = .ok store ∧
    (v.record.status.connected = true ∨
      CacheReady ctx v ∧ Connects ctx store v.record.config.password v)
  connected_iff : v'.record.status.connected = true ↔ result = .ok ()
  attempts : ∃ new, attempts v'.events = new ++ attempts v.events ∧
    (∀ a ∈ new, v.record.config.validate = .ok a.1 ∧ v.record.config.password = a.2) ∧
    (new ≠ [] ↔ (∃ store, v.record.config.validate = .ok store) ∧ v.record.status.connected = false ∧
      CacheReady ctx v)

theorem runIn_disconnected {α : Type} (what : String) (f : Fault) :
    runIn ctx (disconnected what f : Operation σ α) v = (.error f,
      v.setRecord ctx.settings.statePath ((v.record.setConnected false).say (what ++ ": " ++ f.message))) := by
  simp only [disconnected, runIn_bind, runIn_update, runIn_throw]

theorem ensureConnected_invalid {d : Config.Defect} (h : v.record.config.validate = .error d) :
    runIn ctx ensureConnected v =
      runIn ctx (disconnected "Backend configuration invalid" d.fault) v := by
  simp only [ensureConnected, runIn_bind, runIn_record, h]

theorem ensureConnected_connected (h : v.record.config.validate = .ok store)
    (hconnected : v.record.status.connected = true) : runIn ctx ensureConnected v = (.ok (), v) := by
  simp only [ensureConnected, runIn_bind, runIn_record, h, hconnected, if_true, runIn_pure]

section Attempt

variable {v₁ v₂ : World σ} {f : Fault} (h : v.record.config.validate = .ok store)
  (hconnected : v.record.status.connected = false)
include h hconnected

theorem ensureConnected_unready (hcache : runIn ctx prepareCache v = (.ok (.error f), v₁)) :
    runIn ctx ensureConnected v =
      runIn ctx (disconnected "Failed to prepare cache dataset" f) v₁ := by
  simp only [ensureConnected, runIn_bind, runIn_record, h, hconnected, hcache, Bool.false_eq_true,
    if_false]

theorem ensureConnected_refused (hcache : runIn ctx prepareCache v = (.ok (.ok ()), v₁))
    (hopen : runIn ctx (connectOrCreate store v.record.config.password) v₁ = (.ok (.error f), v₂)) :
    runIn ctx ensureConnected v =
      runIn ctx (disconnected "Failed to connect or initialize repository" f) v₂ := by
  simp only [ensureConnected, runIn_bind, runIn_record, h, hconnected, hcache, hopen,
    Bool.false_eq_true, if_false]

theorem ensureConnected_opened (hcache : runIn ctx prepareCache v = (.ok (.ok ()), v₁))
    (hopen : runIn ctx (connectOrCreate store v.record.config.password) v₁ = (.ok (.ok ()), v₂)) :
    runIn ctx ensureConnected v = (.ok (), v₂.setRecord ctx.settings.statePath
      ((v₂.record.setConnected true).say "Repository connected")) := by
  simp only [ensureConnected, runIn_bind, runIn_record, h, hconnected, hcache, hopen,
    Bool.false_eq_true, if_false, runIn_update]

end Attempt

/-- The attempt fails with the session closed, and there was nothing to make it succeed. -/
theorem opening_of_disconnected {what : String} {f : Fault} (new : List (Store × String))
    (hfails : ∀ store, v.record.config.validate = .ok store → v.record.status.connected = false ∧
      ¬ (CacheReady ctx v ∧ Connects ctx store v.record.config.password v))
    (hnew : attempts w.events = new ++ attempts v.events)
    (hsame : ∀ a ∈ new, v.record.config.validate = .ok a.1 ∧ v.record.config.password = a.2)
    (hmade : new ≠ [] ↔ (∃ store, v.record.config.validate = .ok store) ∧
      v.record.status.connected = false ∧ CacheReady ctx v)
    (hrun : runIn ctx ensureConnected v = runIn ctx (disconnected what f) w) :
    Opening ctx v (runIn ctx ensureConnected v).1 (runIn ctx ensureConnected v).2 := by
  rw [hrun, runIn_disconnected]
  refine ⟨iff_of_false (by simp) ?_, iff_of_false ?_ (by simp), new, ?_, hsame, hmade⟩
  · rintro ⟨store, hstore, hconnected | hopens⟩
    · exact absurd hconnected (by simp [(hfails store hstore).1])
    · exact (hfails store hstore).2 hopens
  · rw [World.setRecord_record]
    exact Bool.false_ne_true
  · rw [attempts_setRecord, hnew]

/-- Without a session, everything depends on the cache and then on the repository. -/
theorem opening_of_closed (hout : ctx.host.Outside) (hvalid : v.record.config.validate = .ok store)
    (hclosed : v.record.status.connected = false) :
    Opening ctx v (runIn ctx ensureConnected v).1 (runIn ctx ensureConnected v).2 := by
  obtain ⟨made, v₁, hcache⟩ := prepareCache_neverFails.ok v
  have h₁ : attempts v₁.events = attempts v.events :=
    attempts_of_steps ((prepareCache_elsewhere hout v).of_ok hcache)
  cases made with
  | error f =>
    have hunready : ¬ CacheReady ctx v := by
      rw [CacheReady, hcache]
      rintro ⟨⟩
    refine opening_of_disconnected [] (fun _ _ => ⟨hclosed, fun h => hunready h.1⟩) h₁
      (by simp) ?_ (ensureConnected_unready hvalid hclosed hcache)
    exact iff_of_false (by simp) fun h => hunready h.2.2
  | ok _ =>
    -- However often the engine is asked, it is for this repository with this password.
    obtain ⟨opened, v₂, hopen⟩ := (connectOrCreate_neverFails store v.record.config.password).ok v₁
    obtain ⟨n, hn⟩ := (connectOrCreate_attempts hout store v.record.config.password
      (R := fun _ _ => True)).of_ok hopen
    rw [h₁] at hn
    have hready : CacheReady ctx v := by rw [CacheReady, hcache]
    have hconnects : Connects ctx store v.record.config.password v ↔ opened = .ok () := by
      rw [Connects, hcache, hopen, Except.ok.injEq]
    have hsame : ∀ a ∈ List.replicate (n + 1) (store, v.record.config.password),
        v.record.config.validate = .ok a.1 ∧ v.record.config.password = a.2 := by
      intro a ha
      rw [List.eq_of_mem_replicate ha]
      exact ⟨hvalid, rfl⟩
    have hmade : List.replicate (n + 1) (store, v.record.config.password) ≠ [] ↔
        (∃ store, v.record.config.validate = .ok store) ∧ v.record.status.connected = false ∧
          CacheReady ctx v := iff_of_true (by simp) ⟨⟨store, hvalid⟩, hclosed, hready⟩
    cases opened with
    | error f =>
      refine opening_of_disconnected _ (fun store' h => ⟨hclosed, fun hopens => ?_⟩) hn hsame hmade
        (ensureConnected_refused hvalid hclosed hcache hopen)
      obtain rfl : store = store' := Except.ok.inj (hvalid.symm.trans h)
      cases hconnects.mp hopens.2
    | ok _ =>
      rw [ensureConnected_opened hvalid hclosed hcache hopen]
      refine ⟨iff_of_true rfl ⟨store, hvalid, .inr ⟨hready, hconnects.mpr rfl⟩⟩,
        iff_of_true ?_ rfl, _, ?_, hsame, hmade⟩
      · rw [World.setRecord_record]
        rfl
      · rw [attempts_setRecord, hn]

theorem ensureConnected_outcome (hout : ctx.host.Outside) (v : World σ) :
    Opening ctx v (runIn ctx ensureConnected v).1 (runIn ctx ensureConnected v).2 := by
  cases hvalid : v.record.config.validate with
  | error d =>
    have hnone (store : Store) : v.record.config.validate ≠ .ok store := by
      rw [hvalid]
      rintro ⟨⟩
    refine opening_of_disconnected [] (fun store h => absurd h (hnone store)) rfl (by simp) ?_
      (ensureConnected_invalid hvalid)
    exact iff_of_false (by simp) fun h => hnone _ h.1.choose_spec
  | ok store =>
    cases hconnected : v.record.status.connected with
    | false => exact opening_of_closed hout hvalid hconnected
    | true =>
      rw [ensureConnected_connected hvalid hconnected]
      refine ⟨iff_of_true rfl ⟨store, hvalid, .inl hconnected⟩, iff_of_true hconnected rfl, [], rfl,
        by simp, iff_of_false (by simp) fun h => ?_⟩
      exact absurd hconnected (by simp [h.2.1])

/-! ## The order -/

/-- What an update does before it takes the configuration over. -/
def carryOut (previous requested : Config) : Operation σ Unit := do
  endSession previous requested
  if previous.Orders requested then restore requested.restoreTrigger

theorem update_eq_carryOut (requested : Config) : runIn ctx (update requested) w = runIn ctx (do
    carryOut w.record.config requested
    takeOver (w.record.config.left requested) w.record.config) w := by
  rw [update_eq, Config.takeRestoreOrder_eq, carryOut, bind_assoc]
  by_cases horder : w.record.config.Orders requested
  · simp only [horder, if_true, restore_trim]
  · simp only [horder, if_false]

/-- What is known of a session, and of the attempts to open one, while an order is seen to. -/
structure Meanwhile (w : World σ) (config : Config) (connected : Prop) (w' : World σ) : Prop where
  config : w'.record.config = config
  connected : w'.record.status.connected = true ↔ connected
  attempts : attempts w'.events = attempts w.events

theorem endSession_meanwhile (requested : Config) :
    Ensures ctx (endSession w.record.config requested) w (fun _ => Meanwhile w w.record.config
      (w.record.status.connected = true ∧ ¬ w.record.config.Disables requested)) (fun _ _ => False) := by
  rw [endSession]
  refine .ite (fun hoff => .update fun saved w' hr he => ?_) fun hkept => .pure ?_
  · have hdisables := Config.disables_iff.mp hoff
    have hcut : w'.record.config = w.record.config ∧ w'.record.status.connected = false := by
      rw [hr]
      dsimp only
      rw [if_neg (by simp [hdisables.1])]
      split <;> exact ⟨rfl, rfl⟩
    exact ⟨hcut.1, by simp [hcut.2, hdisables], by rw [he, attempts_updated]⟩
  · have hkept := mt Config.disables_iff.mpr hkept
    exact ⟨rfl, by simp [hkept], rfl⟩

theorem meanwhile_of_steps (h : Steps IsRestoring Progresses w w') :
    Meanwhile w w.record.config (w.record.status.connected = true) w' := by
  have hkept : w'.record.config = w.record.config ∧
      w'.record.status.connected = w.record.status.connected := by
    refine h.keeps_record (P := fun r => r.config = w.record.config ∧
      r.status.connected = w.record.status.connected) ?_ ⟨rfl, rfl⟩
    rintro r r' hU ⟨hconfig, hconnected⟩
    rw [hU]
    exact ⟨hconfig, hconnected⟩
  exact ⟨hkept.1, by rw [hkept.2], attempts_of_steps (h.mono (fun _ hc => hc.isElsewhere) fun _ _ h => h)⟩

theorem restore_meanwhile (hout : ctx.host.Outside) (id : String) :
    Ensures ctx (restore id) w
      (fun _ => Meanwhile w w.record.config.clearTrigger (w.record.status.connected = true))
      (fun _ => Meanwhile w w.record.config.clearTrigger (w.record.status.connected = true)) := by
  have hend {result : Except Fault Unit} {w₁ : World σ} (h₁ : Steps IsRestoring Progresses w w₁) :
      Ensures ctx (do
        Operation.update fun r => { r with config := r.config.clearTrigger }
        ofReply result) w₁
        (fun _ => Meanwhile w w.record.config.clearTrigger (w.record.status.connected = true))
        (fun _ => Meanwhile w w.record.config.clearTrigger (w.record.status.connected = true)) := by
    obtain ⟨hconfig, hconnected, hattempts⟩ := meanwhile_of_steps h₁
    refine .bind (.update fun saved w₂ hr he => ?_)
    have hcleared : Meanwhile w w.record.config.clearTrigger (w.record.status.connected = true) w₂ := by
      refine ⟨?_, ?_, ?_⟩
      · rw [hr, ← hconfig]
      · rw [hr]
        exact hconnected
      · rw [he, attempts_updated, hattempts]
    exact .ofReply (fun _ _ => hcleared) fun _ _ => hcleared
  exact .bind (.outcome ((tryRestore_footprint hout _ w).mono (fun _ _ => hend) fun _ _ => hend))

theorem carryOut_meanwhile (hout : ctx.host.Outside) (requested : Config) :
    Ensures ctx (carryOut w.record.config requested) w
      (fun _ w' => attempts w'.events = attempts w.events ∧
        (w'.record.status.connected = true ↔
          w.record.status.connected = true ∧ ¬ w.record.config.Disables requested))
      (fun _ w' => w.record.config.Orders requested ∧ w'.record.config = w.record.config.clearTrigger ∧
        attempts w'.events = attempts w.events) := by
  refine .bind ((endSession_meanwhile requested).mono (fun _ w₁ h₁ => ?_) fun _ _ => False.elim)
  refine .ite (fun horder => ?_) fun _ => .pure ⟨h₁.attempts, h₁.connected⟩
  refine (restore_meanwhile hout _).mono (fun _ w₂ h₂ => ?_) fun _ w₂ h₂ => ?_
  · exact ⟨h₂.attempts.trans h₁.attempts, h₂.connected.trans h₁.connected⟩
  · exact ⟨horder, by rw [h₂.config, h₁.config], h₂.attempts.trans h₁.attempts⟩

/-! ## The configuration -/

/-- The world in which the configuration was taken over. -/
def reconfigured (ctx : Context σ) (requested previous : Config) (w : World σ) : World σ :=
  w.setRecord ctx.settings.statePath (configured requested previous w.record)

theorem runIn_takeOver (requested previous : Config) : runIn ctx (takeOver requested previous) w =
    if requested.enabled then runIn ctx ensureConnected (reconfigured ctx requested previous w)
    else (.ok (), reconfigured ctx requested previous w) := by
  rw [takeOver, runIn_bind, runIn_update]
  dsimp only
  split <;> rfl

theorem reconfigured_config (requested previous : Config) :
    (reconfigured ctx requested previous w).record.config = requested := by
  rw [reconfigured, World.setRecord_record, configured]
  split <;> rfl

theorem reconfigured_connected (requested previous : Config) :
    (reconfigured ctx requested previous w).record.status.connected = true ↔
      w.record.status.connected = true ∧ previous.SameRepository requested := by
  rw [reconfigured, World.setRecord_record, configured, ← Config.repositoryChanged_eq_false_iff]
  cases requested.repositoryChanged previous with
  | true => simp [Record.setConnected]
  | false => simp

/-- How an update ends whose order was seen to, in the world `v` in which the configuration was taken
over. -/
structure TakenOver (ctx : Context σ) (requested : Config) (w v : World σ) (result : Except Fault Unit)
    (w' : World σ) : Prop where
  config : w'.record.config = w.record.config.left requested
  ok_iff : result = .ok () ↔ requested.enabled = false ∨ ∃ store, requested.validate = .ok store ∧
    (w.record.status.connected = true ∧ w.record.config.SameRepository requested ∨
      CacheReady ctx v ∧ Connects ctx store requested.password v)
  connected_iff : w'.record.status.connected = true ↔ requested.enabled = true ∧ result = .ok ()
  attempts : ∃ new, attempts w'.events = new ++ attempts w.events ∧
    (∀ a ∈ new, requested.validate = .ok a.1 ∧ requested.password = a.2) ∧
    (new ≠ [] ↔ requested.enabled = true ∧ (∃ store, requested.validate = .ok store) ∧
      CacheReady ctx v ∧ ¬ (w.record.status.connected = true ∧ w.record.config.SameRepository requested))

theorem ensureConnected_config (hout : ctx.host.Outside) (v : World σ) :
    (runIn ctx ensureConnected v).2.record.config = v.record.config := by
  refine (ensureConnected_footprint hout v).of_runIn.keeps_record
    (P := fun r => r.config = v.record.config) (fun r r' hU hr => ?_) rfl
  rw [hU]
  exact hr

theorem takeOver_outcome (hout : ctx.host.Outside) {w₁ : World σ} {requested : Config}
    (hsession : w.record.status.connected = true → w.record.config.enabled = true)
    (hattempts : attempts w₁.events = attempts w.events)
    (hconnected : w₁.record.status.connected = true ↔
      w.record.status.connected = true ∧ ¬ w.record.config.Disables requested) :
    TakenOver ctx requested w
      (reconfigured ctx (w.record.config.left requested) w.record.config w₁)
      (runIn ctx (takeOver (w.record.config.left requested) w.record.config) w₁).1
      (runIn ctx (takeOver (w.record.config.left requested) w.record.config) w₁).2 := by
  have hconfig : (reconfigured ctx (w.record.config.left requested) w.record.config w₁).record.config =
      w.record.config.left requested := reconfigured_config _ _
  have hlive : (reconfigured ctx (w.record.config.left requested) w.record.config
      w₁).record.status.connected = true ↔
        (w.record.status.connected = true ∧ ¬ w.record.config.Disables requested) ∧
          w.record.config.SameRepository requested :=
    (reconfigured_connected _ _).trans (and_congr hconnected (Config.left_sameRepository _))
  have hevents : attempts (reconfigured ctx (w.record.config.left requested) w.record.config w₁).events =
      attempts w.events := by rw [reconfigured, attempts_setRecord, hattempts]
  rw [runIn_takeOver, Config.left_enabled]
  generalize reconfigured ctx (w.record.config.left requested) w.record.config w₁ = v at *
  cases henabled : requested.enabled with
  | false =>
    -- A session that is left would be one of a service that is not disabled by this.
    have hclosed : ¬ v.record.status.connected = true := fun h =>
      (hlive.mp h).1.2 ⟨hsession (hlive.mp h).1.1, henabled⟩
    rw [if_neg Bool.false_ne_true]
    exact ⟨hconfig, iff_of_true rfl (.inl henabled), iff_of_false hclosed (by simp [henabled]), [], hevents,
      by simp, by simp [henabled]⟩
  | true =>
    have hlive' : v.record.status.connected = true ↔
        w.record.status.connected = true ∧ w.record.config.SameRepository requested := by
      rw [hlive]
      simp [Config.Disables, henabled]
    obtain ⟨hok, hopened, new, hnew, hsame, hmade⟩ := ensureConnected_outcome hout v
    rw [hconfig, Config.left_validate, Config.left_password, hlive'] at hok
    rw [hconfig, Config.left_validate, ← Bool.not_eq_true, hlive'] at hmade
    rw [if_pos rfl]
    refine ⟨(ensureConnected_config hout v).trans hconfig, ?_, ?_, new, hnew.trans (by rw [hevents]), ?_, ?_⟩
    · simpa [henabled] using hok
    · simpa [henabled] using hopened
    · simpa [hconfig] using hsame
    · rw [hmade]
      simp only [henabled, true_and]
      exact and_congr_right fun _ => and_comm

/-! ## All of it -/

/-- What the record says of the backups that were made is the same. -/
structure KeepsPast (r r' : Record) : Prop where
  lastBackup : r'.status.lastBackup = r.status.lastBackup
  lastWindow : r'.status.lastWindow = r.status.lastWindow
  snapshots : r'.status.snapshots = r.status.snapshots

theorem KeepsPast.refl (r : Record) : KeepsPast r r := ⟨rfl, rfl, rfl⟩

theorem KeepsPast.trans {r r' r'' : Record} (h : KeepsPast r r') (h' : KeepsPast r' r'') :
    KeepsPast r r'' :=
  ⟨h'.lastBackup.trans h.lastBackup, h'.lastWindow.trans h.lastWindow, h'.snapshots.trans h.snapshots⟩

theorem Reconnects.keepsPast {r r' : Record} (h : Reconnects r r') : KeepsPast r r' := by
  rw [h]
  exact ⟨rfl, rfl, rfl⟩

theorem Restores.keepsPast {r r' : Record} (h : Restores r r') : KeepsPast r r' := by
  rcases h with h | rfl
  · rw [h]
    exact ⟨rfl, rfl, rfl⟩
  · exact ⟨rfl, rfl, rfl⟩

theorem stop_keepsPast : Footprint ctx (fun _ => False) KeepsPast stop := by
  refine .update fun r => ?_
  dsimp only
  split
  · exact .refl r
  · split <;> exact ⟨rfl, rfl, rfl⟩

theorem configure_keepsPast (requested previous : Config) :
    Footprint ctx (fun _ => False) KeepsPast (Operation.update (configured requested previous)) := by
  refine .update fun r => ?_
  rw [configured]
  split <;> exact ⟨rfl, rfl, rfl⟩

theorem update_keepsPast (hout : ctx.host.Outside) (requested : Config) :
    KeepsPast w.record (runIn ctx (update requested) w).2.record := by
  have hall : Preserves ctx (fun w' => KeepsPast w.record w'.record) (update requested) := by
    refine .update ?_ (fun id => ?_) ?_ fun w₀ _ => ?_
    · exact .of_footprint stop_keepsPast fun _ _ hU h => h.trans hU
    · exact .of_footprint (restore_footprint hout id) fun _ _ hU h => h.trans hU.keepsPast
    · exact .of_footprint (ensureConnected_footprint hout) fun _ _ hU h => h.trans hU.keepsPast
    · exact .of_footprint (configure_keepsPast _ _) fun _ _ hU h => h.trans hU
  exact (hall w (.refl _)).of_runIn

/-- A service whose record was opened, and of which anything was asked since. -/
def Running (s : Settings) (a : Answers σ) (w : World σ) : Prop :=
  ∃ m m' r host actions, (openRecord s.statePath).run.run m = (.ok r, m') ∧
    w = after ⟨s, a.host⟩ { record := r, machine := m', host } actions

theorem Running.fits {s : Settings} {a : Answers σ} (h : Running s a w) : Fits w := by
  obtain ⟨m, m', r, host, actions, hopen, rfl⟩ := h
  exact after_keeps (fun b _ => perform_fits a.outside b) actions _
    (.of_disconnected (openRecord_disconnected hopen))

/-- Whatever is requested of a running service and whatever is answered to it: an update whose order fails
ends with that fault, and of the configuration nothing is taken over. In every other case it is taken over
with its order consumed, and the update succeeds exactly if nothing has to run, or the configuration is
complete and the session that it needs is there or can be opened. The record says afterwards that there is a
session exactly if that is so, and the repository was called for one exactly if there was none for it. What
is known of backups is left alone. -/
theorem update_outcome (s : Settings) (a : Answers σ) (hw : Running s a w) (requested : Config) :
    (∀ f w₁, runIn ⟨s, a.host⟩ (carryOut w.record.config requested) w = (.error f, w₁) →
      w.record.config.Orders requested ∧ runIn ⟨s, a.host⟩ (update requested) w = (.error f, w₁) ∧
        w₁.record.config = w.record.config.clearTrigger ∧ attempts w₁.events = attempts w.events) ∧
    (∀ w₁, runIn ⟨s, a.host⟩ (carryOut w.record.config requested) w = (.ok (), w₁) →
      TakenOver ⟨s, a.host⟩ requested w
        (reconfigured ⟨s, a.host⟩ (w.record.config.left requested) w.record.config w₁)
        (runIn ⟨s, a.host⟩ (update requested) w).1 (runIn ⟨s, a.host⟩ (update requested) w).2) ∧
    KeepsPast w.record (runIn ⟨s, a.host⟩ (update requested) w).2.record := by
  have hout : a.host.Outside := a.outside
  refine ⟨fun f w₁ hfails => ?_, fun w₁ hdone => ?_, update_keepsPast hout requested⟩
  · obtain ⟨horder, hconfig, hattempts⟩ := (carryOut_meanwhile hout requested).of_error hfails
    refine ⟨horder, ?_, hconfig, hattempts⟩
    rw [update_eq_carryOut, runIn_bind, hfails]
  · obtain ⟨hattempts, hconnected⟩ := (carryOut_meanwhile hout requested).of_ok hdone
    rw [update_eq_carryOut, runIn_bind, hdone]
    exact takeOver_outcome hout (fun hlive => (hw.fits hlive).1) hattempts hconnected

/-- The configuration of a service that is running, with another password. -/
def rekeyed : Config := { sampleConfig with password := "other" }

/-- The session with the old password is of no use, and one is opened with the new one. -/
theorem update_outcome_rekeyed : Running {} agreeable ready ∧ ready.record.status.connected = true ∧
    (runIn agreeableContext (update rekeyed) ready).2.record.config = rekeyed ∧
    ∃ new, new ≠ [] ∧ (∀ a ∈ new, a.2 = "other") ∧
      attempts (runIn agreeableContext (update rekeyed) ready).2.events =
        new ++ attempts ready.events := by
  have hrunning : Running {} agreeable ready := ⟨{}, {}, {}, (), [.update sampleConfig], rfl, rfl⟩
  have hcontext : agreeableContext = ⟨{}, agreeable.host⟩ := rfl
  have hprevious : ready.record.config = sampleConfig := by decide +kernel
  have horder : ¬ ready.record.config.Orders rekeyed := by
    rw [hprevious]
    decide
  have hcarried : runIn agreeableContext (carryOut ready.record.config rekeyed) ready = (.ok (), ready) := by
    have hkept : ¬ (ready.record.config.enabled && !rekeyed.enabled) = true := by
      rw [hprevious]
      decide
    simp only [carryOut, endSession, if_neg hkept, if_neg horder, runIn_bind, runIn_pure]
  rw [hcontext] at hcarried ⊢
  have hchanged : ¬ ready.record.config.SameRepository rekeyed := by
    rw [hprevious, ← Config.repositoryChanged_eq_false_iff]
    decide
  have hleft : ready.record.config.left rekeyed = rekeyed := if_neg horder
  have hready (v : World Unit) : CacheReady ⟨{}, agreeable.host⟩ v := rfl
  obtain ⟨-, hdone, -⟩ := update_outcome {} agreeable hrunning rekeyed
  obtain ⟨hconfig, -, -, new, hnew, hsame, hmade⟩ := hdone ready hcarried
  refine ⟨hrunning, by decide +kernel, hconfig.trans hleft, new, ?_, fun a ha => (hsame a ha).2.symm, hnew⟩
  exact hmade.mpr ⟨rfl, ⟨_, rfl⟩, hready _, fun h => hchanged h.2⟩

end Service

end PoolKeeper
