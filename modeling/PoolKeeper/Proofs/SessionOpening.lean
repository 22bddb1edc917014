import PoolKeeper.Proofs.BackupOutcome
import PoolKeeper.Proofs.UpdateOutcome

/-!
# `PoolKeeper/Proofs/SessionOpening.lean` — what is asked to open a session

To open a session the cache is seen to, and then the engine is asked to connect; if it cannot, it is asked
to make the repository and to connect again. A second repository beside the first would be a disaster, so
what matters is that it is asked to make one at most once and only after it could not connect.

`CacheWay` and `EngineWay` give, for each way in which the two parts can go, all that was asked with the
answers, and what came of it. There are two and four. What is promised of the whole (`Opened`) is read off
them, as the promises of a backup are read off the ways of its cycle.
-/

set_option autoImplicit false

namespace PoolKeeper

/-- The store that a valid configuration runs on is the one that its backend describes. -/
theorem Config.resolve_of_validate {c : Config} {store : Store} (h : c.validate = .ok store) :
    c.backend.resolve = .ok store := by
  unfold validate at h
  split at h
  · cases h
  · split at h
    · cases h
    · cases h
      assumption

namespace Service

open Operation

variable {σ : Type} {ctx : Context σ} {w : World σ} {s : Settings} {store : Store} {password : String}
  {prepared talk : List Event} {result : Except Fault Unit}

/-! ## The two parts -/

/-- The dataset of the engine's cache, as it is made. -/
def cacheOrder (s : Settings) : Call :=
  .createDataset s.pool s.cacheDataset [("mountpoint", s.cacheDir), ("canmount", "on")]

/-- What was asked about the cache, the latest first, and what came of it. -/
inductive CacheWay (s : Settings) : List Event → Except Fault Unit → Prop
  | there : CacheWay s [.called (.datasetExists (s.pool ++ "/" ++ s.cacheDataset)) true] (.ok ())
  | made (reply : (cacheOrder s).Reply) : CacheWay s
    [.called (cacheOrder s) reply,
      .called (.datasetExists (s.pool ++ "/" ++ s.cacheDataset)) false] reply

/-- The engine could neither connect nor make a repository to connect to. -/
def unreachable (first later : Fault) : Fault :=
  ⟨.repository, "connect: " ++ first.message ++ "; create: " ++ later.message⟩

/-- What was asked of the engine, the latest first, and what came of it. -/
inductive EngineWay (store : Store) (password : String) : List Event → Except Fault Unit → Prop
  | known : EngineWay store password [.called (.connect store password) (.ok ())] (.ok ())
  | unmade (first later : Fault) : EngineWay store password
    [.called (.create store password) (.error later),
      .called (.connect store password) (.error first)] (.error (unreachable first later))
  | made (first : Fault) : EngineWay store password
    [.called (.connect store password) (.ok ()), .called (.create store password) (.ok ()),
      .called (.connect store password) (.error first)] (.ok ())
  | lost (first later : Fault) : EngineWay store password
    [.called (.connect store password) (.error later), .called (.create store password) (.ok ()),
      .called (.connect store password) (.error first)] (.error (unreachable first later))

theorem prepareCache_way (hout : ctx.host.Outside) (w : World σ) {R : Fault → World σ → Prop} :
    Ensures ctx prepareCache w (fun result w' => w'.record = w.record ∧ ∃ asked,
      CacheWay ctx.settings asked result ∧ answered w'.events = asked ++ answered w.events) R := by
  apply Ensures.bind
  apply Ensures.settings
  apply Ensures.bind
  apply Ensures.call hout
  intro there w₁ hr₁ he₁
  cases there with
  | true =>
    apply Ensures.pure
    exact ⟨hr₁, _, .there, congrArg answered he₁⟩
  | false =>
    apply Ensures.call hout
    intro reply w₂ hr₂ he₂
    refine ⟨hr₂.trans hr₁, _, .made reply, ?_⟩
    rw [he₂, he₁]
    rfl

theorem connectOrCreate_way (hout : ctx.host.Outside) (store : Store) (password : String)
    (w : World σ) {R : Fault → World σ → Prop} :
    Ensures ctx (connectOrCreate store password) w (fun result w' => w'.record = w.record ∧ ∃ asked,
      EngineWay store password asked result ∧ answered w'.events = asked ++ answered w.events) R := by
  apply Ensures.bind
  apply Ensures.call hout
  intro first w₁ hr₁ he₁
  cases first with
  | ok _ =>
    apply Ensures.pure
    exact ⟨hr₁, _, .known, congrArg answered he₁⟩
  | error first =>
    apply Ensures.bind
    apply Ensures.call hout
    intro created w₂ hr₂ he₂
    cases created with
    | error later =>
      apply Ensures.pure
      refine ⟨hr₂.trans hr₁, _, .unmade first later, ?_⟩
      rw [he₂, he₁]
      rfl
    | ok _ =>
      apply Ensures.bind
      apply Ensures.call hout
      intro second w₃ hr₃ he₃
      apply Ensures.pure
      have hr : w₃.record = w.record := hr₃.trans (hr₂.trans hr₁)
      cases second with
      | error later =>
        refine ⟨hr, _, .lost first later, ?_⟩
        rw [he₃, he₂, he₁]
        rfl
      | ok _ =>
        refine ⟨hr, _, .made first, ?_⟩
        rw [he₃, he₂, he₁]
        rfl

/-! ## What is promised -/

def asksEngine : Event → Bool
  | .called .engineAvailable _ | .called (.connect ..) _ | .called (.create ..) _
  | .called (.upload ..) _ | .called .listSnapshots _ | .called (.expire _) _
  | .called (.fetch ..) _ => true
  | _ => false

/-- What was asked of the engine in a journal, with the answers, the first first. -/
def engineTalk (es : List Event) : List Event := (es.filter asksEngine).reverse

theorem calls_nil : calls [] = [] := rfl

theorem engineTalk_append (es es' : List Event) :
    engineTalk (es ++ es') = engineTalk es' ++ engineTalk es := by
  simp [engineTalk]

/-- How a session is opened where there is none: what came of it, and all that was asked. -/
structure Opened (s : Settings) (store : Store) (password : String) (new : List Event)
    (result : Except Fault Unit) : Prop where
  order : calls (engineTalk new) ∈ [[], [.connect store password],
    [.connect store password, .create store password],
    [.connect store password, .create store password, .connect store password]]
  /-- A repository is made only where the first attempt to connect has failed. -/
  create_after {before after : List Event} {store' : Store} {password' : String}
    {reply : (Call.create store' password').Reply}
    (h : engineTalk new = before ++ .called (.create store' password') reply :: after) :
    ∃ first, before = [.called (.connect store password) (.error first)]
  /-- Whatever else was asked was about the cache. -/
  rest : ∃ asked made, CacheWay s asked made ∧ new.filter (!asksEngine ·) = asked
  silent_iff : engineTalk new = [] ↔ ∃ f : Fault, result = .error f ∧
    new.head? = some (.called (cacheOrder s) (.error f))
  ok_iff : result = .ok () ↔
    (engineTalk new).getLast? = some (.called (.connect store password) (.ok ()))
  /-- Where the engine was asked and no session came of it, both of its failures are reported. -/
  unreached {f : Fault} (h : result = .error f) (hasked : engineTalk new ≠ []) :
    ∃ first later, f = unreachable first later ∧
      (engineTalk new).head? = some (.called (.connect store password) (.error first)) ∧
      ((engineTalk new).getLast? = some (.called (.create store password) (.error later)) ∨
        (engineTalk new).getLast? = some (.called (.connect store password) (.error later)))

theorem CacheWay.engineTalk_eq_nil (h : CacheWay s prepared result) : engineTalk prepared = [] := by
  cases h <;> rfl

theorem CacheWay.rest (h : CacheWay s prepared result) :
    prepared.filter (!asksEngine ·) = prepared := by
  cases h <;> rfl

theorem EngineWay.rest (h : EngineWay store password talk result) :
    talk.filter (!asksEngine ·) = [] := by
  cases h <;> rfl

theorem EngineWay.engineTalk_eq (h : EngineWay store password talk result) :
    engineTalk talk = talk.reverse := by
  cases h <;> rfl

/-- Without the cache the engine is not asked. -/
theorem CacheWay.opened {f : Fault} (h : CacheWay s prepared (.error f)) :
    Opened s store password prepared (.error f) := by
  have hsilent := h.engineTalk_eq_nil
  constructor
  · simp [hsilent, calls]
  · intro before after _ _ _ heq
    simp [hsilent] at heq
  · exact ⟨_, _, h, h.rest⟩
  · cases h with
    | made => exact iff_of_true hsilent ⟨f, rfl, rfl⟩
  · simp [hsilent]
  · intro f' _ hasked
    exact absurd hsilent hasked

/-- With the cache, all depends on the engine. -/
theorem EngineWay.opened (h : EngineWay store password talk result)
    (hprepared : CacheWay s prepared (.ok ())) :
    Opened s store password (talk ++ prepared) result := by
  have htalk : engineTalk (talk ++ prepared) = talk.reverse := by
    rw [engineTalk_append, hprepared.engineTalk_eq_nil, List.nil_append, h.engineTalk_eq]
  constructor
  · rw [htalk]
    cases h <;> simp [calls_called, calls_nil]
  · intro before after store' password' reply heq
    rw [htalk] at heq
    cases h <;> simp [List.cons_eq_append_iff] at heq <;> simp [heq]
  · refine ⟨_, _, hprepared, ?_⟩
    rw [List.filter_append, h.rest, hprepared.rest, List.nil_append]
  · rw [htalk]
    cases h <;> simp [cacheOrder]
  · rw [htalk]
    cases h <;> simp
  · intro f hf _
    rw [htalk]
    cases h <;> cases hf <;> exact ⟨_, _, rfl, by simp⟩

/-! ## The whole -/

theorem disconnected_answered {α : Type} (what : String) (f : Fault) (w : World σ)
    {Q : α → World σ → Prop} : Ensures ctx (disconnected what f) w Q (fun f' w' => f' = f ∧
      w'.record.status.connected = false ∧ answered w'.events = answered w.events) := by
  apply Ensures.bind
  apply Ensures.update
  intro saved w' hr he
  apply Ensures.throw
  refine ⟨rfl, ?_, ?_⟩
  · rw [hr]
    rfl
  · rw [he, answered_updated]

/-- Where there is no session, one is opened, and the record says whether it was. -/
theorem ensureConnected_of_closed (hout : ctx.host.Outside)
    (hvalid : w.record.config.validate = .ok store) (hclosed : w.record.status.connected = false) :
    Ensures ctx ensureConnected w
      (fun _ w' => w'.record.status.connected = true ∧ ∃ new,
        answered w'.events = new ++ answered w.events ∧
          Opened ctx.settings store w.record.config.password new (.ok ()))
      (fun f w' => w'.record.status.connected = false ∧ ∃ new,
        answered w'.events = new ++ answered w.events ∧
          Opened ctx.settings store w.record.config.password new (.error f)) := by
  apply Ensures.bind
  apply Ensures.record
  simp only [hvalid, hclosed, Bool.false_eq_true, if_false]
  apply Ensures.bind
  refine (prepareCache_way hout w).mono ?_ fun _ _ h => h
  intro made w₁ ⟨hr₁, prepared, hprepared, he₁⟩
  cases made with
  | error f =>
    refine (disconnected_answered _ f w₁).mono (fun _ _ h => h) ?_
    intro f' w' ⟨hf, hgone, he⟩
    subst hf
    exact ⟨hgone, prepared, he.trans he₁, hprepared.opened⟩
  | ok _ =>
    apply Ensures.bind
    refine (connectOrCreate_way hout store w.record.config.password w₁).mono ?_ fun _ _ h => h
    intro opened w₂ ⟨hr₂, talk, htalk, he₂⟩
    have hasked : answered w₂.events = (talk ++ prepared) ++ answered w.events := by
      rw [he₂, he₁, List.append_assoc]
    cases opened with
    | error f =>
      refine (disconnected_answered _ f w₂).mono (fun _ _ h => h) ?_
      intro f' w' ⟨hf, hgone, he⟩
      subst hf
      exact ⟨hgone, _, he.trans hasked, htalk.opened hprepared⟩
    | ok _ =>
      apply Ensures.update
      intro saved w' hr he
      refine ⟨?_, _, ?_, htalk.opened hprepared⟩
      · rw [hr]
        rfl
      · rw [he, answered_updated, hasked]

theorem Reconnects.trans {r r' r'' : Record} (h : Reconnects r r') (h' : Reconnects r' r'') :
    Reconnects r r'' := by
  rw [Reconnects] at h h'
  rw [Reconnects, h', h]

theorem ensureConnected_reconnects (hout : ctx.host.Outside) (w : World σ) :
    Reconnects w.record (runIn ctx ensureConnected w).2.record := by
  have hsteps := (ensureConnected_footprint hout w).of_runIn
  apply hsteps.keeps_record (P := fun r => Reconnects w.record r)
  · intro r r' hU h
    exact h.trans hU
  · rfl

/-- Making sure of a session always comes to an end, and what came of it is this. Nobody is asked anything
for a configuration that is not valid, nor where there is a session; otherwise all that is asked is as
`Opened` has it, for the configured repository. The record says afterwards that there is a session exactly
if that succeeded, nothing else of it changes but the last status, and as long as the record stays like
that, making sure once more does nothing at all. -/
theorem ensureConnected_asks (s : Settings) (a : Answers σ) (w : World σ) :
    ∃ result w', runIn ⟨s, a.host⟩ ensureConnected w = (result, w') ∧
      (∀ d, w.record.config.validate = .error d →
        result = .error d.fault ∧ answered w'.events = answered w.events) ∧
      (∀ store, w.record.config.validate = .ok store →
        w.record.config.backend.resolve = .ok store ∧
        (w.record.status.connected = true → result = .ok () ∧ w' = w) ∧
        (w.record.status.connected = false → ∃ new,
          answered w'.events = new ++ answered w.events ∧
            Opened s store w.record.config.password new result)) ∧
      (w'.record.status.connected = true ↔ result = .ok ()) ∧
      Reconnects w.record w'.record ∧
      (result = .ok () → ∀ v : World σ, v.record = w'.record →
        runIn ⟨s, a.host⟩ ensureConnected v = (.ok (), v)) := by
  have hout : a.host.Outside := a.outside
  have hopening : Opening ⟨s, a.host⟩ w _ _ := ensureConnected_outcome hout w
  have hreconnects : Reconnects w.record (runIn ⟨s, a.host⟩ ensureConnected w).2.record :=
    ensureConnected_reconnects hout w
  refine ⟨_, _, (Prod.eta (runIn ⟨s, a.host⟩ ensureConnected w)).symm,
    ?_, ?_, hopening.connected_iff, hreconnects, ?_⟩
  · intro d hinvalid
    rw [ensureConnected_invalid hinvalid, runIn_disconnected, World.setRecord_events]
    exact ⟨rfl, rfl⟩
  · intro store hvalid
    refine ⟨Config.resolve_of_validate hvalid, ?_, ?_⟩
    · intro hconnected
      rw [ensureConnected_connected hvalid hconnected]
      exact ⟨rfl, rfl⟩
    · intro hclosed
      have hopened : Ensures ⟨s, a.host⟩ ensureConnected w _ _ :=
        ensureConnected_of_closed hout hvalid hclosed
      have h := hopened.mono (fun _ _ h => h.2) fun _ _ h => h.2
      exact h.of_result (P := fun result w' => ∃ new, answered w'.events = new ++ answered w.events ∧
        Opened s store w.record.config.password new result)
  · intro hok v hv
    obtain ⟨store, hvalid, -⟩ := hopening.ok_iff.mp hok
    have hconfig : v.record.config = w.record.config := by rw [hv, hreconnects]
    have hconnected : v.record.status.connected = true := hv ▸ hopening.connected_iff.mpr hok
    exact ensureConnected_connected (hconfig ▸ hvalid) hconnected

/-- An engine that has to make its repository before it can connect. -/
def firstUse : Answers Bool
  | .connect .., false, m => (.error ⟨.engine, "not found"⟩, false, m)
  | .create .., _, m => (.ok (), true, m)
  | c, made, m => ((agreeable c () m).1, made, m)

def sampleStore : Store :=
  .s3 { endpoint := "store", bucket := "pool", accessKey := "key", secretKey := "hush" }

/-- A configured service that has had no session yet. -/
def unopened : World Bool := ⟨{ config := sampleConfig }, {}, false, []⟩

/-- On first use the repository is made, once. -/
theorem ensureConnected_asks_firstUse : ∃ new w', unopened.record.config.validate = .ok sampleStore ∧
    runIn ⟨{}, firstUse.host⟩ ensureConnected unopened = (.ok (), w') ∧ answered w'.events = new ∧
    Opened {} sampleStore "secret" new (.ok ()) ∧
    calls (engineTalk new) = [.connect sampleStore "secret", .create sampleStore "secret",
      .connect sampleStore "secret"] ∧
    ∀ v : World Bool, v.record = w'.record →
      runIn ⟨{}, firstUse.host⟩ ensureConnected v = (.ok (), v) := by
  obtain ⟨result, w', hrun, -, hvalid, -, -, hlater⟩ := ensureConnected_asks {} firstUse unopened
  have hfirst : (runIn ⟨{}, firstUse.host⟩ ensureConnected unopened).1 = .ok () := by decide +kernel
  have hasked : calls (engineTalk (answered (runIn ⟨{}, firstUse.host⟩ ensureConnected unopened).2.events)) =
      [.connect sampleStore "secret", .create sampleStore "secret", .connect sampleStore "secret"] := by
    decide +kernel
  rw [hrun] at hfirst hasked
  obtain rfl : result = .ok () := hfirst
  obtain ⟨-, -, hclosed⟩ := hvalid sampleStore rfl
  obtain ⟨new, hnew, hopened⟩ := hclosed rfl
  have hall : answered w'.events = new := hnew.trans (List.append_nil new)
  rw [hall] at hasked
  exact ⟨new, w', rfl, hrun, hall, hopened, hasked, hlater rfl⟩

end Service

end PoolKeeper
