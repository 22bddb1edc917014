import Mathlib.Logic.Equiv.Basic
import PoolKeeper.Proofs.Life
import PoolKeeper.Record.Report

/-!
# `PoolKeeper/Proofs/Renamed.lean` — data with other secrets in it

The password of the repository and the two keys of the store are secrets. A `Renaming` puts other secrets
in their places, and everything that carries some has its counterpart: configurations, records, requests,
and the two calls that hand secrets over.

What the service does with a secret is little: it looks whether it is there, and whether it is the one it
was before. A `Masking` keeps both, so the counterpart of a configuration has the same defects, is
another repository in the same cases, and is reported in the same words.
-/

set_option autoImplicit false

namespace PoolKeeper

/-- Other secrets: different ones for different ones, empty for empty and blank for blank. -/
structure Masking where
  mask : String → String
  injective : Function.Injective mask
  empty (s : String) : mask s = "" ↔ s = ""
  blank (s : String) : Text.trim (mask s) = "" ↔ Text.trim s = ""

/-- Two secrets change places. -/
def Masking.exchange (a b : String) (ha : Text.trim a ≠ "") (hb : Text.trim b ≠ "") : Masking where
  mask := Equiv.swap a b
  injective := (Equiv.swap a b).injective
  empty s := by
    have hne {s : String} (hs : Text.trim s ≠ "") : s ≠ "" := by
      rintro rfl
      exact hs (by decide)
    rw [Equiv.swap_apply_def]
    split
    next h => simp [h, hne ha, hne hb]
    next => split
            next h => simp [h, hne ha, hne hb]
            next => rfl
  blank s := by
    rw [Equiv.swap_apply_def]
    split
    next h => simp [h, ha, hb]
    next => split
            next h => simp [h, ha, hb]
            next => rfl

/-- Other secrets for each of the three places. -/
structure Renaming where
  password : Masking
  accessKey : Masking
  secretKey : Masking

namespace Renaming

variable (ρ : Renaming)

def keys (s : ObjectStore) : ObjectStore :=
  { s with accessKey := ρ.accessKey.mask s.accessKey, secretKey := ρ.secretKey.mask s.secretKey }

def store : Store → Store
  | .s3 s => .s3 (ρ.keys s)

def config (c : Config) : Config :=
  { c with
    password := ρ.password.mask c.password
    backend := { c.backend with s3 := c.backend.s3.map ρ.keys } }

def record (r : Record) : Record := { r with config := ρ.config r.config }

def request : Request → Request
  | .update config => .update (ρ.config config)
  | .restore snapshot => .restore snapshot
  | .backup => .backup

def action : Service.Action → Service.Action
  | .update requested => .update (ρ.config requested)
  | .apply r => .apply (ρ.request r)
  | .start => .start
  | .stop => .stop
  | .get => .get
  | .tick => .tick
  | .backup => .backup
  | .restore id => .restore id

def call : Call → Call
  | .connect store password => .connect (ρ.store store) (ρ.password.mask password)
  | .create store password => .create (ρ.store store) (ρ.password.mask password)
  | c => c

def event : Event → Event
  | .called (.connect store password) reply =>
    .called (.connect (ρ.store store) (ρ.password.mask password)) reply
  | .called (.create store password) reply =>
    .called (.create (ρ.store store) (ρ.password.mask password)) reply
  | .called c reply => .called c reply
  | .updated r saved => .updated (ρ.record r) saved

/-- A call that hands no secret over. -/
def Keeps : Call → Prop
  | .connect .. | .create .. => False
  | _ => True

variable {ρ}

theorem call_of_keeps {c : Call} (h : Keeps c) : ρ.call c = c := by
  cases c <;> first | exact h.elim | rfl

theorem event_called {c : Call} {reply : c.Reply} {reply' : (ρ.call c).Reply} (h : HEq reply reply') :
    ρ.event (.called c reply) = .called (ρ.call c) reply' := by
  cases c <;> cases h <;> rfl

/-! ## What depends on secrets -/

variable (ρ)

theorem blankFields_keys (s : ObjectStore) :
    Backend.blankFields (ρ.keys s) = Backend.blankFields s := by
  have hblank (M : Masking) (name value : String) :
      (if Text.trim (M.mask value) = "" then some name else none) =
        if Text.trim value = "" then some name else none := by
    by_cases h : Text.trim value = ""
    · rw [if_pos h, if_pos ((M.blank value).mpr h)]
    · rw [if_neg h, if_neg (mt (M.blank value).mp h)]
  have hmap {f : String × String → Option String} {as bs : List (String × String)}
      (h : as.map f = bs.map f) : as.filterMap f = bs.filterMap f := by
    simpa only [List.filterMap_map, Function.id_comp] using congrArg (List.filterMap id) h
  exact hmap (by simp only [keys, List.map_cons, List.map_nil, hblank])

theorem resolve_config (c : Config) :
    (ρ.config c).backend.resolve = c.backend.resolve.map ρ.store := by
  obtain ⟨_, _, ⟨kind, s3⟩, _, _, _⟩ := c
  simp only [Backend.resolve, config]
  by_cases hkind : Text.trim kind = "s3"
  · cases s3 with
    | none => simp only [hkind, if_true, Option.map_none, Except.map]
    | some s =>
      simp only [hkind, if_true, Option.map_some, blankFields_keys]
      cases (Backend.blankFields s).isEmpty <;> rfl
  · simp only [hkind, if_false]
    by_cases hempty : Text.trim kind = ""
    · simp only [hempty, if_true, Except.map]
    · simp only [hempty, if_false, Except.map]

/-- The counterpart of a configuration has the same defects. -/
theorem validate_config (c : Config) : (ρ.config c).validate = c.validate.map ρ.store := by
  have hpassword : ((ρ.config c).enabled && decide ((ρ.config c).password = "")) =
      (c.enabled && decide (c.password = "")) := by
    simp only [config, ρ.password.empty]
  unfold Config.validate
  rw [resolve_config, hpassword]
  cases c.backend.resolve with
  | error defect => rfl
  | ok store =>
    simp only [Except.map]
    split <;> rfl

theorem keys_injective : Function.Injective ρ.keys := by
  rintro ⟨endpoint, bucket, access, secret, region, tls⟩ ⟨endpoint', bucket', access', secret', region', tls'⟩ h
  simp only [keys, ObjectStore.mk.injEq, ρ.accessKey.injective.eq_iff, ρ.secretKey.injective.eq_iff] at h
  obtain ⟨rfl, rfl, rfl, rfl, rfl, rfl⟩ := h
  rfl

/-- It is another repository in the same cases. -/
theorem repositoryChanged_config (c previous : Config) :
    (ρ.config c).repositoryChanged (ρ.config previous) = c.repositoryChanged previous := by
  obtain ⟨_, password, ⟨kind, s3⟩, _, _, _⟩ := c
  obtain ⟨_, password', ⟨kind', s3'⟩, _, _, _⟩ := previous
  have hs3 : s3.map ρ.keys = s3'.map ρ.keys ↔ s3 = s3' :=
    (Option.map_injective ρ.keys_injective).eq_iff
  simp only [Config.repositoryChanged, config, ne_eq, Backend.mk.injEq, hs3,
    ρ.password.injective.eq_iff]

theorem takeRestoreOrder_config (previous requested : Config) :
    Config.takeRestoreOrder (ρ.config previous) (ρ.config requested) =
      ((Config.takeRestoreOrder previous requested).1,
        ρ.config (Config.takeRestoreOrder previous requested).2) := by
  have hsame : Config.takeRestoreOrder (ρ.config previous) (ρ.config requested) =
      if Text.trim requested.restoreTrigger = "" ||
          Text.trim requested.restoreTrigger = Text.trim previous.restoreTrigger then
        (none, ρ.config requested)
      else (some (Text.trim requested.restoreTrigger), (ρ.config requested).clearTrigger) := rfl
  rw [hsame, Config.takeRestoreOrder]
  split <;> rfl

theorem configured_record (requested previous : Config) (r : Record) :
    Service.configured (ρ.config requested) (ρ.config previous) (ρ.record r) =
      ρ.record (Service.configured requested previous r) := by
  unfold Service.configured
  rw [repositoryChanged_config]
  split <;> rfl

theorem readFrequency_config (c : Config) : (ρ.config c).readFrequency = c.readFrequency := by
  rw [Config.readFrequency, Config.readFrequency, config]

theorem decide_record (r : Record) (windows : List Window) (now : Instant) :
    Schedule.decide (ρ.record r) windows now = Schedule.decide r windows now := by
  rw [Schedule.decide, show (ρ.record r).config.readFrequency = r.config.readFrequency from
    ρ.readFrequency_config r.config]
  rfl

/-- The counterpart of a record is reported in the same words. -/
theorem report_record (r : Record) : (ρ.record r).report = r.report := by
  have hsummary : (ρ.record r).config.backend.summary = r.config.backend.summary := by
    simp only [Backend.summary, record, config]
    cases r.config.backend.s3 <;> rfl
  unfold Record.report Record.reportLines
  rw [hsummary]
  rfl

end Renaming

end PoolKeeper
