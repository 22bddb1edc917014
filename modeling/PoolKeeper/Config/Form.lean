import PoolKeeper.Config.Basic
import PoolKeeper.Form

/-!
# `PoolKeeper/Config/Form.lean` — the configuration in files

Every field of a configuration may be missing and then has its empty value. What is written leaves
out optional fields that are absent, and a few that are empty; an optional field that is present and
empty is written, so that it does not come back absent. For each type `names` are its fields in their
order, `form` is how it is written, and `ofSource?` is what was read.
-/

set_option autoImplicit false

namespace PoolKeeper

variable {α : Type} [Source α]

def Form.optional {β : Type} (name : String) (write : β → Form) : Option β → List (String × Form)
  | none => []
  | some b => [(name, write b)]

/-- A field that is left out when it is blank. -/
def Form.unlessEmpty (name : String) (s : String) : List (String × Form) :=
  if s = "" then [] else [(name, .text s)]

namespace Retention

def form (p : Retention) : Form :=
  let count (n : UInt32) := Form.number n.toNat
  .fields (Form.optional "keep_latest" count p.keepLatest
    ++ Form.optional "keep_hourly" count p.keepHourly
    ++ Form.optional "keep_daily" count p.keepDaily
    ++ Form.optional "keep_weekly" count p.keepWeekly
    ++ Form.optional "keep_monthly" count p.keepMonthly
    ++ Form.optional "keep_annual" count p.keepAnnual)

def names : List String :=
  ["keep_latest", "keep_hourly", "keep_daily", "keep_weekly", "keep_monthly", "keep_annual"]

def ofSource? (a : α) : Option Retention := do
  let fields ← Source.fields? names a
  let count (name : String) : Option (Option UInt32) :=
    Source.optional fields name fun a => (Source.word? 32 a).map UInt32.ofNat
  some {
    keepLatest := ← count "keep_latest"
    keepHourly := ← count "keep_hourly"
    keepDaily := ← count "keep_daily"
    keepWeekly := ← count "keep_weekly"
    keepMonthly := ← count "keep_monthly"
    keepAnnual := ← count "keep_annual" }

end Retention

namespace ObjectStore

def form (s : ObjectStore) : Form :=
  .fields ([("endpoint", .text s.endpoint), ("bucket", .text s.bucket),
      ("access_key", .text s.accessKey), ("secret_key", .text s.secretKey)]
    ++ Form.optional "region" .text s.region
    ++ (if s.disableTls then [("disable_tls", .flag true)] else []))

def names : List String :=
  ["endpoint", "bucket", "access_key", "secret_key", "region", "disable_tls"]

def ofSource? (a : α) : Option ObjectStore := do
  let fields ← Source.fields? names a
  let text (name : String) : Option String := Source.orElse fields name "" Source.text?
  some {
    endpoint := ← text "endpoint"
    bucket := ← text "bucket"
    accessKey := ← text "access_key"
    secretKey := ← text "secret_key"
    region := ← Source.optional fields "region" Source.text?
    disableTls := ← Source.orElse fields "disable_tls" false Source.flag? }

end ObjectStore

namespace Backend

def form (b : Backend) : Form :=
  .fields (("type", .text b.kind) :: Form.optional "s3" ObjectStore.form b.s3)

def ofSource? (a : α) : Option Backend := do
  let fields ← Source.fields? ["type", "s3"] a
  some {
    kind := ← Source.orElse fields "type" "" Source.text?
    s3 := ← Source.optional fields "s3" ObjectStore.ofSource? }

end Backend

namespace Config

def form (c : Config) : Form :=
  .fields ([("enabled", .flag c.enabled), ("repository_password", .text c.password),
      ("backend", c.backend.form), ("retention", c.retention.form)]
    ++ Form.unlessEmpty "backup_frequency" c.frequency
    ++ Form.unlessEmpty "restore_snapshot_id" c.restoreTrigger)

def names : List String :=
  ["enabled", "repository_password", "backend", "retention", "backup_frequency",
    "restore_snapshot_id"]

def ofSource? (a : α) : Option Config := do
  let fields ← Source.fields? names a
  let text (name : String) : Option String := Source.orElse fields name "" Source.text?
  some {
    enabled := ← Source.orElse fields "enabled" false Source.flag?
    password := ← text "repository_password"
    backend := ← Source.orElse fields "backend" {} Backend.ofSource?
    retention := ← Source.orElse fields "retention" {} Retention.ofSource?
    frequency := ← text "backup_frequency"
    restoreTrigger := ← text "restore_snapshot_id" }

end Config

end PoolKeeper
