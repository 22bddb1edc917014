import PoolKeeper.Config.Form
import PoolKeeper.Record.Basic
import PoolKeeper.Time.Stamp

/-!
# `PoolKeeper/Record/Form.lean` — the record in its file

The state file holds the configuration and the status as two mappings. A snapshot needs all its
fields but the description; everything else may be missing.
-/

set_option autoImplicit false

namespace PoolKeeper

variable {α : Type} [Source α]

def Instant.ofSource? (a : α) : Option Instant := do Instant.ofText? (← Source.text? a)

def Instant.form (t : Instant) : Form := .text t.exactText

namespace Snapshot

def form (s : Snapshot) : Form :=
  .fields ([("id", .text s.id), ("time", s.time.form), ("size", .number s.size.toInt),
    ("source", .text s.source)] ++ Form.unlessEmpty "description" s.description)

def ofSource? (a : α) : Option Snapshot := do
  let fields ← Source.fields? ["id", "time", "size", "source", "description"] a
  some {
    id := ← Source.required fields "id" Source.text?
    time := ← Source.required fields "time" Instant.ofSource?
    size := Int64.ofInt (← Source.required fields "size" Source.integer?)
    source := ← Source.required fields "source" Source.text?
    description := ← Source.orElse fields "description" "" Source.text? }

end Snapshot

namespace Status

def form (s : Status) : Form :=
  .fields ([("repository_connected", .flag s.connected)]
    ++ Form.optional "last_backup" Instant.form s.lastBackup
    ++ Form.optional "last_backup_window" .text s.lastWindow
    ++ [("last_status", .text s.lastStatus), ("in_progress", .flag s.inProgress),
      ("progress", .number s.progress.toNat)]
    ++ (if s.snapshots.isEmpty then []
      else [("available_snapshots", .list (s.snapshots.map Snapshot.form))]))

def names : List String :=
  ["repository_connected", "last_backup", "last_backup_window", "last_status", "in_progress",
    "progress", "available_snapshots"]

def ofSource? (a : α) : Option Status := do
  let fields ← Source.fields? names a
  some {
    connected := ← Source.orElse fields "repository_connected" false Source.flag?
    lastBackup := ← Source.optional fields "last_backup" Instant.ofSource?
    lastWindow := ← Source.optional fields "last_backup_window" Source.text?
    lastStatus := ← Source.orElse fields "last_status" "" Source.text?
    inProgress := ← Source.orElse fields "in_progress" false Source.flag?
    progress := UInt8.ofNat (← Source.orElse fields "progress" 0 (Source.word? 8))
    snapshots := ← Source.orElse fields "available_snapshots" []
      (Source.listOf Snapshot.ofSource?) }

end Status

namespace Record

def form (r : Record) : Form := .fields [("config", r.config.form), ("state", r.status.form)]

def ofSource? (a : α) : Option Record := do
  let fields ← Source.fields? ["config", "state"] a
  some {
    config := ← Source.orElse fields "config" {} Config.ofSource?
    status := ← Source.orElse fields "state" {} Status.ofSource? }

end Record

end PoolKeeper
