import PoolKeeper.Record.Basic
import PoolKeeper.Text.Decimal
import PoolKeeper.Time.Stamp

/-!
# `PoolKeeper/Record/Report.lean` — the record for people

What is shown of a record. Of the backend only its kind and where it is are shown, never a key and
never the password: `Backend.summary` looks at nothing else, and no other line looks at the backend.
-/

set_option autoImplicit false

namespace PoolKeeper

open Text

def Backend.summary (b : Backend) : String :=
  match b.s3 with
  | some s => b.kind ++ " " ++ s.endpoint ++ "/" ++ s.bucket
  | none => if b.kind = "" then "none" else b.kind

/-- The lines about a snapshot: where it came from, and its description, if it has one. -/
def Snapshot.lines (s : Snapshot) : List String :=
  ("  " ++ s.id ++ "  " ++ s.time.plainText ++ "  " ++ String.ofList (rightAligned 12 s.size.toInt)
    ++ "  " ++ s.source)
  :: (if s.description = "" then [] else ["      " ++ s.description])

namespace Record

/-- The lines about what the service does, or did last. -/
def activityLine (s : Status) : String :=
  if s.inProgress then
    "running:     " ++ String.ofList (decimal s.progress.toNat) ++ "% " ++ s.lastStatus
  else "status:      " ++ s.lastStatus

def reportLines (r : Record) : List String :=
  let yesNo (b : Bool) : String := if b then "true" else "false"
  let s := r.status
  [ "enabled:     " ++ yesNo r.config.enabled,
    "backend:     " ++ r.config.backend.summary,
    "connected:   " ++ yesNo s.connected,
    "frequency:   " ++ (if r.config.frequency = "" then "once per maintenance window"
      else r.config.frequency),
    activityLine s,
    "last backup: " ++ (match s.lastBackup with
      | some t => t.plainText ++ " UTC"
      | none => "never"),
    "last window: " ++ s.lastWindow.getD "none",
    "snapshots:   " ++ String.ofList (decimal s.snapshots.length) ]
  ++ s.snapshots.flatMap Snapshot.lines

def report (r : Record) : String := String.join (r.reportLines.map (· ++ "\n"))

end Record

end PoolKeeper
