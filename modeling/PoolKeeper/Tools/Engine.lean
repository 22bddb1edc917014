import PoolKeeper.Json
import PoolKeeper.Record.Form
import PoolKeeper.Tools.Command

/-!
# `PoolKeeper/Tools/Engine.lean` — the command lines of the backup engine

The engine is one program with subcommands. A repository is named by flags, the secrets among them
included; snapshots are listed as JSON.
-/

set_option autoImplicit false

namespace PoolKeeper.Engine

/-- The arguments that make a repository or connect to one. -/
def repositoryArguments (verb : String) (s : ObjectStore) (password : String) : List String :=
  ["repository", verb, "s3", "--bucket", s.bucket, "--endpoint", s.endpoint, "--access-key",
    s.accessKey, "--secret-access-key", s.secretKey, "--password", password]
  ++ (if s.disableTls then ["--disable-tls"] else [])
  ++ (match s.region with
    | some region => if region = "" then [] else ["--region", region]
    | none => [])

def uploadArguments (path description : String) : List String :=
  ["snapshot", "create", path, "--description", description]

def listArguments : List String := ["snapshot", "list", "--json"]

/-- The arguments that let the engine forget what the policy does not keep. -/
def expireArguments (policy : Retention) : List String := ["snapshot", "expire"] ++ policy.arguments

def fetchArguments (snapshot target : String) : List String := ["snapshot", "restore", snapshot, target]

def fault (what cause : String) : Fault := ⟨.engine, "failed to " ++ what ++ ": " ++ cause⟩

def listedSnapshot? (j : Json) : Option Snapshot := do
  let fields ← Source.fields? ["id", "source", "startTime", "description", "stats"] j
  some {
    id := ← Source.required fields "id" Source.text?
    time := ← Source.required fields "startTime" Instant.ofSource?
    size := Int64.ofInt (← Source.orElse fields "stats" 0 totalSize?)
    source := ← Source.required fields "source" path?
    description := ← Source.orElse fields "description" "" Source.text? }
where
  path? (j : Json) : Option String := do
    Source.orElse (← Source.fields? ["path"] j) "path" "" Source.text?
  totalSize? (j : Json) : Option Int := do
    Source.orElse (← Source.fields? ["totalSize"] j) "totalSize" 0 Source.integer?

/-- The snapshots in a list of the engine; one that cannot be read spoils the list. -/
def readList (text : String) : Except Fault (List Snapshot) :=
  match (Json.ofText? text).bind (Source.listOf listedSnapshot?) with
  | some snapshots => .ok snapshots
  | none => .error (fault "parse snapshot list" "not a list of snapshots")

end PoolKeeper.Engine
