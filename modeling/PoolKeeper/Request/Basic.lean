import PoolKeeper.Config.Form
import PoolKeeper.Yaml.Render
import PoolKeeper.Yaml.Value

/-!
# `PoolKeeper/Request/Basic.lean` — what the command line asks of the running service

A request is one of three kinds, and is handed over as a file of its own: a document that names its
kind beside the fields that the kind has.
-/

set_option autoImplicit false

namespace PoolKeeper

inductive Request where
  /-- Take over this configuration. -/
  | update (config : Config)
  /-- Restore this snapshot. -/
  | restore (snapshot : String)
  /-- Make a backup now. -/
  | backup
deriving DecidableEq

namespace Request

def kind : Request → String
  | update _ => "update"
  | restore _ => "restore"
  | backup => "backup"

def form (r : Request) : Form :=
  .fields (("kind", .text r.kind) :: match r with
    | update config => [("config", config.form)]
    | restore snapshot => [("snapshot_id", .text snapshot)]
    | backup => [])

/-- The request of the given kind whose fields are these. A backup has none and overlooks them, as
long as they have names. -/
def ofKind? {α : Type} [Source α] (kind : String) (body : α) : Option Request :=
  if kind = "update" then do
    let fields ← Source.fields? ["config"] body
    some (.update (← Source.required fields "config" Config.ofSource?))
  else if kind = "restore" then do
    let fields ← Source.fields? ["snapshot_id"] body
    some (.restore (← Source.required fields "snapshot_id" Source.text?))
  else if kind = "backup" then
    match Source.list? body with
    | some (_ :: _) => none
    | _ => some .backup
  else none

def yaml (r : Request) : String := r.form.yaml

def ofYaml? (text : String) : Option Request := do
  let (kind, body) ← Yaml.Value.readKinded? "kind" text
  ofKind? kind body

end Request

end PoolKeeper
