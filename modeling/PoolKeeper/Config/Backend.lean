import PoolKeeper.Fault
import PoolKeeper.Text.Blank

/-!
# `PoolKeeper/Config/Backend.lean` — where the repository lives

A configuration names the kind of store and carries a block for it (`Backend`); `resolve` turns it
into a store that can be connected to (`Store`), of which there is one sort. Everything the tools
are told about a repository comes out of `resolve`, so a store always has an endpoint, a bucket and
both keys.
-/

set_option autoImplicit false

namespace PoolKeeper

open Text

/-- An object store: its address, the bucket, and the keys to it. -/
structure ObjectStore where
  endpoint : String := ""
  bucket : String := ""
  accessKey : String := ""
  secretKey : String := ""
  region : Option String := none
  disableTls : Bool := false
deriving DecidableEq, Repr

/-- The store as the configuration gives it: a kind, and the block for that kind. -/
structure Backend where
  kind : String := ""
  s3 : Option ObjectStore := none
deriving DecidableEq, Repr

inductive Store where
  | s3 (store : ObjectStore)
deriving DecidableEq, Repr

namespace Backend

inductive Defect where
  | kindMissing
  | kindUnsupported (kind : String)
  | blockMissing
  /-- The block lacks these fields. -/
  | fieldsMissing (names : List String)
deriving DecidableEq, Repr

def Defect.message : Defect → String
  | kindMissing => "backend type is required"
  | kindUnsupported kind => "unsupported backend type: " ++ kind
  | blockMissing => "S3 backend configuration missing"
  | fieldsMissing names =>
    "S3 configuration incomplete: missing " ++ String.intercalate ", " names

/-- The fields that must not be blank and are, in the order they are named. -/
def blankFields (s : ObjectStore) : List String :=
  [("endpoint", s.endpoint), ("bucket", s.bucket), ("access_key", s.accessKey),
    ("secret_key", s.secretKey)].filterMap
    fun (name, value) => if trim value = "" then some name else none

def resolve (b : Backend) : Except Defect Store :=
  let kind := trim b.kind
  if kind = "s3" then
    match b.s3 with
    | none => .error .blockMissing
    | some s =>
      let missing := blankFields s
      if missing.isEmpty then .ok (.s3 s) else .error (.fieldsMissing missing)
  else if kind = "" then .error .kindMissing
  else .error (.kindUnsupported kind)

end Backend

end PoolKeeper
