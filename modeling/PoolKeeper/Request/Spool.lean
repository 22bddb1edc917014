import PoolKeeper.Record.File
import PoolKeeper.Request.Basic
import PoolKeeper.Text.Decimal

/-!
# `PoolKeeper/Request/Spool.lean` — requests that wait for the running service

A spool is a private directory with a file for each request. The names sort in the order of
submission, and a file is put in place complete. `take` gives the requests in the order of their
names and removes their files; a file that is no text stays where it is, one that holds no request
is removed and forgotten, and neither keeps the others from being taken.
-/

set_option autoImplicit false

namespace PoolKeeper.Spool

open Text

def isRequestName (name : String) : Bool := !name.startsWith "." && name.endsWith ".yaml"

/-- The name of a request's file: the time in nanoseconds, the process, and how many names the
process had given before. -/
def requestName (nanos : Nat) (pid : UInt32) (number : Nat) : String :=
  String.ofList (padded 20 nanos ++ '-' :: decimal pid.toNat ++ '-' :: padded 6 number) ++ ".yaml"

/-- Makes sure that the spool is there and private. -/
def ensure (dir : String) : FileStep Unit := do
  (Files.makeDirectories dir).orFault .state "create" dir
  let mode ← (Files.mode dir).orFault .state "stat" dir
  -- Permissions that are right are left alone, whatever else the mode says.
  if mode % 0o1000 ≠ 0o700 then (Files.setMode dir 0o700).orFault .state "chmod" dir

/-- Hands a request over, and gives the path of its file. -/
def submit (dir : String) (r : Request) : FileStep String := do
  ensure dir
  let (nanos, number) ← Files.stamp
  let path := Path.join dir (requestName nanos (← get).pid number)
  (Files.putNew path (.privateFile r.yaml.toUTF8)).orFault .state "rename" path
  return path

/-- Removes the file of a request that can be read as text, and gives the request if it is one. -/
def takeFile (dir name : String) : StateM Machine (Option Request) := do
  let path := Path.join dir name
  match ← (Files.readText path).run with
  | .error _ => return none
  | .ok text =>
    match ← (Files.removeFile path).run with
    | .error _ => return none
    | .ok _ => return Request.ofYaml? text

def pending (dir : String) : Files (List String) := do
  return (← Files.list dir).filter isRequestName

def takeFiles (dir : String) : List String → StateM Machine (List Request)
  | [] => return []
  | name :: names => do
    let first ← takeFile dir name
    return first.toList ++ (← takeFiles dir names)

/-- Removes and gives all requests that wait, the oldest first. -/
def take (dir : String) : FileStep (List Request) := do
  match ← (pending dir).run with
  | .error .notFound => return []
  | .error e => throw ⟨.state, Files.refusal "read" dir e⟩
  | .ok names => takeFiles dir names

end PoolKeeper.Spool
