import PoolKeeper.Disk.Refusal
import PoolKeeper.Record.Form
import PoolKeeper.Yaml.Read
import PoolKeeper.Yaml.Render

/-!
# `PoolKeeper/Record/File.lean` — the state file

The record is kept in one document. A file that is not there is the record of a new, disabled
service; a file that cannot be read or understood is a fault and never overwritten by a guess. Saving
puts the complete document in place in one step, so a reader never sees half of it.
-/

set_option autoImplicit false

namespace PoolKeeper

/-- Puts data at a path as a document. -/
def Form.save (f : Form) (path : String) : FileStep Unit := do
  let directory := match Path.parent? path with
    | none | some "" => "."
    | some parent => parent
  (Files.makeDirectories directory).orFault .state "create" directory
  (Files.replace path f.yaml.toUTF8).orFault .state "rename" path

namespace Record

def ofYaml? (text : String) : Option Record := Yaml.read? Record.ofSource? text

def yaml (r : Record) : String := r.form.yaml

def save (path : String) (r : Record) : FileStep Unit := r.form.save path

/-- Loads the record; a cycle that was running when it was saved is marked as interrupted. -/
def load (path : String) : FileStep Record := ExceptT.mk do
  match ← (Files.readText path).run with
  | .error .notFound => return .ok {}
  | .error e => return .error ⟨.state, Files.refusal "read" path e⟩
  | .ok text =>
    match ofYaml? text with
    | some r => return .ok r.recovered
    | none => return .error ⟨.state, "parse " ++ path ++ ": not a record"⟩

/-- The record in a state file as it is, if there is one. -/
def saved? (path : String) (m : Machine) : Option Record :=
  match ((Files.readText path).run.run m).1 with
  | .ok text => ofYaml? text
  | .error _ => none

end Record

end PoolKeeper
