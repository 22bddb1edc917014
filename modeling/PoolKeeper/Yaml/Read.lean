import PoolKeeper.Form
import PoolKeeper.Word
import PoolKeeper.Yaml.Node
import PoolKeeper.Yaml.Schema

/-!
# `PoolKeeper/Yaml/Read.lean` — asking a document for what is wanted

A scalar is a text for whoever wants a text, in whatever form it is written. Numbers and truth values
have to be plain. An empty place is a mapping without entries, a list without items, or a missing
optional value, and null is only the last of these.
-/

set_option autoImplicit false

namespace PoolKeeper.Yaml

/-- A node in its document; nothing, for a stream without a document. -/
structure Piece where
  document : Document
  node : Option Node

namespace Piece

def sibling (p : Piece) (n : Node) : Piece := { p with node := some n }

/-- The node, with an alias followed. The outer nothing is an alias without a target. -/
def resolved? (p : Piece) : Option (Option Node) :=
  match p.node with
  | none => some none
  | some n => (p.document.resolve? n).map some

def text? (p : Piece) : Option String := do
  match ← p.resolved? with
  | some (.scalar _ _ text) => some text
  | _ => none

/-- The text of a scalar that may be something other than text: a plain one, or a literal block
that says by the tag `name` what it is. -/
def meaning? (name : String) (p : Piece) : Option String := do
  match ← p.resolved? with
  | some (.scalar _ .plain text) => some text
  | some (.scalar (some tag) .literal text) =>
    if tag = "tag:yaml.org,2002:" ++ name then some text else none
  | _ => none

def natural? (p : Piece) : Option Nat := do
  let n ← naturalOfText? (← p.meaning? "int")
  if Word.holds 64 n then some n else none

def integer? (p : Piece) : Option Int := do
  let n ← integerOfText? (← p.meaning? "int")
  if Word.holdsSigned 64 n then some n else none

/-- Nothing, for an empty place or a null. -/
def optional? (p : Piece) : Option (Option Piece) := do
  match ← p.resolved? with
  | none => some none
  | some (.scalar tag .plain text) =>
    match tag with
    | none => some (if text = "" || isNullText text then none else some p)
    | some tag =>
      if tag = "tag:yaml.org,2002:null" then (if isNullText text then some none else none)
      else some (some p)
  | some _ => some (some p)

def isBlank : Option Node → Bool
  | none => true
  | some (.scalar _ .plain "") => true
  | _ => false

/-- The items of a list. -/
def list? (p : Piece) : Option (List Piece) := do
  match ← p.resolved? with
  | some (.sequence _ items) => some (items.map p.sibling)
  | n => if isBlank n then some [] else none

/-- The entries of a mapping, whose keys have to be scalars. -/
def fields? (p : Piece) : Option (List (String × Piece)) := do
  match ← p.resolved? with
  | some (.mapping _ entries) =>
    entries.mapM fun (key, value) => do some (← (p.sibling key).text?, p.sibling value)
  | n => if isBlank n then some [] else none

end Piece

instance : Source Piece where
  text? := Piece.text?
  flag? p := do flagOfText? (← p.meaning? "bool")
  natural? := Piece.natural?
  integer? := Piece.integer?
  optional? := Piece.optional?
  list? := Piece.list?
  fields? _ := Piece.fields?

/-- What the one document of the text holds, as something that is read from a document. -/
def read? {β : Type} (read : Piece → Option β) (text : String) : Option β := do
  let d ← Document.ofText? text
  read ⟨d, d.root⟩

end PoolKeeper.Yaml
