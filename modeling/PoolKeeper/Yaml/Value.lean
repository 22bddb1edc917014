import PoolKeeper.Form
import PoolKeeper.Word
import PoolKeeper.Yaml.Node
import PoolKeeper.Yaml.Schema

/-!
# `PoolKeeper/Yaml/Value.lean` — a document read before it is known what is wanted

Where the kind of a piece of data is one of its own fields, the rest has to be taken in before it can
be understood. A `Value` is what a node stands for by itself: here a number is not a text, an empty
place is null and nothing else, and a list can stand for fields in order.

Nesting is limited, and so is how often aliases are followed, for a small document can stand for a
huge or an endless value.
-/

set_option autoImplicit false

namespace PoolKeeper.Yaml

inductive Value where
  | null
  | flag (value : Bool)
  | natural (value : Nat)
  | negative (value : Int)
  | float
  | text (value : String)
  | list (items : List Value)
  | mapping (entries : List (Value × Value))

namespace Value

/-- How deep collections may stand inside each other. -/
def maxDepth : Nat := 128

/-- What a plain scalar stands for; integers have at most 64 bits here. -/
def ofPlain? (text : String) : Option Value :=
  match PlainKind.ofText text with
  | .null => some .null
  | .flag b => some (.flag b)
  | .natural n => if Word.holds 64 n then some (.natural n) else none
  | .negative n => if Word.holdsSigned 64 n then some (.negative n) else none
  | .float => some .float
  | .text => some (.text text)

/-- Whether the tag is one of the document's own, which nothing here understands. -/
def isLocal (tag : Option String) : Bool := tag.any fun t => t.startsWith "!"

/-- What a scalar stands for. A tag that names a type of the schema has to fit. -/
def ofScalar? (tag : Option String) (style : Style) (text : String) : Option Value :=
  match tag with
  | none => if style = .plain then ofPlain? text else some (.text text)
  | some tag =>
    if isLocal (some tag) then none
    else if tag = "tag:yaml.org,2002:bool" then (flagOfText? text).map .flag
    else if tag = "tag:yaml.org,2002:int" then
      match PlainKind.ofText text with
      | .natural _ | .negative _ => ofPlain? text
      | _ => none
    else if tag = "tag:yaml.org,2002:float" then
      if isFloatText text then some .float else none
    else if tag = "tag:yaml.org,2002:null" then
      if isNullText text then some .null else none
    else some (.text text)

/-- The node, or the one it is an alias of. The state is how many aliases may still be followed. -/
def follow (d : Document) (n : Node) : StateT Nat Option Node := do
  match n with
  | .alias number =>
    let left ← get
    if left = 0 then failure
    set (left - 1)
    d.target? number
  | n => return n

/-- What a node stands for, collections to the given depth. -/
def ofNode (d : Document) : (depth : Nat) → Node → StateT Nat Option Value
  | 0, n => do
    match ← follow d n with
    | .scalar tag style s => ofScalar? tag style s
    | _ => failure
  | depth + 1, n => do
    match ← follow d n with
    | .scalar tag style s => ofScalar? tag style s
    | .sequence tag items =>
      if isLocal tag then failure
      return .list (← items.mapM (ofNode d depth))
    | .mapping tag entries =>
      if isLocal tag then failure
      return .mapping (← entries.mapM fun (key, value) => do
        return (← ofNode d depth key, ← ofNode d depth value))
    | .alias _ => failure

/-- The name of a field that is given as a key; a number is the place of a field in order, and one
that no field has names none. -/
def fieldName? (names : List String) : Value → Option (Option String)
  | .text s => some (some s)
  | .natural n => some names[n]?
  | _ => none

/-- The fields of a mapping, or of a list of values in order. -/
def fields? (names : List String) : Value → Option (List (String × Value))
  | .mapping entries => do
    let named ← entries.mapM fun (key, value) => do
      some ((← fieldName? names key).map fun name => (name, value))
    some (named.filterMap id)
  | .list items => if items.length ≤ names.length then some (names.zip items) else none
  | _ => none

end Value

instance : Source Value where
  text?
    | .text s => some s
    | _ => none
  flag?
    | .flag b => some b
    | _ => none
  natural?
    | .natural n => some n
    | _ => none
  integer?
    | .natural n => if Word.holds 63 n then some n else none
    | .negative n => some n
    | _ => none
  optional?
    | .null => some none
    | v => some (some v)
  list?
    | .list items => some items
    | _ => none
  fields? := Value.fields?

namespace Value

def kindText (d : Document) (n : Node) : StateT Nat Option String := do
  match ← follow d n with
  | .scalar _ _ s => return s
  | _ => failure

/-- The kind that one of the fields of a mapping names, and the other fields. -/
def splitKind (d : Document) (name : String) :
    List (Node × Node) → StateT Nat Option (Option String × List (Value × Value))
  | [] => return (none, [])
  | (key, value) :: entries => do
    match ← ofNode d (maxDepth - 1) key with
    | .text s =>
      if s = name then
        let kind ← kindText d value
        let (other, rest) ← splitKind d name entries
        -- A mapping names its kind once.
        if other.isSome then failure
        return (some kind, rest)
      else
        let value ← ofNode d (maxDepth - 1) value
        let (kind, rest) ← splitKind d name entries
        return (kind, (.text s, value) :: rest)
    | key =>
      let value ← ofNode d (maxDepth - 1) value
      let (kind, rest) ← splitKind d name entries
      return (kind, (key, value) :: rest)

/-- The kind that the root of a document gives, and the rest of the root: a mapping with the kind as
its field `name`, or a list with the kind in front. -/
def kinded (d : Document) (name : String) : StateT Nat Option (String × Value) := do
  match d.root with
  | some (.mapping tag entries) =>
    if isLocal tag then failure
    match ← splitKind d name entries with
    | (some kind, rest) => return (kind, .mapping rest)
    | (none, _) => failure
  | some (.sequence tag (kind :: items)) =>
    if isLocal tag then failure
    let kind ← kindText d kind
    return (kind, .list (← items.mapM (ofNode d (maxDepth - 1))))
  | _ => failure

def readKinded? (name : String) (text : String) : Option (String × Value) := do
  let d ← Document.ofText? text
  let (result, _) ← (kinded d name).run (100 * d.size)
  some result

end Value

end PoolKeeper.Yaml
