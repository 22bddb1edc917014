import PoolKeeper.Word

/-!
# `PoolKeeper/Form.lean` — data on its way to a file and back

A `Form` is data ready to be written: truth values, numbers, texts, lists and named fields in order.

What comes back is not always a `Form`. In a document the reader decides what a piece of it means
(`0x10` is a text where a text is wanted and a number where a number is), so reading is asking: a
`Source` answers each question about a piece of data with a value or with nothing. The readers of the
domain's types are written once, over any source.
-/

set_option autoImplicit false

namespace PoolKeeper

inductive Form where
  | flag (value : Bool)
  | number (value : Int)
  | text (value : String)
  | list (items : List Form)
  /-- Named fields; the names are plain words. -/
  | fields (entries : List (String × Form))

/-- Pieces of data that can be asked what they hold. -/
class Source (α : Type) where
  text? : α → Option String
  flag? : α → Option Bool
  /-- A number without a minus, of at most 64 bits. -/
  natural? : α → Option Nat
  /-- A number of at most 64 bits. -/
  integer? : α → Option Int
  /-- Nothing, for a piece that stands for a missing one. -/
  optional? : α → Option (Option α)
  list? : α → Option (List α)
  /-- The fields with their names. Where the data gives values without names, they belong to the
  given names in order. -/
  fields? : (names : List String) → α → Option (List (String × α))

namespace Source

variable {α β : Type} [Source α]

def word? (bits : Nat) (a : α) : Option Nat := do
  let n ← natural? a
  if Word.holds bits n then some n else none

/-- The value of a field, if there is one; a field that stands twice is refused. -/
def field? (fields : List (String × α)) (name : String) : Option (Option α) :=
  match fields.filter (·.1 == name) with
  | [] => some none
  | [(_, a)] => some (some a)
  | _ => none

/-- A field that must be there. -/
def required (fields : List (String × α)) (name : String) (read : α → Option β) : Option β := do
  read (← (← field? fields name))

/-- A field with a value for when it is missing. -/
def orElse (fields : List (String × α)) (name : String) (missing : β) (read : α → Option β) :
    Option β := do
  match ← field? fields name with
  | some a => read a
  | none => some missing

/-- A field that may be missing, or there and empty. -/
def optional (fields : List (String × α)) (name : String) (read : α → Option β) :
    Option (Option β) := do
  match ← field? fields name with
  | none => some none
  | some a =>
    match ← optional? a with
    | none => some none
    | some a => (read a).map some

/-- A list of things of one sort. -/
def listOf (read : α → Option β) (a : α) : Option (List β) := do (← list? a).mapM read

end Source

end PoolKeeper
