import PoolKeeper.Form
import PoolKeeper.Text.Decimal
import PoolKeeper.Word
import PoolKeeper.Yaml.Char

/-!
# `PoolKeeper/Json.lean` — reading JSON

The engine lists its snapshots as JSON. Only what somebody asks for has to make sense: a number may be
larger than any type, and a text may hold half of a surrogate pair, as long as nobody wants it. Where
a mapping is wanted a list will do, whose values belong to the fields in order.
-/

set_option autoImplicit false

namespace PoolKeeper

open Text

inductive Json where
  | null
  | flag (value : Bool)
  /-- A number without a fraction or an exponent, other than a negative zero. -/
  | integer (value : Int)
  | real
  /-- A text; nothing, if it holds half of a surrogate pair. -/
  | text (value : Option String)
  | list (items : List Json)
  | object (members : List (Option String × Json))

namespace Json

/-- The characters that are nothing between values. -/
def isBlank (c : Char) : Bool := c == ' ' || c == '\n' || c == '\t' || c == '\r'

def skip (cs : List Char) : List Char := cs.dropWhile isBlank

/-- The characters that a single letter stands for after a backslash. -/
def escaped? : Char → Option Char
  | '"' => some '"'
  | '\\' => some '\\'
  | '/' => some '/'
  | 'b' => some '\x08'
  | 'f' => some '\x0c'
  | 'n' => some '\n'
  | 'r' => some '\r'
  | 't' => some '\t'
  | _ => none

def hex4? (a b c d : Char) : Option Nat := do
  let digit := Yaml.hexValue?
  some ((((← digit a) * 16 + (← digit b)) * 16 + (← digit c)) * 16 + (← digit d))

/-- A text after its opening quote. `high` is the first half of a pair whose second half has to come
next; `sound` says that all pairs were complete so far. -/
def string (high : Option Nat) (sound : Bool) (text : List Char) :
    List Char → Option (Option String × List Char)
  | [] => none
  | '"' :: rest =>
    some (if sound && high.isNone then some (String.ofList text.reverse) else none, rest)
  | '\\' :: 'u' :: a :: b :: c :: d :: rest => do
    let n ← hex4? a b c d
    match high with
    | some h =>
      if 0xDC00 ≤ n && n ≤ 0xDFFF then
        string none sound (Char.ofNat (0x10000 + (h - 0xD800) * 0x400 + (n - 0xDC00)) :: text) rest
      -- Half of a pair on its own: the text is passed over, but nobody can have it.
      else string none false text rest
    | none =>
      if 0xD800 ≤ n && n ≤ 0xDBFF then string (some n) sound text rest
      else if 0xDC00 ≤ n && n ≤ 0xDFFF then string none false text rest
      else string none sound (Char.ofNat n :: text) rest
  | '\\' :: e :: rest => do string none (sound && high.isNone) ((← escaped? e) :: text) rest
  | c :: rest =>
    if c == '\\' || c.toNat < 0x20 then none
    else string none (sound && high.isNone) (c :: text) rest

def number (cs : List Char) : Option (Json × List Char) := do
  let (negative, cs) := match cs with
    | '-' :: rest => (true, rest)
    | _ => (false, cs)
  let whole := cs.takeWhile isDigit
  let cs := cs.dropWhile isDigit
  if whole.isEmpty || (whole.head? == some '0' && whole.length > 1) then none
  let (fraction, cs) ← match cs with
    | '.' :: rest => if rest.head?.any isDigit then some (true, rest.dropWhile isDigit) else none
    | _ => some (false, cs)
  let (exponent, cs) ← match cs with
    | e :: rest =>
      if e == 'e' || e == 'E' then
        let digits := match rest with
          | '+' :: ds | '-' :: ds => ds
          | ds => ds
        if digits.head?.any isDigit then some (true, digits.dropWhile isDigit) else none
      else some (false, cs)
    | [] => some (false, cs)
  let n := decimalValue whole
  -- A negative zero is no integer, for which both zeros are the same.
  if fraction || exponent || (negative && n == 0) then some (real, cs)
  else some (integer (if negative then -(n : Int) else n), cs)

mutual

/-- A value at the head of the text. Each step passes a character, so the length of the text is fuel
enough. -/
def value : Nat → List Char → Option (Json × List Char)
  | 0, _ => none
  | fuel + 1, cs =>
    match skip cs with
    | 'n' :: 'u' :: 'l' :: 'l' :: rest => some (null, rest)
    | 't' :: 'r' :: 'u' :: 'e' :: rest => some (flag true, rest)
    | 'f' :: 'a' :: 'l' :: 's' :: 'e' :: rest => some (flag false, rest)
    | '"' :: rest => do
      let (s, rest) ← string none true [] rest
      some (text s, rest)
    | '[' :: rest =>
      match skip rest with
      | ']' :: rest => some (list [], rest)
      | rest => do
        let (items, rest) ← items fuel rest
        some (list items, rest)
    | '\x7b' :: rest =>
      match skip rest with
      | '\x7d' :: rest => some (object [], rest)
      | rest => do
        let (members, rest) ← members fuel rest
        some (object members, rest)
    | rest => number rest

/-- The items of a list, of which there is at least one, and its closing bracket. -/
def items : Nat → List Char → Option (List Json × List Char)
  | 0, _ => none
  | fuel + 1, cs => do
    let (first, rest) ← value fuel cs
    match skip rest with
    | ',' :: rest =>
      let (others, rest) ← items fuel rest
      some (first :: others, rest)
    | ']' :: rest => some ([first], rest)
    | _ => none

/-- The members of an object, of which there is at least one, and its closing brace. -/
def members : Nat → List Char → Option (List (Option String × Json) × List Char)
  | 0, _ => none
  | fuel + 1, cs =>
    match skip cs with
    | '"' :: rest => do
      let (name, rest) ← string none true [] rest
      match skip rest with
      | ':' :: rest =>
        let (first, rest) ← value fuel rest
        match skip rest with
        | ',' :: rest =>
          let (others, rest) ← members fuel rest
          some ((name, first) :: others, rest)
        | '\x7d' :: rest => some ([(name, first)], rest)
        | _ => none
      | _ => none
    | _ => none

end

def ofText? (s : String) : Option Json := do
  let cs := s.toList
  let (v, rest) ← value (cs.length + 1) cs
  if (skip rest).isEmpty then some v else none

end Json

instance : Source Json where
  text?
    | .text s => s
    | _ => none
  flag?
    | .flag b => some b
    | _ => none
  natural?
    | .integer n => if 0 ≤ n ∧ Word.holds 64 n.toNat then some n.toNat else none
    | _ => none
  integer?
    | .integer n => if Word.holdsSigned 64 n then some n else none
    | _ => none
  optional?
    | .null => some none
    | v => some (some v)
  list?
    | .list items => some items
    | _ => none
  fields? names
    | .object members => members.mapM fun (name, v) => do some (← name, v)
    | .list items => if items.length ≤ names.length then some (names.zip items) else none
    | _ => none

end PoolKeeper
