import PoolKeeper.Text.Decimal
import PoolKeeper.Word

/-!
# `PoolKeeper/Yaml/Schema.lean` — what a plain scalar stands for

A plain scalar is text until somebody asks what it means. `PlainKind.ofText` answers for a reader
that does not know what is wanted, and the same answer tells the writer which texts need quotes.

Numbers are decimal without leading zeros, or hexadecimal, octal or binary after `0x`, `0o`, `0b`;
a sign may stand before them. A text that is too large for a float is no number at all.
-/

set_option autoImplicit false

namespace PoolKeeper.Yaml

open Text

def isNullText (s : String) : Bool := s = "null" || s = "Null" || s = "NULL" || s = "~"

/-- The truth value that the text spells. -/
def flagOfText? (s : String) : Option Bool :=
  if s = "true" || s = "True" || s = "TRUE" then some true
  else if s = "false" || s = "False" || s = "FALSE" then some false
  else none

/-! ## Integers -/

/-- The value of a digit, in bases up to 16. -/
def digitOf? (base : Nat) (c : Char) : Option Nat :=
  let n :=
    if isDigit c then digitValue c
    else if 'a' ≤ c && c ≤ 'f' then c.toNat - 'a'.toNat + 10
    else if 'A' ≤ c && c ≤ 'F' then c.toNat - 'A'.toNat + 10
    else 16
  if n < base then some n else none

/-- The number that digits of the base stand for; there must be one at least. -/
def numberOf? (base : Nat) (cs : List Char) : Option Nat :=
  if cs.isEmpty then none
  else cs.foldl (fun n c => do return (← n) * base + (← digitOf? base c)) (some 0)

/-- Whether the characters, a sign apart, are digits after a leading zero. -/
def isPadded (cs : List Char) : Bool :=
  let cs := match cs with
    | '-' :: rest | '+' :: rest => rest
    | _ => cs
  match cs with
  | '0' :: d :: ds => (d :: ds).all isDigit
  | _ => false

/-- The number without a sign that the characters stand for. -/
def magnitude? (cs : List Char) : Option Nat :=
  match cs with
  | '0' :: 'x' :: rest => numberOf? 16 rest
  | '0' :: 'o' :: rest => numberOf? 8 rest
  | '0' :: 'b' :: rest => numberOf? 2 rest
  | _ => if isPadded cs then none else numberOf? 10 cs

/-- The number that the text stands for, unless it has a minus. -/
def naturalOfText? (s : String) : Option Nat :=
  match s.toList with
  | '+' :: rest => magnitude? rest
  | cs => magnitude? cs

def integerOfText? (s : String) : Option Int :=
  match s.toList with
  | '-' :: rest => (magnitude? rest).map fun n => -(n : Int)
  | _ => (naturalOfText? s).map Int.ofNat

/-! ## Floats -/

/-- The first number that is too large for a float of 64 bits: half a step above the largest. -/
def floatLimit : Nat := Word.size 1024 - Word.size 970

/-- Whether a decimal number, given by its digits, how many of them stand before the point, and its
exponent, is small enough for a float. -/
def fitsFloat (digits : List Char) (whole : Nat) (exponent : Int) : Bool :=
  let significant := digits.dropWhile (· == '0')
  let magnitude : Int := whole - (digits.length - significant.length : Nat) + exponent
  -- The number itself is only formed where its length leaves it open.
  if significant.isEmpty || magnitude < 309 then true
  else if magnitude > 310 then false
  else
    let shift := magnitude - significant.length
    if shift ≥ 0 then decimalValue significant * Nat.pow 10 shift.toNat < floatLimit
    else decimalValue significant < floatLimit * Nat.pow 10 shift.natAbs

/-- Whether the characters are a finite float: digits with at most one point among or beside them,
and possibly an exponent. -/
def isFinite (cs : List Char) : Bool :=
  let cs := match cs with
    | '-' :: rest | '+' :: rest => rest
    | _ => cs
  let whole := cs.takeWhile isDigit
  let rest := cs.dropWhile isDigit
  let (fraction, rest) := match rest with
    | '.' :: rest => (rest.takeWhile isDigit, rest.dropWhile isDigit)
    | _ => ([], rest)
  let digits := whole ++ fraction
  let exponent? : Option Int := match rest with
    | [] => some 0
    | e :: rest =>
      if e != 'e' && e != 'E' then none
      else match rest with
        | '-' :: ds => (numberOf? 10 ds).map fun n => -(n : Int)
        | '+' :: ds => (numberOf? 10 ds).map Int.ofNat
        | ds => (numberOf? 10 ds).map Int.ofNat
  match exponent? with
  | none => false
  | some exponent => !digits.isEmpty && fitsFloat digits whole.length exponent

/-- Whether the text is a float: finite, or one of the spellings of infinity and not-a-number. -/
def isFloatText (s : String) : Bool :=
  [".inf", ".Inf", ".INF", "+.inf", "+.Inf", "+.INF", "-.inf", "-.Inf", "-.INF", ".nan", ".NaN",
      ".NAN"].contains s
    || match s.toList with
      | '+' :: '+' :: _ | '+' :: '-' :: _ => false
      | cs => isFinite cs

/-! ## All together -/

/-- What a plain scalar stands for. -/
inductive PlainKind where
  | null
  | flag (value : Bool)
  | natural (value : Nat)
  | negative (value : Int)
  | float
  | text
deriving DecidableEq, Repr

/-- What the text of a plain scalar stands for. Integers have at most 128 bits; what is longer is a
float. -/
def PlainKind.ofText (s : String) : PlainKind :=
  if s = "" || isNullText s then .null
  else
    match flagOfText? s with
    | some b => .flag b
    | none =>
      match naturalOfText? s with
      | some n => if Word.holds 128 n then .natural n else beyond
      | none =>
        match integerOfText? s with
        | some n => if Word.holdsSigned 128 n then .negative n else beyond
        | none => beyond
where
  beyond : PlainKind := if !isPadded s.toList && isFloatText s then .float else .text

end PoolKeeper.Yaml
