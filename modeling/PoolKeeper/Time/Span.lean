import PoolKeeper.Text.Blank
import PoolKeeper.Text.Decimal
import PoolKeeper.Text.Quoted
import PoolKeeper.Word

/-!
# `PoolKeeper/Time/Span.lean` — lengths of time, and how they are written

A `Span` is a whole number of nanoseconds, at most `2^64 - 1` seconds and a fraction. Operators
write it as a sum of numbers with units: `1h 30m`, `2 days`, `1.5s`. A fraction has to come out
whole in the smallest step of its unit: nanoseconds for units up to minutes, seconds for longer
ones.

Positions in the defects are byte offsets into the text.
-/

set_option autoImplicit false

namespace PoolKeeper

open Text

structure Span where
  nanos : Nat
deriving DecidableEq, Repr

namespace Span

def seconds (s : Span) : Nat := s.nanos / 1000000000

def subNanos (s : Span) : Nat := s.nanos % 1000000000

inductive Unit where
  | nanosecond | microsecond | millisecond | second | minute | hour | day | week | month | year
deriving DecidableEq, Repr

namespace Unit

/-- The spellings of a unit; case matters, `m` is a minute and `M` a month. -/
def spellings : Unit → List String
  | nanosecond => ["nanos", "nsec", "ns"]
  | microsecond => ["usec", "us", "µs"]
  | millisecond => ["millis", "msec", "ms"]
  | second => ["seconds", "second", "secs", "sec", "s"]
  | minute => ["minutes", "minute", "min", "mins", "m"]
  | hour => ["hours", "hour", "hr", "hrs", "h"]
  | day => ["days", "day", "d"]
  | week => ["weeks", "week", "wk", "wks", "w"]
  | month => ["months", "month", "M"]
  | year => ["years", "year", "yr", "yrs", "y"]

def all : List Unit :=
  [nanosecond, microsecond, millisecond, second, minute, hour, day, week, month, year]

def ofSpelling? (text : String) : Option Unit := all.find? fun u => u.spellings.contains text

/-- Nanoseconds in one; a month is a twelfth of a year, and a year is 365.25 days. -/
def nanos : Unit → Nat
  | nanosecond => 1
  | microsecond => 1000
  | millisecond => 1000000
  | second => 1000000000
  | minute => 60 * 1000000000
  | hour => 3600 * 1000000000
  | day => 86400 * 1000000000
  | week => 604800 * 1000000000
  | month => 2630016 * 1000000000
  | year => 31557600 * 1000000000

/-- The smallest step that a fraction of the unit may come out in. -/
def step : Unit → Nat
  | hour | day | week | month | year => 1000000000
  | _ => 1

/-- Whether the unit is counted in seconds (and not in nanoseconds) while the sum is formed. -/
def isWholeSeconds : Unit → Bool
  | nanosecond | microsecond | millisecond => false
  | _ => true

end Unit

inductive Defect where
  /-- Nothing but blanks. -/
  | empty
  /-- A number has to start at this offset. -/
  | numberExpected (offset : Nat)
  /-- The character at this offset fits nowhere in a length of time. -/
  | invalidCharacter (offset : Nat)
  /-- The number has no unit after it. -/
  | unitMissing (number : Nat)
  /-- No unit is spelled like this. -/
  | unitUnknown (spelling : String)
  /-- The length does not fit, or its fraction does not come out whole. -/
  | notRepresentable
deriving DecidableEq, Repr

def Defect.message : Defect → String
  | empty => "value was empty"
  | numberExpected offset => "expected number at " ++ String.ofList (decimal offset)
  | invalidCharacter offset => "invalid character at " ++ String.ofList (decimal offset)
  | unitMissing number =>
    let n := String.ofList (decimal number)
    "time unit needed, for example " ++ n ++ "sec or " ++ n ++ "ms"
  | unitUnknown spelling =>
    "unknown time unit " ++ quoted spelling ++ ", supported units: ns, us/µs, ms, sec, min, "
      ++ "hours, days, weeks, months, years (and few variations)"
  | notRepresentable =>
    "number is too large or cannot be represented without a lack of precision "
      ++ "(values below 1ns are not supported)"

/-! ## Reading -/

/-- Numbers are kept below this bound while they are read. -/
def wordBound : Nat := Word.size 64

def fitWord (n : Nat) : Except Defect Nat :=
  if n < wordBound then .ok n else .error .notRepresentable

/-- The text with the byte offset of each character. -/
def positions (offset : Nat) : List Char → List (Nat × Char)
  | [] => []
  | c :: cs => (offset, c) :: positions (offset + c.utf8Size) cs

def isUnitChar (c : Char) : Bool := ('a' ≤ c && c ≤ 'z') || ('A' ≤ c && c ≤ 'Z') || c == 'µ'

/-- The fraction of a number: its digits as a number, and ten to their count. -/
structure Fraction where
  numerator : Nat
  denominator : Nat

/-- What the reader has still to read, and the offset of the end of the text. -/
structure Cursor where
  rest : List (Nat × Char)
  stop : Nat

def Cursor.offset (c : Cursor) : Nat :=
  match c.rest with
  | [] => c.stop
  | (o, _) :: _ => o

/-- The first digit of the next number, blanks before it passed over; none at the end. -/
def firstDigit (stop : Nat) : List (Nat × Char) → Except Defect (Option (Nat × Cursor))
  | [] => .ok none
  | (o, c) :: rest =>
    if isDigit c then .ok (some (digitValue c, ⟨rest, stop⟩))
    else if isBlank c then firstDigit stop rest
    else .error (.numberExpected o)

/-- The digits after the point, up to the unit or the end. The offset is that of the last place
looked at, which is what a defect reports. -/
def fractionDigits (stop : Nat) (here : Nat) (f : Fraction) (leading : Bool) :
    List (Nat × Char) → Except Defect (Fraction × Cursor)
  | [] => finish f here []
  | (o, c) :: rest =>
    if c == '0' && leading then do
      let d ← fitWord (f.denominator * 10)
      fractionDigits stop (next rest) ⟨f.numerator, d⟩ true rest
    else if isDigit c then do
      let d ← fitWord (f.denominator * 10)
      let n ← fitWord (f.numerator * 10)
      let n ← fitWord (n + digitValue c)
      fractionDigits stop (next rest) ⟨n, d⟩ false rest
    else if isBlank c then fractionDigits stop (next rest) f leading rest
    else if isUnitChar c then finish f here ((o, c) :: rest)
    else .error (.invalidCharacter here)
where
  next (rest : List (Nat × Char)) : Nat := (Cursor.mk rest stop).offset
  /-- A point without a digit after it is no fraction. -/
  finish (f : Fraction) (here : Nat) (rest : List (Nat × Char)) :
      Except Defect (Fraction × Cursor) :=
    if f.denominator == 1 then .error (.invalidCharacter here) else .ok (f, ⟨rest, stop⟩)

/-- The rest of a number whose first digits are worth `n`: more digits, with blanks between them,
and a fraction. Stops before the unit. -/
def numberDigits (stop : Nat) (n : Nat) :
    List (Nat × Char) → Except Defect (Nat × Option Fraction × Cursor)
  | [] => .ok (n, none, ⟨[], stop⟩)
  | (o, c) :: rest =>
    if isDigit c then do
      let n ← fitWord (n * 10)
      let n ← fitWord (n + digitValue c)
      numberDigits stop n rest
    else if isBlank c then numberDigits stop n rest
    else if isUnitChar c then .ok (n, none, ⟨(o, c) :: rest, stop⟩)
    else if c == '.' then do
      let (f, cursor) ← fractionDigits stop o ⟨0, 1⟩ true rest
      .ok (n, some f, cursor)
    else .error (.invalidCharacter o)

/-- The letters of a unit, and what follows them: a digit that starts the next number, a blank that
is passed over, or the end. -/
def unitLetters : List (Nat × Char) → Except Defect (List Char × List (Nat × Char))
  | [] => .ok ([], [])
  | (o, c) :: rest =>
    if isUnitChar c then do
      let (letters, rest) ← unitLetters rest
      .ok (c :: letters, rest)
    else if isDigit c then .ok ([], (o, c) :: rest)
    else if isBlank c then .ok ([], rest)
    else .error (.invalidCharacter o)

/-- `total` and further `amount` nanoseconds. The nanoseconds of the sum are formed before the
carry, so a very long length given in a short unit may not fit although its sum would. -/
def add (total : Span) (wholeSeconds : Bool) (amount : Nat) : Except Defect Span := do
  let seconds := if wholeSeconds then amount / 1000000000 else 0
  let nanos := if wholeSeconds then 0 else amount
  let seconds ← fitWord seconds
  let nanos ← fitWord nanos
  let nanos ← fitWord (total.subNanos + nanos)
  let sum := total.seconds * 1000000000 + seconds * 1000000000 + nanos
  let _ ← fitWord (sum / 1000000000)
  .ok ⟨sum⟩

/-- `total` and further `n` units with a fraction. -/
def addUnits (total : Span) (n : Nat) (fraction : Option Fraction) (u : Unit) :
    Except Defect Span := do
  let total ← add total u.isWholeSeconds (n * u.nanos)
  match fraction with
  | none => .ok total
  | some f =>
    -- There is no smaller step that a part of a nanosecond could come out in.
    if u = .nanosecond then throw .notRepresentable
    let scaled ← fitWord (f.numerator * (u.nanos / u.step))
    if scaled % f.denominator ≠ 0 then throw .notRepresentable
    add total (u.step ≠ 1) (scaled / f.denominator * u.step)

/-- The sum of the numbers with units from `n` on. Each round takes at least the unit's place, so
as much fuel as there are characters is enough. -/
def sum (stop : Nat) : Nat → Span → Nat → Cursor → Except Defect Span
  | 0, total, _, _ => .ok total
  | fuel + 1, total, n, cursor => do
    let (n, fraction, cursor) ← numberDigits stop n cursor.rest
    let (letters, rest) ← unitLetters cursor.rest
    let total ← match Unit.ofSpelling? (String.ofList letters) with
      | some u => addUnits total n fraction u
      | none =>
        if letters.isEmpty then throw (.unitMissing n)
        else throw (.unitUnknown (String.ofList letters))
    match ← firstDigit stop rest with
    | none => .ok total
    | some (n, cursor) => sum stop fuel total n cursor

def ofText (text : String) : Except Defect Span :=
  if text = "0" then .ok ⟨0⟩
  else do
    let stop := text.utf8ByteSize
    match ← firstDigit stop (positions 0 text.toList) with
    | none => throw .empty
    | some (n, cursor) => sum stop (text.length + 1) ⟨0⟩ n cursor

end Span

end PoolKeeper
