import PoolKeeper.Text.Blank
import PoolKeeper.Text.Decimal
import PoolKeeper.Time.Instant

/-!
# `PoolKeeper/Time/Stamp.lean` — instants as text

The written forms of an instant, one function each, and the reader.

Written years have four digits; years outside 0..9999 carry a sign. The exact form has as many
fraction digits as the instant needs, in threes.

The reader takes relaxed RFC 3339: `T`, `t` or one blank between date and time, blanks between the
parts, short fields, a signed year of any length, `Z`, `UTC` or an offset with or without its
colon. What it returns is in UTC.
-/

set_option autoImplicit false

namespace PoolKeeper

open Text

/-! ## Writing -/

namespace Date

/-- The year with four digits, and with a sign when it is not one of 0..9999. -/
def yearChars (year : Int) : List Char :=
  if 0 ≤ year && year ≤ 9999 then padded 4 year.toNat
  else (if year < 0 then '-' else '+') :: padded 4 year.natAbs

/-- `2026-03-01` -/
def chars (d : Date) : List Char :=
  yearChars d.year ++ '-' :: padded 2 d.month ++ '-' :: padded 2 d.day

end Date

namespace Instant

/-- `02:00:59` -/
def clockChars (t : Instant) : List Char :=
  padded 2 t.hour ++ ':' :: padded 2 t.minute ++ ':' :: padded 2 t.second

/-- The date alone: `2026-03-01`. -/
def dayText (t : Instant) : String := String.ofList t.date.chars

/-- To the minute: `2026-03-01T02:00Z`. -/
def minuteText (t : Instant) : String :=
  String.ofList (t.date.chars ++ 'T' :: padded 2 t.hour ++ ':' :: padded 2 t.minute ++ ['Z'])

/-- To the second: `2026-03-01T02:00:00Z`. -/
def secondText (t : Instant) : String :=
  String.ofList (t.date.chars ++ 'T' :: t.clockChars ++ ['Z'])

/-- To the second, for people: `2026-03-01 02:00:00`. -/
def plainText (t : Instant) : String := String.ofList (t.date.chars ++ ' ' :: t.clockChars)

/-- To the second, without separators inside date and time: `20260301-020000`. -/
def compactText (t : Instant) : String :=
  let d := t.date
  String.ofList (Date.yearChars d.year ++ padded 2 d.month ++ padded 2 d.day ++ '-' ::
    padded 2 t.hour ++ padded 2 t.minute ++ padded 2 t.second)

/-- The fraction of the second with 0, 3, 6 or 9 digits, whichever is the first that is exact. -/
def fractionChars (n : Nat) : List Char :=
  if n == 0 then []
  else if n % 1000000 == 0 then '.' :: padded 3 (n / 1000000)
  else if n % 1000 == 0 then '.' :: padded 6 (n / 1000)
  else '.' :: padded 9 n

/-- Exactly: `2026-03-01T02:00:00.250Z`. -/
def exactText (t : Instant) : String :=
  String.ofList (t.date.chars ++ 'T' :: t.clockChars ++ fractionChars t.fraction ++ ['Z'])

/-! ## Reading -/

/-- One to `most` digits at the head of the text, as a number, and what follows them. -/
def readDigits? (most : Nat) (cs : List Char) : Option (Nat × List Char) :=
  let ds := (cs.take most).takeWhile isDigit
  if ds.isEmpty then none else some (decimalValue ds, cs.drop ds.length)

/-- A field of one or two digits after blanks. -/
def readField? (cs : List Char) : Option (Nat × List Char) := readDigits? 2 (dropBlanks cs)

/-- A year after blanks: up to four digits, or a sign and any number of digits. -/
def readYear? (cs : List Char) : Option (Int × List Char) :=
  match dropBlanks cs with
  | '-' :: rest => (readDigits? rest.length rest).map fun (n, r) => (-(n : Int), r)
  | '+' :: rest => (readDigits? rest.length rest).map fun (n, r) => ((n : Int), r)
  | rest => (readDigits? 4 rest).map fun (n, r) => ((n : Int), r)

/-- The mark `c` after blanks. -/
def readMark? (c : Char) (cs : List Char) : Option (List Char) :=
  match dropBlanks cs with
  | d :: rest => if d = c then some rest else none
  | [] => none

/-- A fraction, if there is a point: the first nine digits as nanoseconds, the rest passed over. -/
def readFraction? (cs : List Char) : Option (Nat × List Char) :=
  match cs with
  | '.' :: rest => do
    let (n, _) ← readDigits? 9 rest
    let digits := rest.takeWhile isDigit
    some (n * Nat.pow 10 (9 - min 9 digits.length), rest.drop digits.length)
  | _ => some (0, cs)

def readPair? : List Char → Option (Nat × List Char)
  | a :: b :: rest => if isDigit a && isDigit b then some (decimalValue [a, b], rest) else none
  | _ => none

/-- An offset from UTC in seconds: `Z`, `UTC`, or a sign, two digits of hours, and two of minutes
that colons and blanks may set apart. -/
def readOffset? (cs : List Char) : Option (Int × List Char) :=
  match cs with
  | 'Z' :: rest | 'z' :: rest => some (0, rest)
  | _ =>
    if (cs.take 3).map Char.toLower == ['u', 't', 'c'] then some (0, cs.drop 3)
    else
      match cs with
      | [] => none
      | sign :: rest => do
        let negative ← if sign = '+' then some false
          else if sign = '-' || sign = '\u2212' then some true else none
        let (hours, rest) ← readPair? rest
        let (minutes, rest) ← readPair? (rest.dropWhile fun c => c = ':' || isBlank c)
        if minutes > 59 then none
        let offset : Int := hours * 3600 + minutes * 60
        some (if negative then -offset else offset, rest)

def ofChars? (cs : List Char) : Option Instant := do
  let (year, cs) ← readYear? cs
  let cs ← readMark? '-' cs
  let (month, cs) ← readField? cs
  let cs ← readMark? '-' cs
  let (day, cs) ← readField? cs
  let cs ← match cs with
    | 't' :: rest | 'T' :: rest | ' ' :: rest => some rest
    | _ => none
  let (hour, cs) ← readField? cs
  let cs ← readMark? ':' cs
  let (minute, cs) ← readField? cs
  let cs ← readMark? ':' cs
  let (second, cs) ← readField? cs
  let (nanos, cs) ← readFraction? cs
  let (offset, cs) ← readOffset? (dropBlanks cs)
  if !(dropBlanks cs).isEmpty then none
  let date : Date := ⟨year, month, day⟩
  if !(date.isValid && isDayInRange date.toDays) then none
  if hour > 23 || minute > 59 || second > 60 || offset.natAbs ≥ 86400 then none
  -- A leap second is kept on top of the second before it, whichever minute it was written in.
  let wall := ofDate date (hour * 3600 + minute * 60 + min second 59)
    (nanos + (if second == 60 then nanosPerSecond else 0))
  let utc : Instant := ⟨wall.seconds - offset, wall.nanos⟩
  if isDayInRange utc.days then some utc else none

def ofText? (text : String) : Option Instant := ofChars? text.toList

end Instant

end PoolKeeper
