/-!
# `PoolKeeper/Text/Decimal.lean` — decimal numbers as characters

Reading and writing of plain decimal digits, the part that calendar text, durations and counts
share.
-/

set_option autoImplicit false

namespace PoolKeeper.Text

def isDigit (c : Char) : Bool := '0' ≤ c && c ≤ '9'

def digitValue (c : Char) : Nat := c.toNat - '0'.toNat

def decimalValue (ds : List Char) : Nat := ds.foldl (fun n c => n * 10 + digitValue c) 0

def decimal (n : Nat) : List Char := Nat.toDigits 10 n

/-- `n` in decimal, with zeros in front up to `width` digits. -/
def padded (width n : Nat) : List Char :=
  let ds := decimal n
  List.replicate (width - ds.length) '0' ++ ds

/-- `n` in decimal, with blanks in front up to `width` characters. -/
def rightAligned (width : Nat) (n : Int) : List Char :=
  let ds := (if n < 0 then ['-'] else []) ++ decimal n.natAbs
  List.replicate (width - ds.length) ' ' ++ ds

end PoolKeeper.Text
