/-!
# `PoolKeeper/Text/Lossy.lean` — text from bytes that need not be text

Two ways to read bytes as UTF-8. `decode?` refuses bytes that are not well formed. `decodeLossy`
never refuses: each maximal ill-formed part becomes one U+FFFD, where a part is the longest run of
bytes that starts a well-formed character and is cut short, or one byte that starts none.
-/

set_option autoImplicit false

namespace PoolKeeper.Text

def decode? (bytes : ByteArray) : Option String := String.fromUTF8? bytes

/-- What a leading byte promises: how many bytes follow it, and the range the first of those must
lie in (the range excludes overlong forms, surrogates and what lies above the last plane). -/
def following (b : UInt8) : Option (Nat × UInt8 × UInt8) :=
  if 0xC2 ≤ b && b ≤ 0xDF then some (1, 0x80, 0xBF)
  else if b == 0xE0 then some (2, 0xA0, 0xBF)
  else if 0xE1 ≤ b && b ≤ 0xEC then some (2, 0x80, 0xBF)
  else if b == 0xED then some (2, 0x80, 0x9F)
  else if b == 0xEE || b == 0xEF then some (2, 0x80, 0xBF)
  else if b == 0xF0 then some (3, 0x90, 0xBF)
  else if 0xF1 ≤ b && b ≤ 0xF3 then some (3, 0x80, 0xBF)
  else if b == 0xF4 then some (3, 0x80, 0x8F)
  else none

/-- The continuation bytes at the head of `rest`, at most `need` of them, the first within
`lo..hi`: how many there are and the value of their payload bits put after `acc`. -/
def continuation : Nat → UInt8 → UInt8 → Nat → List UInt8 → Nat × Nat
  | 0, _, _, acc, _ => (0, acc)
  | _ + 1, _, _, acc, [] => (0, acc)
  | need + 1, lo, hi, acc, b :: rest =>
    if lo ≤ b && b ≤ hi then
      let (k, v) := continuation need 0x80 0xBF (acc * 64 + (b.toNat - 0x80)) rest
      (k + 1, v)
    else (0, acc)

/-- Characters of `bytes`, with `fuel` at least its length. -/
def lossyChars : Nat → List UInt8 → List Char
  | 0, _ => []
  | _ + 1, [] => []
  | fuel + 1, b :: rest =>
    if b < 0x80 then Char.ofNat b.toNat :: lossyChars fuel rest
    else
      match following b with
      | none => '\uFFFD' :: lossyChars fuel rest
      | some (need, lo, hi) =>
        -- The payload bits of the leading byte: five, four or three.
        let lead := if need == 1 then b.toNat % 32 else if need == 2 then b.toNat % 16
          else b.toNat % 8
        let (k, v) := continuation need lo hi lead rest
        if k == need then Char.ofNat v :: lossyChars fuel (rest.drop k)
        -- What was begun and cut short is one replacement, not one for each byte.
        else '\uFFFD' :: lossyChars fuel (rest.drop k)

def decodeLossy (bytes : ByteArray) : String :=
  match decode? bytes with
  | some s => s
  | none =>
    let bs := bytes.toList
    String.ofList (lossyChars bs.length bs)

end PoolKeeper.Text
