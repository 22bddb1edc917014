import PoolKeeper.Text.Invisible

/-!
# `PoolKeeper/Text/Quoted.lean` — a value quoted in a message

Messages that repeat a value somebody wrote put it between double quotes, so that blanks at its
ends and characters without a visible form can be seen: `"1 hour"`, `"\u{200b}"`.
-/

set_option autoImplicit false

namespace PoolKeeper.Text

/-- `n` in lower-case hexadecimal, without leading zeros. -/
def hex (n : Nat) : List Char := Nat.toDigits 16 n

def quoteChar (c : Char) : List Char :=
  if c = '\x00' then ['\\', '0']
  else if c = '\t' then ['\\', 't']
  else if c = '\r' then ['\\', 'r']
  else if c = '\n' then ['\\', 'n']
  else if c = '\\' || c = '"' then ['\\', c]
  else if isInvisible c then ['\\', 'u', '\x7b'] ++ hex c.toNat ++ ['\x7d']
  else [c]

/-- `s` between double quotes, with everything that would be unreadable escaped. -/
def quoted (s : String) : String :=
  String.ofList ('"' :: s.toList.flatMap quoteChar ++ ['"'])

end PoolKeeper.Text
