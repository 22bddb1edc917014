/-!
# `PoolKeeper/Yaml/Char.lean` — the character classes of YAML

Which characters a stream may hold at all, and the few classes that the reader and the writer of
documents decide by. A line break is one of five characters; a carriage return and the line feed
after it are one break together. Blanks inside a line are the space and the tab, and nothing else.
-/

set_option autoImplicit false

namespace PoolKeeper.Yaml

def isAllowed (c : Char) : Bool :=
  let n := c.toNat
  n == 0x09 || n == 0x0A || n == 0x0D || (0x20 ≤ n && n ≤ 0x7E) || n == 0x85
    || (0xA0 ≤ n && n ≤ 0xD7FF) || (0xE000 ≤ n && n ≤ 0xFFFD) || 0x10000 ≤ n

def isBreak (c : Char) : Bool :=
  c == '\r' || c == '\n' || c == '\u0085' || c == '\u2028' || c == '\u2029'

def isGap (c : Char) : Bool := c == ' ' || c == '\t'

/-- Letters, digits, the underscore and the dash. -/
def isWord (c : Char) : Bool :=
  ('0' ≤ c && c ≤ '9') || ('A' ≤ c && c ≤ 'Z') || ('a' ≤ c && c ≤ 'z') || c == '_' || c == '-'

/-- Whether the text is at an end: of itself, of a line, or of a word. -/
def atGap : List Char → Bool
  | [] => true
  | c :: _ => isGap c || isBreak c

/-- Whether the text is at an end of itself or of a line. -/
def atBreak : List Char → Bool
  | [] => true
  | c :: _ => isBreak c

/-- What a line break is read as; the two separators of Unicode stay what they are. -/
def readBreak (c : Char) : Char := if c == '\u2028' || c == '\u2029' then c else '\n'

def hexValue? (c : Char) : Option Nat :=
  if '0' ≤ c && c ≤ '9' then some (c.toNat - '0'.toNat)
  else if 'a' ≤ c && c ≤ 'f' then some (c.toNat - 'a'.toNat + 10)
  else if 'A' ≤ c && c ≤ 'F' then some (c.toNat - 'A'.toNat + 10)
  else none

/-- Whether the text starts with the marker `---` or `...` on its own. -/
def atMarker (cs : List Char) : Bool :=
  match cs with
  | a :: b :: c :: rest =>
    ((a == '-' && b == '-' && c == '-') || (a == '.' && b == '.' && c == '.')) && atGap rest
  | _ => false

end PoolKeeper.Yaml
