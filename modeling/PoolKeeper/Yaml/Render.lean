import PoolKeeper.Form
import PoolKeeper.Yaml.Char
import PoolKeeper.Yaml.Schema
import PoolKeeper.Yaml.Scalar
import PoolKeeper.Text.Decimal

/-!
# `PoolKeeper/Yaml/Render.lean` — data as the text of a document

`Form.yaml` writes one entry a line, each level two columns further in than the one around it; the
items of a list stand at the column of its name.

A text is written plain if that can be read back as the same text, and otherwise with as little
around it as possible: single quotes, a literal block for several lines, and double quotes where
neither can hold what the text has in it. What stands where in a text decides (`Traits`): blanks at
the ends, blanks beside breaks, characters without a visible form, and the marks of the notation.
-/

set_option autoImplicit false

namespace PoolKeeper.Yaml

open Text

/-! ## Which form a text is written in -/

/-- Whether the character can stand in a document as it is. -/
def isPrintable (c : Char) : Bool :=
  let n := c.toNat
  n == 0x0A || (0x20 ≤ n && n ≤ 0x7E) || (0xA0 ≤ n && n ≤ 0xD7FF)
    || (0xE000 ≤ n && n ≤ 0xFFFD && n != 0xFEFF) || 0x10000 ≤ n

/-- Whether a plain text that starts with `c` before `rest` would be read as something else. -/
def opensBadly (c : Char) (rest : List Char) : Bool :=
  ['#', ',', '[', ']', '{', '}', '&', '*', '!', '|', '>', '\'', '"', '%', '@', '\x60'].contains c
    || ((c == '?' || c == ':' || c == '-') && atGap rest)
    || (c == '-' && rest.take 2 == ['-', '-']) || (c == '.' && rest.take 2 == ['.', '.'])

/-- Whether a plain text would be read as something else from some place after its start on: a colon
before a gap, or a hash after one. -/
def turnsBadly (afterGap : Bool) : List Char → Bool
  | [] => false
  | c :: rest =>
    (c == ':' && atGap rest) || (c == '#' && afterGap)
      || turnsBadly (isGap c || isBreak c) rest

/-- Whether `first` is ever followed at once by `second`. -/
def hasPair (first second : Char → Bool) : List Char → Bool
  | a :: b :: rest => (first a && second b) || hasPair first second (b :: rest)
  | _ => false

/-- What in a text decides how it can be written. -/
structure Traits where
  /-- A mark of the notation where it would be taken for one. -/
  marks : Bool
  /-- A character without a visible form. -/
  special : Bool
  breaks : Bool
  /-- A blank or a break at the start or at the end. -/
  looseEnds : Bool
  blankAtEnd : Bool
  breakBeforeBlank : Bool
  blankBeforeBreak : Bool

/-- The space alone; a tab is a character without a visible form. -/
def isSpace (c : Char) : Bool := c == ' '

def Traits.of (cs : List Char) : Traits :=
  let loose (c : Char) := isSpace c || isBreak c
  { marks := match cs with
      | [] => false
      | c :: rest => opensBadly c rest || turnsBadly (isGap c || isBreak c) rest
    special := cs.any (!isPrintable ·)
    breaks := cs.any isBreak
    looseEnds := cs.head?.any loose || cs.getLast?.any loose
    blankAtEnd := cs.getLast?.any isSpace
    breakBeforeBlank := hasPair isBreak isSpace cs
    blankBeforeBreak := hasPair isSpace isBreak cs }

def Traits.plain (t : Traits) : Bool := !(t.looseEnds || t.breaks || t.special || t.marks)

def Traits.single (t : Traits) : Bool := !(t.breakBeforeBlank || t.blankBeforeBreak || t.special)

def Traits.literal (t : Traits) : Bool := !(t.blankAtEnd || t.blankBeforeBreak || t.special)

/-- The form a text is written in. A text of several lines is a block; one that would be read as
something other than a text has quotes. -/
def styleOf (s : String) : Style :=
  let cs := s.toList
  let traits := Traits.of cs
  if cs.contains '\n' then (if traits.literal then .literal else .doubleQuoted)
  -- Digits after a zero would be read back as text, and are quoted all the same.
  else if PlainKind.ofText s = .text && !isPadded cs && traits.plain then .plain
  else if traits.single then .singleQuoted
  else .doubleQuoted

/-! ## The written forms -/

def blanks (n : Nat) : List Char := List.replicate n ' '

/-- A text whose breaks are written as they are: the first character after a break stands at the
column `indent`. `fresh` tells that a line has just begun. -/
def indented (indent : Nat) (write : Char → List Char) : (fresh : Bool) → List Char → List Char
  | _, [] => []
  | fresh, c :: rest =>
    if isBreak c then c :: indented indent write true rest
    else (if fresh then blanks indent else []) ++ write c ++ indented indent write false rest

def singleQuoted (indent : Nat) (cs : List Char) : List Char :=
  let quote (c : Char) := if c == '\'' then ['\'', '\''] else [c]
  let last := if cs.getLast?.any isBreak then blanks indent else []
  '\'' :: indented indent quote false cs ++ last ++ ['\'']

/-- `n` in capital hexadecimal digits, `width` of them. -/
def hexDigits (width n : Nat) : List Char :=
  (List.range width).map fun k => (Nat.digitChar (n / Nat.pow 16 (width - 1 - k) % 16)).toUpper

def escapeChar (c : Char) : List Char :=
  match c with
  | '\x00' => ['0']
  | '\x07' => ['a']
  | '\x08' => ['b']
  | '\t' => ['t']
  | '\n' => ['n']
  | '\x0b' => ['v']
  | '\x0c' => ['f']
  | '\r' => ['r']
  | '\x1b' => ['e']
  | '"' => ['"']
  | '\\' => ['\\']
  | '\u0085' => ['N']
  | '\u00a0' => ['_']
  | '\u2028' => ['L']
  | '\u2029' => ['P']
  | c =>
    if c.toNat ≤ 0xFF then 'x' :: hexDigits 2 c.toNat
    else if c.toNat ≤ 0xFFFF then 'u' :: hexDigits 4 c.toNat
    else 'U' :: hexDigits 8 c.toNat

def doubleQuoted (cs : List Char) : List Char :=
  let escaped (c : Char) :=
    if !isPrintable c || isBreak c || c == '"' || c == '\\' then '\\' :: escapeChar c else [c]
  '"' :: cs.flatMap escaped ++ ['"']

/-- The header of a literal block: whether its text starts with a blank, and what becomes of the
breaks at its end. -/
def literalHeader (cs : List Char) : List Char :=
  -- Blanks that the text starts with would be taken for its indentation, so that is given.
  let start := if cs.head?.any fun c => isSpace c || isBreak c then ['2'] else []
  let finish := match cs.reverse with
    | [] => ['-']
    | c :: rest =>
      if !isBreak c then ['-']
      else match rest with
        | [] => ['+']
        | c :: _ => if isBreak c then ['+'] else []
  '|' :: start ++ finish

/-- The text as it stands after its name, in a mapping at the column `indent`. A break that the text
ends with ends the line too. -/
def textLine (indent : Nat) (s : String) : List Char :=
  let cs := s.toList
  match styleOf s with
  | .plain => cs ++ ['\n']
  | .singleQuoted => singleQuoted (indent + 2) cs ++ ['\n']
  | .literal =>
    let block := literalHeader cs ++ '\n' :: indented (indent + 2) (fun c => [c]) true cs
    if cs.getLast?.any isBreak then block else block ++ ['\n']
  | _ => doubleQuoted cs ++ ['\n']

def numberChars (n : Int) : List Char := (if n < 0 then ['-'] else []) ++ decimal n.natAbs

mutual

/-- What stands after a name in a mapping at the column `indent`. -/
def afterName (indent : Nat) : Form → List Char
  | .flag b => ' ' :: (if b then ['t', 'r', 'u', 'e'] else ['f', 'a', 'l', 's', 'e']) ++ ['\n']
  | .number n => ' ' :: numberChars n ++ ['\n']
  | .text s => ' ' :: textLine indent s
  | .list [] => [' ', '[', ']', '\n']
  | .list (i :: is) => '\n' :: listItems indent (i :: is)
  | .fields [] => [' ', '\x7b', '\x7d', '\n']
  | .fields (e :: es) => '\n' :: entryLines (indent + 2) (e :: es)

/-- The entries of a mapping at the column `indent`. -/
def entryLines (indent : Nat) : List (String × Form) → List Char
  | [] => []
  | (name, f) :: es => blanks indent ++ name.toList ++ ':' :: afterName indent f ++ entryLines indent es

/-- The items of a list at the column `indent`; an item that is a mapping or a list starts on the
line of its dash. -/
def listItems (indent : Nat) : List Form → List Char
  | [] => []
  | .fields (e :: es) :: is =>
    blanks indent ++ '-' :: ' ' :: (entryLines (indent + 2) (e :: es)).drop (indent + 2)
      ++ listItems indent is
  | .list (i :: is) :: is' =>
    blanks indent ++ '-' :: ' ' :: (listItems (indent + 2) (i :: is)).drop (indent + 2)
      ++ listItems indent is'
  | i :: is => blanks indent ++ '-' :: afterName indent i ++ listItems indent is

end

end PoolKeeper.Yaml

namespace PoolKeeper

/-- The data as a document, which is a mapping. -/
def Form.yaml : Form → String
  | .fields (e :: es) => String.ofList (Yaml.entryLines 0 (e :: es))
  | f => String.ofList ((Yaml.afterName 0 f).drop 1)

end PoolKeeper
