import PoolKeeper.Yaml.Char

/-!
# `PoolKeeper/Yaml/Scalar.lean` — the text of a scalar, in its five written forms

A scalar is a piece of text, and the form it is written in says how much of the source is part of
it. Each form has a scanner here that takes the rest of the source and gives the text, the place
after it, and whatever the surroundings need to know.

In all forms but the literal one, lines are folded: one break becomes a space, and of several the
first is dropped. Blanks around a fold are no part of the text.
-/

set_option autoImplicit false

namespace PoolKeeper.Yaml

inductive Style where
  | plain | singleQuoted | doubleQuoted | literal | folded
deriving DecidableEq, Repr

/-- A place in the source: characters passed, and the line and column reached. -/
structure Place where
  index : Nat := 0
  line : Nat := 0
  column : Nat := 0
deriving DecidableEq, Repr

def Place.skip (p : Place) (n : Nat) : Place := { p with index := p.index + n, column := p.column + n }

def Place.newline (p : Place) (n : Nat) : Place := ⟨p.index + n, p.line + 1, 0⟩

/-- The rest of the source, and the place it starts at. -/
structure Cursor where
  rest : List Char
  place : Place

def Cursor.skip (c : Cursor) (n : Nat) : Cursor := ⟨c.rest.drop n, c.place.skip n⟩

/-- The characters up to the first that fails `p`, and the cursor after them. -/
def Cursor.takeWhile (c : Cursor) (p : Char → Bool) : List Char × Cursor :=
  let cs := c.rest.takeWhile p
  (cs, c.skip cs.length)

/-- The cursor after the line break it stands at, if it stands at one. -/
def Cursor.skipBreak (c : Cursor) : Cursor :=
  match c.rest with
  | '\r' :: '\n' :: rest => ⟨rest, c.place.newline 2⟩
  | b :: rest => if isBreak b then ⟨rest, c.place.newline 1⟩ else c
  | [] => c

inductive Between where
  | nothing
  /-- Blanks of one line, the last one first. -/
  | blanks (reversed : List Char)
  /-- At least one break: the first (none, if it was escaped) and the others, the last one first. -/
  | breaks (first : Option Char) (others : List Char)

/-- What the text between two pieces is read as, put before (in reverse) `text`. -/
def Between.onto (b : Between) (text : List Char) : List Char :=
  match b with
  | nothing => text
  | blanks cs => cs ++ text
  | breaks (some '\n') [] => ' ' :: text
  | breaks (some '\n') others => others ++ text
  | breaks (some first) others => others ++ first :: text
  | breaks none others => others ++ text

/-- The text between after one more blank; a blank next to a break does not count. -/
def Between.addBlank (b : Between) (c : Char) : Between :=
  match b with
  | nothing => blanks [c]
  | blanks cs => blanks (c :: cs)
  | breaks first others => breaks first others

/-- The text between after one more break; the blanks before a break do not count. -/
def Between.addBreak (b : Between) (c : Char) : Between :=
  match b with
  | nothing | blanks _ => breaks (some (readBreak c)) []
  | breaks first others => breaks first (readBreak c :: others)

def Between.hasBreak : Between → Bool
  | breaks .. => true
  | _ => false

def Between.isNothing : Between → Bool
  | nothing => true
  | _ => false

/-! ## Plain scalars -/

/-- The indicators that end a plain scalar inside brackets. -/
def isFlowIndicator (c : Char) : Bool :=
  c == ',' || c == '[' || c == ']' || c == '{' || c == '}'

/-- Whether a plain scalar ends before `cs`, whatever came between. -/
def plainEnds (flow : Bool) (cs : List Char) : Bool :=
  match cs with
  | [] => true
  | c :: rest => (c == ':' && atGap rest) || (flow && isFlowIndicator c)

/-- Whether a colon inside brackets stands where neither a value nor text can go on. -/
def isStrayColon (flow : Bool) (cs : List Char) : Bool :=
  match cs with
  | ':' :: c :: _ => flow && (isFlowIndicator c || c == '?')
  | _ => false

/-- A plain scalar from `cs` on: its text in reverse, the cursor after it and after the blanks and
breaks that follow it, and whether there was a break among those. Lines after the first must be
indented by at least `indent`, unless the scalar stands inside brackets. -/
def scanPlain (flow : Bool) (indent : Nat) :
    List Char → Place → Between → List Char → Option (List Char × Cursor × Bool)
  | [], p, between, text => some (text, ⟨[], p⟩, between.hasBreak)
  | '\r' :: '\n' :: rest, p, between, text =>
    scanPlain flow indent rest (p.newline 2) (between.addBreak '\n') text
  | c :: rest, p, between, text =>
    if isBreak c then scanPlain flow indent rest (p.newline 1) (between.addBreak c) text
    else if isGap c then
      -- A tab does not count as indentation.
      if c == '\t' && between.hasBreak && p.column < indent then none
      else scanPlain flow indent rest (p.skip 1) (between.addBlank c) text
    else
      let fresh := !between.isNothing
      let stop := (some (text, ⟨c :: rest, p⟩, between.hasBreak) : Option (List Char × Cursor × Bool))
      if fresh && !flow && p.column < indent then stop
      else if p.column == 0 && atMarker (c :: rest) then stop
      -- Inside a word a hash is part of it.
      else if fresh && c == '#' then stop
      else if isStrayColon flow (c :: rest) then none
      else if plainEnds flow (c :: rest) then stop
      else scanPlain flow indent rest (p.skip 1) .nothing (c :: between.onto text)

/-! ## Quoted scalars -/

/-- The characters that a single letter stands for after a backslash. -/
def escapedChar? : Char → Option Char
  | '0' => some '\x00'
  | 'a' => some '\x07'
  | 'b' => some '\x08'
  | 't' | '\t' => some '\t'
  | 'n' => some '\n'
  | 'v' => some '\x0b'
  | 'f' => some '\x0c'
  | 'r' => some '\r'
  | 'e' => some '\x1b'
  | ' ' => some ' '
  | '"' => some '"'
  | '/' => some '/'
  | '\\' => some '\\'
  | 'N' => some '\u0085'
  | '_' => some '\u00a0'
  | 'L' => some '\u2028'
  | 'P' => some '\u2029'
  | _ => none

/-- How many hexadecimal digits follow a letter after a backslash. -/
def escapedDigits? : Char → Option Nat
  | 'x' => some 2
  | 'u' => some 4
  | 'U' => some 8
  | _ => none

def charOfNumber? (n : Nat) : Option Char :=
  if h : n.isValidChar then some (Char.ofNatAux n h) else none

/-- A single-quoted scalar after its opening quote: its text in reverse and the cursor after the
closing quote. A quote inside is written twice. -/
def scanSingle : List Char → Place → Between → List Char → Option (List Char × Cursor)
  | [], _, _, _ => none
  | '\r' :: '\n' :: rest, p, between, text =>
    scanSingle rest (p.newline 2) (between.addBreak '\n') text
  | '\'' :: '\'' :: rest, p, between, text =>
    scanSingle rest (p.skip 2) .nothing ('\'' :: between.onto text)
  | c :: rest, p, between, text =>
    if isBreak c then scanSingle rest (p.newline 1) (between.addBreak c) text
    else if isGap c then scanSingle rest (p.skip 1) (between.addBlank c) text
    else if p.column == 0 && atMarker (c :: rest) then none
    else if c == '\'' then some (between.onto text, ⟨rest, p.skip 1⟩)
    else scanSingle rest (p.skip 1) .nothing (c :: between.onto text)

/-- A double-quoted scalar after its opening quote: its text in reverse and the cursor after the
closing quote. While an escape by number is read, `number` holds the digits that are still to come
and the value so far. -/
def scanDouble : List Char → Place → Option (Nat × Nat) → Between → List Char →
    Option (List Char × Cursor)
  | c :: rest, p, some (left, value), between, text => do
    let digit ← hexValue? c
    let value := value * 16 + digit
    if left ≤ 1 then
      let c ← charOfNumber? value
      scanDouble rest (p.skip 1) none between (c :: text)
    else scanDouble rest (p.skip 1) (some (left - 1, value)) between text
  | [], _, _, _, _ => none
  | '\r' :: '\n' :: rest, p, none, between, text =>
    scanDouble rest (p.newline 2) none (between.addBreak '\n') text
  -- An escaped break stands for nothing. The blanks before it stay, and those after it go.
  | '\\' :: '\r' :: '\n' :: rest, p, none, between, text =>
    scanDouble rest ((p.skip 1).newline 2) none (.breaks none []) (between.onto text)
  | '\\' :: e :: rest, p, none, between, text =>
    if isBreak e then
      scanDouble rest ((p.skip 1).newline 1) none (.breaks none []) (between.onto text)
    else
      match escapedChar? e, escapedDigits? e with
      | some c, _ => scanDouble rest (p.skip 2) none .nothing (c :: between.onto text)
      | none, some digits =>
        scanDouble rest (p.skip 2) (some (digits, 0)) .nothing (between.onto text)
      | none, none => none
  | c :: rest, p, none, between, text =>
    if isBreak c then scanDouble rest (p.newline 1) none (between.addBreak c) text
    else if isGap c then scanDouble rest (p.skip 1) none (between.addBlank c) text
    else if p.column == 0 && atMarker (c :: rest) then none
    else if c == '"' then some (between.onto text, ⟨rest, p.skip 1⟩)
    else if c == '\\' then none
    else scanDouble rest (p.skip 1) none .nothing (c :: between.onto text)

/-! ## Block scalars -/

/-- What becomes of the breaks at the end of a block scalar. -/
inductive Chomping where
  | strip | clip | keep
deriving DecidableEq, Repr

/-- The header of a block scalar after its indicator: the chomping, the indentation if it is given,
and the cursor at the end of the line. -/
def scanBlockHeader (c : Cursor) : Option (Chomping × Option Nat × Cursor) := do
  let (chomping, c) := sign c
  let (indent, c) ← digit c
  -- The sign and the digit may come in either order.
  let (chomping, c) := match chomping with
    | some ch => (ch, c)
    | none =>
      match indent, sign c with
      | some _, (some ch, c') => (ch, c')
      | _, _ => (.clip, c)
  let (_, c) := c.takeWhile isGap
  let c := if c.rest.head? == some '#' then (c.takeWhile (!isBreak ·)).2 else c
  if atBreak c.rest then some (chomping, indent, c.skipBreak) else none
where
  /-- An optional sign that says what to do with the breaks at the end. -/
  sign (c : Cursor) : Option Chomping × Cursor :=
    match c.rest with
    | '+' :: _ => (some .keep, c.skip 1)
    | '-' :: _ => (some .strip, c.skip 1)
    | _ => (none, c)
  /-- An optional digit that gives the indentation; it cannot be zero. -/
  digit (c : Cursor) : Option (Option Nat × Cursor) :=
    match c.rest with
    | '0' :: _ => none
    | d :: _ =>
      if '1' ≤ d && d ≤ '9' then some (some (d.toNat - '0'.toNat), c.skip 1) else some (none, c)
    | [] => some (none, c)

/-- The empty lines before a block scalar whose indentation is not given: the breaks, the last one
first, the indentation they and the first line of text imply, and the cursor at that text. -/
def scanBlockIndent (least : Nat) : List Char → Place → Nat → List Char →
    Option (List Char × Nat × Cursor)
  | [], p, widest, breaks => some (breaks, max least (max widest p.column), ⟨[], p⟩)
  | '\r' :: '\n' :: rest, p, widest, breaks =>
    scanBlockIndent least rest (p.newline 2) (max widest p.column) ('\n' :: breaks)
  | c :: rest, p, widest, breaks =>
    if c == ' ' then scanBlockIndent least rest (p.skip 1) widest breaks
    else if c == '\t' then none
    else if isBreak c then
      scanBlockIndent least rest (p.newline 1) (max widest p.column) (readBreak c :: breaks)
    else some (breaks, max least (max widest p.column), ⟨c :: rest, p⟩)

/-- The state of a block scalar between its lines. -/
structure BlockState where
  /-- The text so far, in reverse. -/
  text : List Char := []
  /-- The break that ended the last line of text. -/
  lastBreak : Option Char := none
  /-- The breaks of the empty lines since, the last one first. -/
  emptyBreaks : List Char := []
  /-- Whether the last line of text started with a blank. -/
  startedBlank : Bool := false

/-- The state at the start of a line of text that starts with `c`: the breaks before it are folded,
unless the scalar is literal or one of the lines starts with a blank. -/
def BlockState.startLine (s : BlockState) (literal : Bool) (c : Char) : BlockState :=
  let blank := isGap c
  let text :=
    if !literal && s.lastBreak == some '\n' && !s.startedBlank && !blank then
      s.emptyBreaks ++ (if s.emptyBreaks.isEmpty then [' '] else []) ++ s.text
    else s.emptyBreaks ++ s.lastBreak.toList ++ s.text
  { text, lastBreak := none, emptyBreaks := [], startedBlank := blank }

/-- The lines of a block scalar: `inLine` while a line of text is read. -/
def scanBlockLines (literal : Bool) (indent : Nat) :
    List Char → Place → Bool → BlockState → Option (BlockState × Cursor)
  | [], p, _, s => some (s, ⟨[], p⟩)
  | '\r' :: '\n' :: rest, p, inLine, s =>
    scanBlockLines literal indent rest (p.newline 2) false
      (if inLine then { s with lastBreak := some '\n' }
        else { s with emptyBreaks := '\n' :: s.emptyBreaks })
  | c :: rest, p, inLine, s =>
    if inLine then
      if isBreak c then
        scanBlockLines literal indent rest (p.newline 1) false
          { s with lastBreak := some (readBreak c) }
      else scanBlockLines literal indent rest (p.skip 1) true { s with text := c :: s.text }
    else if p.column < indent && c == ' ' then
      scanBlockLines literal indent rest (p.skip 1) false s
    else if p.column < indent && c == '\t' then none
    else if isBreak c then
      scanBlockLines literal indent rest (p.newline 1) false
        { s with emptyBreaks := readBreak c :: s.emptyBreaks }
    else if p.column == indent then
      let s := s.startLine literal c
      scanBlockLines literal indent rest (p.skip 1) true { s with text := c :: s.text }
    else some (s, ⟨c :: rest, p⟩)

/-- A block scalar after its indicator, inside a block whose indentation is one less than `parent`:
its text in reverse and the cursor at the line after it. -/
def scanBlock (literal : Bool) (parent : Nat) (c : Cursor) : Option (List Char × Cursor) := do
  let (chomping, indent, c) ← scanBlockHeader c
  let (s, c) ← match indent with
    -- An indentation that is given counts from the block around the scalar.
    | some n => scanBlockLines literal (max 1 parent - 1 + n) c.rest c.place false {}
    | none => do
      let (breaks, indent, c) ← scanBlockIndent (max 1 parent) c.rest c.place 0 []
      scanBlockLines literal indent c.rest c.place false { emptyBreaks := breaks }
  let kept := if chomping == .strip then [] else s.lastBreak.toList
  let empty := if chomping == .keep then s.emptyBreaks else []
  some (empty ++ kept ++ s.text, c)

end PoolKeeper.Yaml
