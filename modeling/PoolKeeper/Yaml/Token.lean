import PoolKeeper.Word
import PoolKeeper.Yaml.Scalar

/-!
# `PoolKeeper/Yaml/Token.lean` — tokens of a stream

`Token.scan` turns the characters of a stream into tokens. Indentation becomes tokens of its own:
a block starts where a column is passed and ends where it is left.

A mapping key is not announced in advance, it is known by the colon after it. So every token that
could be a key is remembered as a *candidate* with the number of tokens before it; the colon puts the
`key` token (and, if need be, the start of the block) in at that number. A candidate lapses at the
end of its line, or after 1024 characters; where the indentation leaves no other reading, that is an
error.

Nothing here depends on the grammar above the tokens, so the whole stream is scanned at once.
-/

set_option autoImplicit false

namespace PoolKeeper.Yaml

/-- The tokens of a stream. -/
inductive Token where
  | streamEnd
  | version (major minor : Nat)
  | tagHandle (handle lead : List Char)
  | documentStart
  | documentEnd
  | blockSequence
  | blockMapping
  | blockEnd
  | openBracket
  | closeBracket
  | openBrace
  | closeBrace
  | entry
  | comma
  | key
  | value
  | alias (name : List Char)
  | anchor (name : List Char)
  | tag (handle suffix : List Char)
  | scalar (style : Style) (text : List Char)
deriving DecidableEq, Repr

/-- A token that may turn out to be a mapping key. -/
structure Candidate where
  /-- How many tokens come before it. -/
  number : Nat
  place : Place
  /-- Whether the indentation admits nothing but a key here. -/
  required : Bool

structure Scanner where
  cursor : Cursor
  /-- The tokens so far, the last one first, and how many they are. -/
  tokens : List Token := []
  count : Nat := 0
  /-- One more than the column of the innermost block; zero outside all blocks. -/
  indent : Nat := 0
  /-- The same for the blocks around it, the innermost first. -/
  outer : List Nat := []
  /-- Whether a key may start here. -/
  keyAllowed : Bool := true
  /-- The candidate of the innermost bracket, or of the block. -/
  candidate : Option Candidate := none
  /-- The candidates around it; there are as many as open brackets. -/
  suspended : List (Option Candidate) := []

namespace Scanner

def inFlow (s : Scanner) : Bool := !s.suspended.isEmpty

def column (s : Scanner) : Nat := s.cursor.place.column

def emit (s : Scanner) (t : Token) : Scanner :=
  { s with tokens := t :: s.tokens, count := s.count + 1 }

/-- The state with a token put in after the first `number` ones. -/
def insert (s : Scanner) (number : Nat) (t : Token) : Scanner :=
  { s with tokens := s.tokens.insertIdx (s.count - number) t, count := s.count + 1 }

/-- The state with a token that is `n` characters long. -/
def take (s : Scanner) (n : Nat) (t : Token) : Scanner :=
  { s with cursor := s.cursor.skip n }.emit t

/-! ## Blocks -/

/-- The state after the blocks that are indented by more than `column` have ended (all blocks, for
`none`). Inside brackets indentation means nothing. -/
def closeBlocks (s : Scanner) (column : Option Nat) : Scanner :=
  if s.inFlow then s else go s s.outer
where
  go (s : Scanner) : List Nat → Scanner
    | [] => s
    | outer :: rest =>
      if (column.elim 0 (· + 1)) < s.indent then
        go { s.emit .blockEnd with indent := outer, outer := rest } rest
      else s

/-- The state after a block has started at the column, if that is deeper than the innermost one.
The token goes in after the first `number` tokens. -/
def openBlock (s : Scanner) (column number : Nat) (t : Token) : Scanner :=
  if s.inFlow || column + 1 ≤ s.indent then s
  else { s.insert number t with indent := column + 1, outer := s.indent :: s.outer }

/-! ## Candidates for keys -/

/-- The state without its candidate; a required one cannot be given up. -/
def dropCandidate (s : Scanner) : Option Scanner :=
  match s.candidate with
  | some c => if c.required then none else some { s with candidate := none }
  | none => some s

/-- The state with the next token as a candidate, if a key may start here. -/
def saveCandidate (s : Scanner) : Option Scanner :=
  if s.keyAllowed then do
    let s ← s.dropCandidate
    let required := !s.inFlow && s.indent == s.column + 1
    some { s with candidate := some ⟨s.count, s.cursor.place, required⟩ }
  else some s

/-- Whether the candidate has lapsed at the place. -/
def isStale (p : Place) (c : Candidate) : Bool :=
  c.place.line < p.line || c.place.index + 1024 < p.index

/-- The candidate, unless it has lapsed; a required one must not lapse. -/
def refresh (p : Place) : Option Candidate → Option (Option Candidate)
  | some c => if isStale p c then (if c.required then none else some none) else some (some c)
  | none => some none

/-- The state without lapsed candidates. -/
def dropStale (s : Scanner) : Option Scanner := do
  let candidate ← refresh s.cursor.place s.candidate
  let suspended ← s.suspended.mapM (refresh s.cursor.place)
  some { s with candidate, suspended }

/-! ## Between tokens -/

/-- The start of the next token, past blanks, comments and breaks, and whether a key may start
there. Tabs count as blanks inside brackets, and elsewhere where no key may start. -/
def skipGaps (flow : Bool) : (inComment keyAllowed : Bool) → List Char → Place → Bool × Cursor
  | _, keyAllowed, [], p => (keyAllowed, ⟨[], p⟩)
  | _, keyAllowed, '\r' :: '\n' :: rest, p =>
    skipGaps flow false (keyAllowed || !flow) rest (p.newline 2)
  | inComment, keyAllowed, c :: rest, p =>
    if isBreak c then skipGaps flow false (keyAllowed || !flow) rest (p.newline 1)
    else if inComment then skipGaps flow true keyAllowed rest (p.skip 1)
    else if c == ' ' || (c == '\t' && (flow || !keyAllowed)) then
      skipGaps flow false keyAllowed rest (p.skip 1)
    else if c == '#' then skipGaps flow true keyAllowed rest (p.skip 1)
    else (keyAllowed, ⟨c :: rest, p⟩)

/-- The state at the start of the next token. A byte order mark may start the stream. -/
def toNextToken (s : Scanner) : Scanner :=
  let c := if s.cursor.place.index == 0 && s.cursor.rest.head? == some '\uFEFF' then s.cursor.skip 1
    else s.cursor
  let (keyAllowed, cursor) := skipGaps s.inFlow false s.keyAllowed c.rest c.place
  { s with keyAllowed, cursor }

/-! ## Single tokens -/

/-- The state after everything that a document marker or a directive ends. -/
def endContent (s : Scanner) : Option Scanner := do
  let s ← (s.closeBlocks none).dropCandidate
  some { s with keyAllowed := false }

def scanOpen (s : Scanner) (t : Token) : Option Scanner := do
  let s ← s.saveCandidate
  some ({ s with candidate := none, suspended := s.candidate :: s.suspended,
                 keyAllowed := true }.take 1 t)

def scanClose (s : Scanner) (t : Token) : Option Scanner := do
  let s ← s.dropCandidate
  let s := match s.suspended with
    | [] => s
    | candidate :: suspended => { s with candidate, suspended }
  some ({ s with keyAllowed := false }.take 1 t)

def scanComma (s : Scanner) : Option Scanner := do
  let s ← s.dropCandidate
  some ({ s with keyAllowed := true }.take 1 .comma)

def scanEntry (s : Scanner) : Option Scanner := do
  if !s.inFlow && !s.keyAllowed then none
  let s ← (s.openBlock s.column s.count .blockSequence).dropCandidate
  some ({ s with keyAllowed := true }.take 1 .entry)

def scanKey (s : Scanner) : Option Scanner := do
  if !s.inFlow && !s.keyAllowed then none
  let s ← (s.openBlock s.column s.count .blockMapping).dropCandidate
  some ({ s with keyAllowed := !s.inFlow }.take 1 .key)

def scanValue (s : Scanner) : Option Scanner :=
  match s.candidate with
  | some c =>
    -- What stands before the colon was a key, and perhaps the first one of a new block.
    let s := s.insert c.number .key
    let s := s.openBlock c.place.column c.number .blockMapping
    some ({ s with candidate := none, keyAllowed := false }.take 1 .value)
  | none =>
    if !s.inFlow && !s.keyAllowed then none
    else
      let s := s.openBlock s.column s.count .blockMapping
      some ({ s with keyAllowed := !s.inFlow }.take 1 .value)

/-- Whether `cs` may follow the name of an anchor or an alias. -/
def endsName (cs : List Char) : Bool :=
  match cs with
  | [] => true
  | c :: _ => atGap cs || ['?', ':', ',', ']', '}', '%', '@', '\x60'].contains c

/-- The name of an anchor or an alias, after its mark. -/
def scanName (s : Scanner) (t : List Char → Token) : Option Scanner := do
  let s ← s.saveCandidate
  let (name, cursor) := (s.cursor.skip 1).takeWhile isWord
  if name.isEmpty || !endsName cursor.rest then none
  some ({ s with keyAllowed := false, cursor }.emit (t name))

/-- The characters that may stand in a tag; a verbatim one may hold commas and brackets too. -/
def isTagChar (verbatim : Bool) (c : Char) : Bool :=
  isWord c || [';', '/', '?', ':', '@', '&', '=', '+', '$', '.', '%', '!', '~', '*', '\'', '(',
    ')'].contains c || (verbatim && [',', '[', ']'].contains c)

/-- How many octets the character whose first octet this is has. -/
def octets? (first : Nat) : Option Nat :=
  if first < 0x80 then some 1
  else if first / 32 == 6 then some 2
  else if first / 16 == 14 then some 3
  else if first / 8 == 30 then some 4
  else none

/-- The characters of a tag with the escapes read: `left` octets of the character that is being
read are still to come, and `number` is its value so far. -/
def unescapeTag : List Char → Nat → Nat → Option (List Char)
  | [], 0, _ => some []
  | '%' :: a :: b :: rest, left, number => do
    let octet := (← hexValue? a) * 16 + (← hexValue? b)
    match left with
    | 0 =>
      let n ← octets? octet
      if n == 1 then (unescapeTag rest 0 0).map (Char.ofNat octet :: ·)
      else unescapeTag rest (n - 1) (octet % Word.size (7 - n))
    | left + 1 =>
      if octet / 64 != 2 then none
      let number := number * 64 + octet % 64
      if left == 0 then (unescapeTag rest 0 0).map (Char.ofNat number :: ·)
      else unescapeTag rest left number
  | c :: rest, 0, _ => if c == '%' then none else (unescapeTag rest 0 0).map (c :: ·)
  | _, _ + 1, _ => none

def scanTagRest (verbatim : Bool) (c : Cursor) : Option (List Char × Cursor) := do
  let (cs, c) := c.takeWhile (isTagChar verbatim)
  let cs ← unescapeTag cs 0 0
  some (cs, c)

/-- The first part of a tag: the exclamation mark, and the word after it with a second mark if
there is one. -/
def scanHandle (c : Cursor) : Option (List Char × Cursor) :=
  match c.rest with
  | '!' :: _ =>
    let (word, c) := (c.skip 1).takeWhile isWord
    match c.rest with
    | '!' :: _ => some ('!' :: word ++ ['!'], c.skip 1)
    | _ => some ('!' :: word, c)
  | _ => none

/-- A tag: verbatim between angle brackets, or a handle and a suffix, or a suffix alone. -/
def scanTag (s : Scanner) : Option Scanner := do
  let s ← s.saveCandidate
  let (handle, suffix, cursor) ← match s.cursor.rest with
    | '!' :: '<' :: _ => do
      let (suffix, c) ← scanTagRest true (s.cursor.skip 2)
      if suffix.isEmpty || c.rest.head? != some '>' then none
      some ([], suffix, c.skip 1)
    | _ => do
      let (handle, c) ← scanHandle s.cursor
      if handle.length > 1 && handle.getLast? == some '!' then
        let (suffix, c) ← scanTagRest false c
        if suffix.isEmpty then none
        some (handle, suffix, c)
      else
        -- The word after the mark was no handle, but the beginning of the suffix.
        let (more, c) ← scanTagRest false c
        let suffix := handle.drop 1 ++ more
        if suffix.isEmpty then some ([], ['!'], c) else some (['!'], suffix, c)
  if !(atGap cursor.rest || (s.inFlow && cursor.rest.head? == some ',')) then none
  some ({ s with keyAllowed := false, cursor }.emit (.tag handle suffix))

/-- A number of a version, of at most nine digits. -/
def scanNumber (c : Cursor) : Option (Nat × Cursor) :=
  let (ds, c) := c.takeWhile fun d => '0' ≤ d && d ≤ '9'
  if ds.isEmpty || ds.length > 9 then none
  else some (ds.foldl (fun n d => n * 10 + (d.toNat - '0'.toNat)) 0, c)

def scanDirective (s : Scanner) : Option Scanner := do
  let s ← s.endContent
  let (name, c) := (s.cursor.skip 1).takeWhile isWord
  if name.isEmpty || !atGap c.rest then none
  let (_, c) := c.takeWhile isGap
  let (t, c) ←
    if name == "YAML".toList then do
      let (major, c) ← scanNumber c
      if c.rest.head? != some '.' then none
      let (minor, c) ← scanNumber (c.skip 1)
      some (Token.version major minor, c)
    else if name == "TAG".toList then do
      let (handle, c) ← scanHandle c
      if handle.length > 1 && handle.getLast? != some '!' then none
      if c.rest.isEmpty || !(c.rest.head?.any isGap) then none
      let (_, c) := c.takeWhile isGap
      let (lead, c) ← scanTagRest true c
      if lead.isEmpty || !atGap c.rest then none
      some (Token.tagHandle handle lead, c)
    else none
  let (_, c) := c.takeWhile isGap
  let c := if c.rest.head? == some '#' then (c.takeWhile (!isBreak ·)).2 else c
  if !atBreak c.rest then none
  some ({ s with cursor := c.skipBreak }.emit t)

def scanBlockScalar (s : Scanner) (literal : Bool) : Option Scanner := do
  let s ← s.dropCandidate
  let (text, cursor) ← scanBlock literal s.indent (s.cursor.skip 1)
  some ({ s with keyAllowed := true, cursor }.emit
    (.scalar (if literal then .literal else .folded) text.reverse))

def scanQuoted (s : Scanner) (single : Bool) : Option Scanner := do
  let s ← s.saveCandidate
  let c := s.cursor.skip 1
  let (text, cursor) ← if single then scanSingle c.rest c.place .nothing []
    else scanDouble c.rest c.place none .nothing []
  some ({ s with keyAllowed := false, cursor }.emit
    (.scalar (if single then .singleQuoted else .doubleQuoted) text.reverse))

/-- A plain scalar. A key may start after it only if a line has ended. -/
def scanPlainScalar (s : Scanner) : Option Scanner := do
  let s ← s.saveCandidate
  let (text, cursor, lineEnded) ←
    scanPlain s.inFlow s.indent s.cursor.rest s.cursor.place .nothing []
  some ({ s with keyAllowed := lineEnded, cursor }.emit (.scalar .plain text.reverse))

/-- Whether a plain scalar can start with `c` before `rest`. -/
def startsPlain (flow : Bool) (c : Char) (rest : List Char) : Bool :=
  (!(['-', '?', ':', ',', '[', ']', '{', '}', '#', '&', '*', '!', '|', '>', '\'', '"', '%', '@',
      '\x60'].contains c) && !isGap c)
    || (c == '-' && !(rest.head?.any isGap))
    || (!flow && (c == '?' || c == ':') && !atGap rest)

/-- The token that starts at the cursor, which is not at the end of the stream. -/
def scanToken (s : Scanner) (c : Char) (rest : List Char) : Option Scanner :=
  let flow := s.inFlow
  if s.column == 0 && c == '%' then s.scanDirective
  else if s.column == 0 && atMarker (c :: rest) then
    (s.endContent).map (·.take 3 (if c == '-' then .documentStart else .documentEnd))
  else if c == '[' then s.scanOpen .openBracket
  else if c == '{' then s.scanOpen .openBrace
  else if c == ']' then s.scanClose .closeBracket
  else if c == '}' then s.scanClose .closeBrace
  else if c == ',' then s.scanComma
  else if c == '-' && atGap rest then s.scanEntry
  else if c == '?' && (flow || atGap rest) then s.scanKey
  else if c == ':' && (flow || atGap rest) then s.scanValue
  else if c == '*' then s.scanName .alias
  else if c == '&' then s.scanName .anchor
  else if c == '!' then s.scanTag
  else if c == '|' && !flow then s.scanBlockScalar true
  else if c == '>' && !flow then s.scanBlockScalar false
  else if c == '\'' then s.scanQuoted true
  else if c == '"' then s.scanQuoted false
  else if startsPlain flow c rest then s.scanPlainScalar
  else none

def scanEnd (s : Scanner) : Option Scanner := do
  let s ← (s.closeBlocks none).dropCandidate
  some (s.emit .streamEnd)

/-- All tokens from the state on. Each round but the last passes at least one character, so the
length of the stream is fuel enough. -/
def run : Nat → Scanner → Option Scanner
  | 0, _ => none
  | fuel + 1, s => do
    let s ← s.toNextToken.dropStale
    -- Whatever is indented further than the next token has ended.
    let s := s.closeBlocks (some s.column)
    match s.cursor.rest with
    | [] => s.scanEnd
    | c :: rest => run fuel (← s.scanToken c rest)

end Scanner

/-- The tokens of a stream. -/
def Token.scan (source : List Char) : Option (List Token) :=
  if source.all isAllowed then
    (Scanner.run (source.length + 1) { cursor := ⟨source, {}⟩ }).map (·.tokens.reverse)
  else none

end PoolKeeper.Yaml
