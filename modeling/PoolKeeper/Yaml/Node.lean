import PoolKeeper.Yaml.Token

/-!
# `PoolKeeper/Yaml/Node.lean` — the nodes of a document

`Document.ofTokens?` puts the tokens of a stream together to the one document that the stream may
hold. Anything after it but the end of the stream is refused, and so are an alias without its anchor
and a tag whose handle nobody declared.

Aliases are not resolved here. A node can stand inside the node it is an alias of, so a document
keeps its aliases as numbers and a table of their targets; whoever reads it follows them as far as he
needs. A name that is anchored again gets the number of the names so far, which a later new name can
get too; the node that starts last keeps it.

The grammar is recursive without using up tokens at each step, so it runs on fuel. A node inside a
node, or one entry after another, takes at least one token between two steps that take none, and
twice the number of tokens is enough.
-/

set_option autoImplicit false

namespace PoolKeeper.Yaml

inductive Node where
  | scalar (tag : Option String) (style : Style) (text : String)
  | sequence (tag : Option String) (items : List Node)
  | mapping (tag : Option String) (entries : List (Node × Node))
  | alias (number : Nat)

def Node.empty : Node := .scalar none .plain ""

/-- A document, or the lack of one. -/
structure Document where
  root : Option Node
  /-- Where the node of each anchor number starts, the latest first. -/
  starts : List (Nat × Nat) := []
  /-- The anchored nodes by where they start. -/
  anchored : List (Nat × Node) := []
  /-- How many starts and ends of nodes there are; a scalar or an alias is one. -/
  size : Nat := 0

def Document.target? (d : Document) (number : Nat) : Option Node := do
  d.anchored.lookup (← d.starts.lookup number)

/-- The node, or the one it is an alias of. -/
def Document.resolve? (d : Document) : Node → Option Node
  | .alias number => d.target? number
  | n => some n

/-- A document while it is put together. -/
structure Draft where
  /-- The tokens that are still to come. -/
  tokens : List Token
  /-- The tag handles that are declared, and what each stands for. -/
  handles : List (List Char × List Char) := []
  /-- The anchored names and their numbers. -/
  names : List (List Char × Nat) := []
  starts : List (Nat × Nat) := []
  anchored : List (Nat × Node) := []
  size : Nat := 0

/-- A step that puts a document together. -/
abbrev Build := StateT Draft Option

namespace Build

def peek : Build (Option Token) := do return (← get).tokens.head?

def next : Build Unit := modify fun d => { d with tokens := d.tokens.drop 1 }

/-- Passes the next token, which has to be this one. -/
def expect (t : Token) : Build Unit := do
  if (← peek) != some t then failure
  next

/-- Whether the next token is one of these. -/
def atOne (ts : List Token) : Build Bool := do return (← peek).any ts.contains

def count (n : Nat) : Build Unit := modify fun d => { d with size := d.size + n }

def emptyNode : Build Node := do
  count 1
  return .empty

/-! ## Anchors and tags -/

/-- The anchor and the tag before a node, in either order. -/
def properties : Build (Option (List Char) × Option (List Char × List Char)) := do
  match ← peek with
  | some (.anchor name) =>
    next
    match ← peek with
    | some (.tag handle suffix) =>
      next
      return (some name, some (handle, suffix))
    | _ => return (some name, none)
  | some (.tag handle suffix) =>
    next
    match ← peek with
    | some (.anchor name) =>
      next
      return (some name, some (handle, suffix))
    | _ => return (none, some (handle, suffix))
  | _ => return (none, none)

/-- The tag that a handle and a suffix make. -/
def tagText : Option (List Char × List Char) → Build (Option String)
  | none => return none
  | some ([], suffix) => return some (String.ofList suffix)
  | some (handle, suffix) => do
    match (← get).handles.lookup handle with
    | some lead => return some (String.ofList (lead ++ suffix))
    | none => failure

/-- Gives the name, if there is one, its number and notes that its node starts here. The place is
returned. -/
def startAnchor : Option (List Char) → Build (Option Nat)
  | none => return none
  | some name => do
    let d ← get
    let number := d.names.length
    let names := (d.names.filter (·.1 != name)).concat (name, number)
    set { d with names, starts := (number, d.size) :: d.starts }
    return some d.size

/-- Keeps the node for the aliases to the anchor at its start. -/
def endAnchor (start : Option Nat) (n : Node) : Build Node := do
  match start with
  | none => return n
  | some start =>
    modify fun d => { d with anchored := (start, n) :: d.anchored }
    return n

def aliasNode (name : List Char) : Build Node := do
  match (← get).names.lookup name with
  | some number =>
    count 1
    return .alias number
  | none => failure

/-! ## The grammar of nodes -/

/-- The tokens before which the place of a key or a value in a block is empty. -/
def blockStops : List Token := [.key, .value, .blockEnd]

mutual

/-- A node. Outside brackets (`block`) it can be a block; a sequence that is the value of a key can
stand without a block of its own (`bare`). -/
def node : Nat → (block bare : Bool) → Build Node
  | 0, _, _ => failure
  | fuel + 1, block, bare => do
    match ← peek with
    | some (.alias name) =>
      next
      aliasNode name
    | _ =>
      let (anchor, tag) ← properties
      let marked := anchor.isSome || tag.isSome
      let tag ← tagText tag
      let start ← startAnchor anchor
      match ← peek with
      | some (.scalar style text) =>
        next
        count 1
        -- The mark alone names no type.
        endAnchor start (.scalar (if tag = some "!" then none else tag) style (String.ofList text))
      | some .entry =>
        if bare then
          count 1
          let items ← bareItems fuel
          count 1
          endAnchor start (.sequence tag items)
        else unfilled marked tag start
      | some .openBracket =>
        next
        count 1
        let items ← bracketItems fuel true
        count 1
        endAnchor start (.sequence tag items)
      | some .openBrace =>
        next
        count 1
        let entries ← braceEntries fuel true
        count 1
        endAnchor start (.mapping tag entries)
      | some .blockSequence =>
        if block then
          next
          count 1
          let items ← blockItems fuel
          count 1
          endAnchor start (.sequence tag items)
        else unfilled marked tag start
      | some .blockMapping =>
        if block then
          next
          count 1
          let entries ← blockEntries fuel
          count 1
          endAnchor start (.mapping tag entries)
        else unfilled marked tag start
      | _ => unfilled marked tag start

/-- A node without content; it must have an anchor or a tag. -/
def unfilled (marked : Bool) (tag : Option String) (start : Option Nat) : Build Node := do
  if !marked then failure
  count 1
  endAnchor start (.scalar tag .plain "")

def blockItems : Nat → Build (List Node)
  | 0 => failure
  | fuel + 1 => do
    match ← peek with
    | some .entry =>
      next
      let item ← if ← atOne [.entry, .blockEnd] then emptyNode else node fuel true false
      return item :: (← blockItems fuel)
    | some .blockEnd =>
      next
      return []
    | _ => failure

/-- The items of a sequence without a block of its own. -/
def bareItems : Nat → Build (List Node)
  | 0 => failure
  | fuel + 1 => do
    match ← peek with
    | some .entry =>
      next
      let item ← if ← atOne (.entry :: blockStops) then emptyNode else node fuel true false
      return item :: (← bareItems fuel)
    | _ => return []

def blockEntries : Nat → Build (List (Node × Node))
  | 0 => failure
  | fuel + 1 => do
    match ← peek with
    | some .key =>
      next
      let key ← if ← atOne blockStops then emptyNode else node fuel true true
      let value ←
        if ← atOne [.value] then do
          next
          if ← atOne blockStops then emptyNode else node fuel true true
        else emptyNode
      return (key, value) :: (← blockEntries fuel)
    | some .blockEnd =>
      next
      return []
    | _ => failure

/-- The items between brackets. An item with a key is a mapping of one entry; a token that leaves
its key empty is passed over. -/
def bracketItems : Nat → (first : Bool) → Build (List Node)
  | 0, _ => failure
  | fuel + 1, first => do
    if ← atOne [.closeBracket] then
      next
      return []
    if !first then expect .comma
    match ← peek with
    | some .closeBracket =>
      next
      return []
    | some .key =>
      next
      count 1
      let key ←
        if ← atOne [.value, .comma, .closeBracket] then do
          next
          emptyNode
        else node fuel false false
      let value ← flowValue fuel [.comma, .closeBracket]
      count 1
      return .mapping none [(key, value)] :: (← bracketItems fuel false)
    | _ =>
      let item ← node fuel false false
      return item :: (← bracketItems fuel false)

/-- The entries between braces. -/
def braceEntries : Nat → (first : Bool) → Build (List (Node × Node))
  | 0, _ => failure
  | fuel + 1, first => do
    if ← atOne [.closeBrace] then
      next
      return []
    if !first then expect .comma
    match ← peek with
    | some .closeBrace =>
      next
      return []
    | some .key =>
      next
      let key ← if ← atOne [.value, .comma, .closeBrace] then emptyNode else node fuel false false
      let value ← flowValue fuel [.comma, .closeBrace]
      return (key, value) :: (← braceEntries fuel false)
    | _ =>
      let key ← node fuel false false
      -- What comes without the token of a key is a key all the same, with nothing behind it.
      let value ← emptyNode
      return (key, value) :: (← braceEntries fuel false)

/-- The value after a key inside brackets or braces, which may be missing. -/
def flowValue : Nat → List Token → Build Node
  | 0, _ => failure
  | fuel + 1, stops => do
    if ← atOne [.value] then
      next
      if ← atOne stops then emptyNode else node fuel false false
    else emptyNode

end

/-! ## Documents -/

/-- The handles that need no declaration. -/
def standardHandles : List (List Char × List Char) :=
  [(['!'], ['!']), (['!', '!'], "tag:yaml.org,2002:".toList)]

/-- The directives before a document, given what has been declared so far: the version, at most
once, and tag handles, each at most once. -/
def directives (versioned : Bool) (handles : List (List Char × List Char)) :
    List Token → Option (List (List Char × List Char) × List Token)
  | .version major minor :: ts =>
    if versioned || major != 1 || (minor != 1 && minor != 2) then none
    else directives true handles ts
  | .tagHandle handle lead :: ts =>
    if (handles.lookup handle).isSome then none
    else directives versioned ((handle, lead) :: handles) ts
  | ts => some (handles, ts)

def content (fuel : Nat) : Build Node := do
  match ← peek with
  | none | some (.version ..) | some (.tagHandle ..) | some .documentStart | some .documentEnd
  | some .streamEnd => emptyNode
  | _ => node fuel true false

/-- The document at the head of a stream. -/
def firstDocument (fuel : Nat) : Build (Option Node) := do
  match ← peek with
  | some .streamEnd => return none
  | some (.version ..) | some (.tagHandle ..) | some .documentStart =>
    let d ← get
    let (handles, tokens) ← directives false [] d.tokens
    set { d with tokens, handles := handles ++ standardHandles }
    expect .documentStart
    content fuel
  | _ =>
    modify fun d => { d with handles := standardHandles }
    node fuel true false

end Build

def Document.ofTokens? (tokens : List Token) : Option Document := do
  let (root, d) ← (Build.firstDocument (2 * tokens.length + 2)).run { tokens }
  if d.tokens.dropWhile (· == .documentEnd) != [.streamEnd] then none
  some ⟨root, d.starts, d.anchored, d.size⟩

def Document.ofText? (text : String) : Option Document := do
  Document.ofTokens? (← Token.scan text.toList)

end PoolKeeper.Yaml
