/-!
# `PoolKeeper/CommandLine/Arguments.lean` — the words of a command line

A command line has an outer level, which ends with the name of a subcommand, and the level of that
subcommand. Each level knows some flags, some options with a value, and perhaps one plain word. A value
stands after an equals sign or as the next word, whatever that word is unless it looks like a flag.
After a bare `--` every word is plain.

A value in the next word is *open* until something else is given: only then is it looked at. So a
mistake further right can be found before one in an open value. What the subcommand's level finds
comes before what is still open outside.
-/

set_option autoImplicit false

namespace PoolKeeper.CommandLine

inductive Command where
  /-- Run until signalled. -/
  | daemon
  | status (refresh : Bool)
  | update (file : String)
  | backup
  | restore (snapshot : String)
deriving DecidableEq, Repr

inductive Usage where
  | help
  /-- Nothing was given at all. -/
  | helpForNothing
  | version
  | commandUnknown
  | commandMissing
  | argumentUnknown
  | argumentMissing
  /-- An option came without a value, or with an empty one. -/
  | valueMissing
  /-- A flag came with a value. -/
  | valueUnexpected
  | givenTwice
deriving DecidableEq, Repr

/-- What one level of the command line knows. -/
structure Level where
  flags : List String := []
  options : List String := ["config"]
  /-- The word that it takes, by its name. -/
  word : Option String := none
  commands : List String := []
  hasVersion : Bool := false
deriving DecidableEq, Repr

def outerLevel : Level :=
  { commands := ["daemon", "status", "update", "backup", "restore", "help"], hasVersion := true }

/-- The level of a subcommand. -/
def innerLevel : String → Level
  | "status" => { flags := ["refresh"] }
  | "update" => { options := ["file", "config"] }
  | "restore" => { word := some "snapshot_id" }
  | _ => {}

/-- What a level was given so far. -/
structure Given where
  flags : List String := []
  /-- Options with their values, and the plain word under its name. -/
  values : List (String × String) := []
  /-- What is open: the name of an option, with its value once that has come. -/
  pending : Option (String × Option String) := none
deriving DecidableEq, Repr

namespace Given

/-- The level with a value for the name, of which it may have no other. -/
def set (g : Given) (name value : String) (mayBeEmpty : Bool) : Except Usage Given :=
  if (g.values.lookup name).isSome then .error .givenTwice
  else if value = "" && !mayBeEmpty then .error .valueMissing
  else .ok { g with values := (name, value) :: g.values }

/-- The level with nothing open. -/
def settle (l : Level) (g : Given) : Except Usage Given :=
  match g.pending with
  | none => .ok g
  | some (_, none) => .error .valueMissing
  | some (name, some value) => { g with pending := none }.set name value (l.word = some name)

/-- Whether the next word is the value of an option. -/
def isAwaiting (g : Given) : Bool := g.pending matches some (_, none)

end Given

inductive Shape where
  /-- Two dashes and nothing else. -/
  | separator
  /-- A long flag or option, with what stands after its equals sign. -/
  | long (name : String) (value : Option String)
  /-- One dash and at least one letter. -/
  | short (first : Char)
  | plain
deriving DecidableEq, Repr

def Shape.of (word : String) : Shape :=
  match word.toList with
  | ['-', '-'] => .separator
  | '-' :: '-' :: cs =>
    let name := String.ofList (cs.takeWhile (· != '='))
    match cs.dropWhile (· != '=') with
    | _ :: value => .long name (some (String.ofList value))
    | [] => .long name none
  | '-' :: c :: _ => .short c
  | _ => .plain

def giveFlag (l : Level) (name : String) (g : Given) : Except Usage Given := do
  let g ← g.settle l
  if name = "help" then throw .help
  if name = "version" then throw .version
  if g.flags.contains name then throw .givenTwice
  return { g with flags := name :: g.flags }

/-- An option that was given, perhaps with its value. -/
def giveOption (l : Level) (name : String) (value : Option String) (g : Given) :
    Except Usage Given := do
  let g ← g.settle l
  match value with
  | some value => g.set name value false
  | none => return { g with pending := some (name, none) }

/-- The flags of a level, those that every level has included. -/
def Level.allFlags (l : Level) : List String :=
  "help" :: (if l.hasVersion then ["version"] else []) ++ l.flags

def giveLong (l : Level) (name : String) (value : Option String) (g : Given) : Except Usage Given :=
  if l.options.contains name then giveOption l name value g
  else if l.allFlags.contains name then
    if value.isSome then .error .valueUnexpected else giveFlag l name g
  else .error .argumentUnknown

/-- Short flags that were given; there are two, and neither has anything after it. -/
def giveShort (l : Level) (first : Char) (g : Given) : Except Usage Given :=
  if first = 'h' then giveFlag l "help" g
  else if first = 'V' && l.hasVersion then giveFlag l "version" g
  else .error .argumentUnknown

def giveWord (l : Level) (trailing : Bool) (word : String) (g : Given) : Except Usage Given := do
  match l.word with
  | some name =>
    if (g.values.lookup name).isSome || g.pending.any (·.1 = name) then throw .argumentUnknown
    let g ← g.settle l
    return { g with pending := some (name, some word) }
  | none =>
    throw (if l.commands.isEmpty || (trailing && l.commands.contains word) then .argumentUnknown
      else .commandUnknown)

/-- Reads a level up to its end or to the name of a subcommand; gives what it was given, and the words
from that name on. -/
def readLevel (l : Level) : (trailing : Bool) → Given → List String →
    Except Usage (Given × List String)
  | _, g, [] => .ok (g, [])
  | trailing, g, word :: words =>
    if trailing then do readLevel l true (← giveWord l true word g) words
    else if !g.isAwaiting && l.commands.contains word then .ok (g, word :: words)
    else
      match Shape.of word with
      | .separator => readLevel l true g words
      | .long name value => do readLevel l false (← giveLong l name value g) words
      | .short first => do readLevel l false (← giveShort l first g) words
      | .plain =>
        match g.pending with
        -- The value of the option before it. It is not looked at before something else is given.
        | some (name, none) => readLevel l false { g with pending := some (name, some word) } words
        | _ => do readLevel l false (← giveWord l false word g) words

/-- What the help on a chain of subcommands comes to; only the outer level has subcommands. -/
def helpOn : List String → Usage
  | [] => .help
  | [name] => if outerLevel.commands.contains name then .help else .commandUnknown
  | _ => .commandUnknown

/-- The command that a subcommand's level makes. -/
def Command.ofLevel (name : String) (g : Given) : Except Usage Command :=
  match name with
  | "daemon" => .ok .daemon
  | "status" => .ok (.status (g.flags.contains "refresh"))
  | "backup" => .ok .backup
  | "update" =>
    match g.values.lookup "file" with
    | some file => .ok (.update file)
    | none => .error .argumentMissing
  | "restore" =>
    match g.values.lookup "snapshot_id" with
    | some snapshot => .ok (.restore snapshot)
    | none => .error .argumentMissing
  | _ => .error .commandUnknown

/-- A command line that was understood. -/
structure Arguments where
  command : Command
  /-- The host file, if one was named; of two, the inner one. -/
  config : Option String := none
deriving DecidableEq, Repr

/-- The command line that the words make. -/
def Arguments.ofWords (words : List String) : Except Usage Arguments := do
  let (outer, rest) ← readLevel outerLevel false {} words
  match rest with
  | [] =>
    let outer ← outer.settle outerLevel
    throw (if outer.values.isEmpty then .helpForNothing else .commandMissing)
  | "help" :: topics => throw (helpOn topics)
  | name :: rest =>
    let level := innerLevel name
    let (inner, _) ← readLevel level false {} rest
    let inner ← inner.settle level
    let command ← Command.ofLevel name inner
    let outer ← outer.settle outerLevel
    return ⟨command, (inner.values.lookup "config").or (outer.values.lookup "config")⟩

/-- The status that the program ends with when there is nothing to run: asking for help or for the
version is no mistake. -/
def Usage.exitCode : Usage → Nat
  | help | version => 0
  | _ => 2

end PoolKeeper.CommandLine
