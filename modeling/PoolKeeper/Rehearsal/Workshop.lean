import PoolKeeper.Tools.Host

/-!
# `PoolKeeper/Rehearsal/Workshop.lean` — stand-ins for programs

In a rehearsal no program is started. A workshop answers instead: it has a list of turns, each for the
command lines that start with some text, and the first one that fits is taken. It writes down every
command line that it answers.
-/

set_option autoImplicit false

namespace PoolKeeper

def Invocation.line (i : Invocation) : String := String.intercalate " " i.words

namespace Rehearsal

/-- What a program does in a rehearsal. -/
structure Turn where
  /-- How the command lines that it is for start. -/
  opening : String := ""
  finish : Finish := {}
  /-- It is for so many command lines only. -/
  times : Option Nat := none
  /-- A directory that the program makes; `{name}` in it stands for what the command line has after
  its last `@`. -/
  directory : Option String := none
  /-- Whether the program asks the one that started it to end. -/
  signals : Bool := false

/-- Turns, and the command lines that were answered, the latest first. -/
structure Workshop where
  turns : List Turn := []
  ran : List Invocation := []

namespace Workshop

def programs : List String := ["zfs", "zpool", "rsync", "systemctl", "kopia", "tool"]

/-- Whether a program is given by where it is, and not by its name. -/
def isPath (program : String) : Bool :=
  program.toList.contains '/' || program = "." || program = ".."

/-- What is there when a program is looked for by a path. There may be something, but no program. -/
def lookUp (path : String) (m : Machine) : OsError :=
  match ((Files.found? path).run.run m).1 with
  | .ok (some _) => .notPermitted
  | .ok none => .notFound
  | .error e => e

def refusal? (i : Invocation) (m : Machine) : Option String :=
  if (i.words ++ i.cache.toList).any (·.toList.contains '\x00') then
    some "nul byte found in provided data"
  else if programs.contains i.program then none
  else some (if isPath i.program then lookUp i.program m else .notFound).message

/-- Whether the turn is for the command line, after those in `ran`. -/
def fits (ran : List Invocation) (i : Invocation) (t : Turn) : Bool :=
  i.line.startsWith t.opening
    && t.times.all fun n => (ran.filter fun r => r.line.startsWith t.opening).length < n

/-- What stands after the last `@` of a text; the text, if it has none. -/
def afterSign (text : String) : String :=
  String.ofList (text.toList.reverse.takeWhile (· != '@')).reverse

def play (t : Turn) (i : Invocation) (m : Machine) : Machine :=
  let m := match t.directory with
    | none => m
    | some path =>
      ((Files.makeDirectories (path.replace "\x7bname\x7d" (afterSign i.line))).run.run m).2
  if t.signals then { m with signalled := true } else m

def run (i : Invocation) (s : Workshop) (m : Machine) : Except String Finish × Workshop × Machine :=
  match refusal? i m with
  | some cause => (.error cause, s, m)
  | none =>
    let turn := (s.turns.find? (fits s.ran i)).getD {}
    (.ok turn.finish, { s with ran := i :: s.ran }, play turn i m)

/-- A workshop as all that a world has beside its machine. -/
def runner : Tools.Runner Workshop := fun i w =>
  let (started, host, machine) := w.host.run i w.machine
  (started, { w with host, machine })

end Workshop

end Rehearsal

end PoolKeeper
