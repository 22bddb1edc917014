import PoolKeeper.Text.Blank
import PoolKeeper.Text.Decimal
import PoolKeeper.Text.Lossy

/-!
# `PoolKeeper/Tools/Command.lean` — running other programs

A program is run to its end and either succeeds, which is all that counts, or fails in one of three
ways: it cannot be started, it ends with a code other than zero, or a signal ends it. What it wrote
to its error output is part of the failure.

`Invocation.describe` is the command line as it may be shown: whatever follows a flag for a secret is
hidden.
-/

set_option autoImplicit false

namespace PoolKeeper

open Text

/-- A command line, and the engine's cache directory if the program is told about one. -/
structure Invocation where
  program : String
  arguments : List String := []
  cache : Option String := none
deriving DecidableEq, Repr

/-- How a program ended: its exit code, unless a signal ended it, and what it wrote. -/
structure Finish where
  code : Option Int := some 0
  output : ByteArray := ⟨#[]⟩
  errors : ByteArray := ⟨#[]⟩

namespace Invocation

def words (i : Invocation) : List String := i.program :: i.arguments

def secretFlags : List String := ["--password", "--secret-access-key", "--access-key"]

/-- A word as it can be shown; a program cannot be given a word with a NUL in it. -/
def shown (word : String) : String :=
  if word.toList.contains '\x00' then "<string-with-nul>" else word

/-- Arguments with every secret hidden. `hide` tells that the first one is a secret. -/
def redact (hide : Bool) : List String → List String
  | [] => []
  | a :: as =>
    if hide then "***" :: redact false as
    else shown a :: redact (secretFlags.contains (shown a)) as

def describe (i : Invocation) : String :=
  String.intercalate " " (shown i.program :: redact false i.arguments)

end Invocation

inductive CommandFailure where
  | spawn (program cause : String)
  | exited (program : String) (code : Int) (errors : String)
  | signalled (program errors : String)
deriving DecidableEq, Repr

namespace CommandFailure

def suffix (errors : String) : String := if errors = "" then "" else ": " ++ errors

def message : CommandFailure → String
  | spawn program cause => program ++ ": " ++ cause
  | exited program code errors =>
    let digits := (if code < 0 then ['-'] else []) ++ decimal code.natAbs
    program ++ " exited with code " ++ String.ofList digits ++ suffix errors
  | signalled program errors => program ++ " was terminated by a signal" ++ suffix errors

end CommandFailure

namespace Invocation

/-- What a program wrote, if it succeeded. The start of the program is given as its outcome, which
may be a refusal. -/
def judge (i : Invocation) : Except String Finish → Except CommandFailure String
  | .error cause => .error (.spawn (shown i.program) cause)
  | .ok finish =>
    let errors := trim (decodeLossy finish.errors)
    match finish.code with
    | some 0 => .ok (decodeLossy finish.output)
    | some code => .error (.exited (shown i.program) code errors)
    | none => .error (.signalled (shown i.program) errors)

end Invocation

end PoolKeeper
