/-!
# `PoolKeeper/Fault.lean` — what can go wrong, and what is said about it

A fault has a kind, which decides what a caller may do about it (a broken configuration ends the
program with its own exit code, a failed upload drops the repository session), and a detail for the
operator. Each kind has a fixed lead-in before the detail; four of them have none.

Where the program itself finds the cause, a type of its own names it beside the check (`Span.Defect`,
`Backend.Defect`, …), and the detail is that cause in words.
-/

set_option autoImplicit false

namespace PoolKeeper

namespace Fault

/-- The kinds of fault, by who has to act on them. -/
inductive Kind where
  /-- The configuration, or a request for a change of it, cannot be used. -/
  | config
  /-- No session with the repository could be opened, nor the repository created. -/
  | repository
  /-- The pool refused a snapshot operation. -/
  | snapshot
  /-- A snapshot exists and its read-only view does not. -/
  | viewMissing
  /-- The backup engine failed. -/
  | engine
  /-- A backup was asked for and may not start now. -/
  | backupRefused
  /-- A restore was asked for and may not start now. -/
  | restoreRefused
  /-- A step of a restore failed. -/
  | restoreStep
  /-- The record or the spool could not be read or written. -/
  | state
  /-- The operating system refused something. -/
  | system
deriving DecidableEq, Repr

/-- What a message of the kind starts with. -/
def Kind.leadIn : Kind → String
  | config | backupRefused | restoreRefused | restoreStep | system => ""
  | repository => "repository unavailable: "
  | snapshot => "snapshot "
  | viewMissing => "snapshot path does not exist: "
  | engine => "backup engine: "
  | state => "state "

end Fault

structure Fault where
  kind : Fault.Kind
  detail : String
deriving DecidableEq, Repr

namespace Fault

def message (f : Fault) : String := f.kind.leadIn ++ f.detail

def badConfig (detail : String) : Fault := ⟨.config, detail⟩

/-- The fault and what caused it, outermost first. The system's refusals are causes of their own
and say the same again. -/
def causes (f : Fault) : List String :=
  if f.kind = .system then [f.message, f.detail] else [f.message]

/-- A fault met on the way to something, told from the outside in: each context, the innermost
last, and then the fault with its causes. -/
def inContext (contexts : List String) (f : Fault) : String :=
  String.intercalate ": " (contexts.reverse ++ f.causes)

/-- The status a program ends with after the fault: 2 asks for a better configuration, 1 is any
other failure. -/
def exitCode (f : Fault) : Nat := if f.kind = .config then 2 else 1

end Fault

end PoolKeeper
