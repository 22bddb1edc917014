import PoolKeeper.CommandLine.Run
import PoolKeeper.Tools.Host

/-!
# `PoolKeeper/Main.lean` — the program

The program copies what a command may look at into a machine: the host file, the state file and its
lock, the spool, and the file that was named. It runs the command there, and puts back what the command
changed. Everything is decided by `Arguments.run`.

It has no means of its own to start other programs. A command that needs one is told that there is
none.
-/

set_option autoImplicit false

namespace PoolKeeper

namespace Shell

/-- Nobody runs programs. -/
def noTools : Tools.Runner Unit := fun _ w => (.error OsError.notFound.message, w)

def after (m : Machine) (step : Files Unit) : Machine := (step.run.run m).2

def withFile (m : Machine) (path : String) (bytes : ByteArray) : Machine :=
  let m := match Path.parent? path with
    | some parent => after m (Files.makeDirectories parent)
    | none => m
  after m (Files.write path bytes)

def copyFile (m : Machine) (path : String) : IO Machine := do
  try return withFile m path (← IO.FS.readBinFile path) catch _ => return m

/-- The names in a directory; nothing, if there is none. -/
def namesIn? (path : String) : IO (Option (List String)) := do
  try
    let entries ← ((← IO.currentDir) / path).readDir
    return some (entries.toList.map (·.fileName))
  catch _ => return none

/-- Copies what is at a path: a file, or a directory with its files. -/
def copy (m : Machine) (path : String) : IO Machine := do
  match ← namesIn? path with
  | none => copyFile m path
  | some names =>
    names.foldlM (fun m name => copyFile m (Path.join path name))
      (after m (Files.makeDirectories path))

def ownPid : IO UInt32 := do
  try return (Lock.holder? ((← IO.FS.readFile "/proc/self/stat").takeWhile (· != ' ')).toString).getD 2
  catch _ => return 2

def clock : IO Nat := do
  let now := (← ((← IO.currentDir) / "/proc/self/stat").metadata).modified
  return now.sec.toNat * nanosPerSecond + now.nsec.toNat

/-- The machine before anything is copied. -/
def machine : IO Machine := do
  let cwd := (← IO.currentDir).toString
  let pid ← ownPid
  let m : Machine := { pid, alive := [pid], clock := ← clock, cwd := (Path.steps cwd).reverse }
  return after m (Files.makeDirectories cwd)

/-- The machine with the holder of a lock, if it is alive. -/
def withHolder (m : Machine) (lock : String) : IO Machine := do
  match ((Files.readText lock).run.run m).1.toOption.bind Lock.holder? with
  | none => return m
  | some pid =>
    let there := (← namesIn? ("/proc/" ++ String.ofList (Text.decimal pid.toNat))).isSome
    return if there then { m with alive := pid :: m.alive } else m

def namedFile : CommandLine.Command → List String
  | .update file => [file]
  | _ => []

/-- The machine with all that a command may look at. -/
def gather (a : CommandLine.Arguments) : IO Machine := do
  let config := a.config.getD CommandLine.hostFile
  let m ← copy (← machine) config
  match ((Settings.load config).run m).1 with
  | .error _ => return m
  | .ok s =>
    let lock := Lock.path s.statePath
    let m ← ([s.statePath, lock, s.spoolDir] ++ namedFile a.command).foldlM copy m
    withHolder m lock

def pathOf (loc : Loc) : String := "/" ++ String.intercalate "/" loc.reverse

/-- The rights that a digit of permissions stands for. -/
def rights (digit : Nat) : IO.AccessRight :=
  ⟨digit / 4 % 2 = 1, digit / 2 % 2 = 1, digit % 2 = 1⟩

def setMode (path : String) (mode : Nat) : IO Unit :=
  IO.setAccessRights path ⟨rights (mode / 64), rights (mode / 8), rights mode⟩

def putBack (loc : Loc) : Entry → IO Unit
  | .directory mode => do
    IO.FS.createDirAll (pathOf loc)
    setMode (pathOf loc) mode
  | .file mode bytes => do
    -- Complete before it has its name, so that nobody reads half of it.
    let complete := pathOf loc ++ ".new"
    IO.FS.writeBinFile complete bytes
    setMode complete mode
    IO.FS.rename complete (pathOf loc)
  | .link _ => return

/-- Makes the disk what it has become. Directories come before what is in them. -/
def settle (before now : Disk) : IO Unit := do
  for (loc, _) in before.entries do
    if (now.get? loc).isNone then IO.FS.removeFile (pathOf loc)
  for (loc, entry) in now.entries.mergeSort fun a b => a.1.length ≤ b.1.length do
    if before.get? loc != some entry then putBack loc entry

def usageText : String :=
  "Usage: poolvault [--config <CONFIG>] <COMMAND>\n\nCommands:\n"
  ++ "  daemon    Connect and run the backup scheduler until signalled\n"
  ++ "  status    Print configuration summary and cycle status\n"
  ++ "  update    Apply a service configuration file\n"
  ++ "  backup    Run one backup cycle now, subject to the maintenance windows\n"
  ++ "  restore   Replace the pool contents with a repository snapshot\n"

def explain (u : CommandLine.Usage) : IO Unit :=
  match u with
  | .help => IO.print usageText
  | .version => IO.println "poolvault 0.1.0"
  | _ => IO.eprint usageText

end Shell

end PoolKeeper

open PoolKeeper in
/-- Runs the command that the words ask for. -/
def main (words : List String) : IO UInt32 := do
  match CommandLine.Arguments.ofWords words with
  | .error u =>
    Shell.explain u
    return UInt32.ofNat u.exitCode
  | .ok a =>
    let machine ← Shell.gather a
    let (ending, w) := a.run (fun s => Tools.host s Tools.machineClock Shell.noTools) 1
      { record := {}, machine, host := () }
    Shell.settle machine.disk w.machine.disk
    IO.print ending.output
    return UInt32.ofNat ending.code
