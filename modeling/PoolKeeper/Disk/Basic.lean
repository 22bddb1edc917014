import PoolKeeper.Disk.Path

/-!
# `PoolKeeper/Disk/Basic.lean` — directories, files and links

A disk is a table from places to what is there. A place is the list of names that lead to it, the
innermost first, so the directory that holds a place is its tail, and the root is the empty list and
always there. Two operations change the table, `put` and `clear`, and each touches one place.

`resolve` walks a path. Links are followed on the way, and at the end if the caller wants; what it
gives is a place whose directory exists, whether or not anything is at the place itself.
-/

set_option autoImplicit false

namespace PoolKeeper

inductive OsError where
  | notFound
  /-- The file is no program. -/
  | notPermitted
  | busy
  | alreadyExists
  | notDirectory
  | isDirectory
  | nameTooLong
  | tooManyLinks
  | nulInPath
  /-- The bytes of a file are not text. -/
  | notText
deriving DecidableEq, Repr

def OsError.message : OsError → String
  | notFound => "No such file or directory (os error 2)"
  | notPermitted => "Permission denied (os error 13)"
  | busy => "Device or resource busy (os error 16)"
  | alreadyExists => "File exists (os error 17)"
  | notDirectory => "Not a directory (os error 20)"
  | isDirectory => "Is a directory (os error 21)"
  | nameTooLong => "File name too long (os error 36)"
  | tooManyLinks => "Too many levels of symbolic links (os error 40)"
  | nulInPath => "file name contained an unexpected NUL byte"
  | notText => "stream did not contain valid UTF-8"

/-- A place: the names that lead to it from the root, the innermost first. -/
abbrev Loc := List String

inductive Entry where
  | file (mode : Nat) (bytes : ByteArray)
  | directory (mode : Nat)
  | link (target : String)

def Entry.isDirectory : Entry → Bool
  | directory _ => true
  | _ => false

instance : BEq Entry where
  beq
    | .file mode bytes, .file mode' bytes' => mode == mode' && bytes.data == bytes'.data
    | .directory mode, .directory mode' => mode == mode'
    | .link target, .link target' => target == target'
    | _, _ => false

/-- The permissions that new directories and new files have. -/
def Entry.newDirectory : Entry := .directory 0o755
@[inherit_doc Entry.newDirectory]
def Entry.newFile (bytes : ByteArray) : Entry := .file 0o644 bytes

/-- A file that is its owner's alone. -/
def Entry.privateFile (bytes : ByteArray) : Entry := .file 0o600 bytes

structure Disk where
  entries : List (Loc × Entry) := []

namespace Disk

def get? (d : Disk) (loc : Loc) : Option Entry :=
  if loc = [] then some .newDirectory else d.entries.lookup loc

/-- The disk with something put at the place, instead of what was there. -/
def put (d : Disk) (loc : Loc) (e : Entry) : Disk :=
  ⟨(loc, e) :: d.entries.filter fun x => x.1 ≠ loc⟩

def clear (d : Disk) (loc : Loc) : Disk := ⟨d.entries.filter fun x => x.1 ≠ loc⟩

/-- The disk with nothing at the place or below it. -/
def clearTree (d : Disk) (loc : Loc) : Disk := ⟨d.entries.filter fun x => !loc.isSuffixOf x.1⟩

/-- The names in the directory at the place. -/
def names (d : Disk) (loc : Loc) : List String :=
  d.entries.filterMap fun x => match x.1 with
    | name :: dir => if dir = loc then some name else none
    | [] => none

/-! ## Walking -/

/-- How far a walk came before it met a link. -/
inductive Leg where
  | finished (loc : Loc)
  | atLink (dir : Loc) (target : String) (rest : List String)

def maxLinks : Nat := 40

/-- How long a name and a path may be, in bytes. -/
def maxName : Nat := 255
@[inherit_doc maxName]
def maxPath : Nat := 4095

/-- A walk from a directory up to its end or the next link that is to be followed. -/
def leg (d : Disk) (follow : Bool) (dir : Loc) : List String → Except OsError Leg
  | [] => .ok (.finished dir)
  | name :: rest =>
    if name = "." then leg d follow dir rest
    else if name = ".." then leg d follow dir.tail rest
    else if name.utf8ByteSize > maxName then .error .nameTooLong
    else
      match d.get? (name :: dir) with
      | none => if rest.isEmpty then .ok (.finished (name :: dir)) else .error .notFound
      | some (.directory _) => leg d follow (name :: dir) rest
      | some (.file ..) => if rest.isEmpty then .ok (.finished (name :: dir)) else .error .notDirectory
      | some (.link target) =>
        if rest.isEmpty && !follow then .ok (.finished (name :: dir))
        else .ok (.atLink dir target rest)

/-- A walk from a directory to its end, following at most `links` links. -/
def walk (d : Disk) (follow : Bool) : (links : Nat) → Loc → List String → Except OsError Loc
  | links, dir, path =>
    match d.leg follow dir path with
    | .error e => .error e
    | .ok (.finished loc) => .ok loc
    | .ok (.atLink dir target rest) =>
      match links with
      | 0 => .error .tooManyLinks
      | links + 1 =>
        -- The way goes on with the steps of the link before those that were left.
        if target = "" then .error .notFound
        else d.walk follow links (if Path.isAbsolute target then [] else dir) (Path.steps target ++ rest)

/-- Whether the place is a directory, and so is every place on the way to it. -/
def stands (d : Disk) : Loc → Bool
  | [] => true
  | name :: dir => (d.get? (name :: dir)).any Entry.isDirectory && d.stands dir

/-- The place that a path leads to from a directory. A directory that is gone leads nowhere. -/
def resolve (d : Disk) (cwd : Loc) (follow : Bool) (path : String) : Except OsError Loc :=
  let start := if Path.isAbsolute path then [] else cwd
  if path.toList.contains '\x00' then .error .nulInPath
  else if path = "" then .error .notFound
  else if path.utf8ByteSize > maxPath then .error .nameTooLong
  else if d.stands start then d.walk follow maxLinks start (Path.steps path)
  else .error .notFound

end Disk

end PoolKeeper
