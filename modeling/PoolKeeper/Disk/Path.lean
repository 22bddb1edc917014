/-!
# `PoolKeeper/Disk/Path.lean` — paths as text

A path is text whose components stand between slashes. Empty components count for nothing, and
neither does a dot, except at the very start. Everything here is about the text alone: the parent of
`a/..` is `a`, and a slash at the end changes neither the name nor the parent.
-/

set_option autoImplicit false

namespace PoolKeeper.Path

/-- The pieces between slashes, each with the number of characters up to its end. `current` is the
piece that is being read, in reverse, and `passed` the number of characters before `cs`. -/
def pieces (passed : Nat) (current : List Char) : (cs : List Char) → List (List Char × Nat)
  | [] => [(current.reverse, passed)]
  | c :: cs =>
    if c = '/' then (current.reverse, passed) :: pieces (passed + 1) [] cs
    else pieces (passed + 1) (c :: current) cs

def isAbsolute (path : String) : Bool := path.toList.head? == some '/'

/-- The components of a path, each with the number of characters up to its end. -/
def components (path : String) : List (List Char × Nat) :=
  (pieces 0 [] path.toList).filter fun (name, stop) =>
    -- A dot ends at the first character only if it is the whole start of the path.
    !name.isEmpty && (name != ['.'] || stop == 1)

/-- The path without its last component; a path without components has no parent. -/
def parent? (path : String) : Option String :=
  match (components path).reverse with
  | [] => none
  | _ :: (_, stop) :: _ => some (String.ofList (path.toList.take stop))
  | [_] => some (if isAbsolute path then "/" else "")

def fileName? (path : String) : Option String :=
  match (components path).getLast? with
  | some (name, _) => if name = ['.'] || name = ['.', '.'] then none else some (String.ofList name)
  | none => none

/-- A name up to its last dot; a dot in front is part of the name. -/
def stem (name : List Char) : List Char :=
  match name.reverse.dropWhile (· != '.') with
  | '.' :: c :: rest => (c :: rest).reverse
  | _ => name

/-- The path with what stands after the last dot of its name replaced. A path without a name stays
as it is. -/
def withExtension (path extension : String) : String :=
  match (components path).getLast? with
  | some (name, stop) =>
    if name = ['.'] || name = ['.', '.'] then path
    else
      let kept := path.toList.take (stop - name.length + (stem name).length)
      String.ofList (kept ++ '.' :: extension.toList)
  | none => path

/-- `path` as seen from `base`. -/
def join (base path : String) : String :=
  if isAbsolute path then path
  else if base = "" || base.toList.getLast? == some '/' then base ++ path
  else base ++ "/" ++ path

/-- The steps that a walk along the path takes from where it starts. A slash at the end is a step on
the spot, which only a directory admits. -/
def steps (path : String) : List String :=
  let names := ((pieces 0 [] path.toList).map (·.1)).filter (!·.isEmpty)
  (names ++ if path.toList.getLast? == some '/' then [['.']] else []).map String.ofList

/-- The path without slashes at its end; the root stays. -/
def dropSlashes (path : String) : String :=
  let kept := (path.toList.reverse.dropWhile (· == '/')).reverse
  if kept.isEmpty then path else String.ofList kept

end PoolKeeper.Path
