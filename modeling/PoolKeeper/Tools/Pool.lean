import PoolKeeper.Disk.Path
import PoolKeeper.Fault
import PoolKeeper.Text.Blank

/-!
# `PoolKeeper/Tools/Pool.lean` — the command lines of the pool, of mirroring and of units

The tools that look after pools, directories and units, and how what they say is read.
-/

set_option autoImplicit false

namespace PoolKeeper

namespace PoolTool

/-- Where a pool is mounted, given the property that says so. A pool without a usable property is
mounted under its name. -/
def effectiveMountpoint (pool property : String) : String :=
  let value := Text.trim property
  if value = "none" || value = "legacy" || value = "-" || value = "" then Path.join "/" pool
  else value

/-- The arguments that ask whether a pool exists. -/
def poolArguments (pool : String) : List String := ["list", "-H", "-o", "name", pool]

/-- The arguments that ask whether a dataset or a snapshot exists. -/
def datasetArguments (name : String) : List String := ["list", "-H", "-t", "all", "-o", "name", name]

def createArguments (dataset : String) (properties : List (String × String)) : List String :=
  "create" :: properties.flatMap (fun (key, value) => ["-o", key ++ "=" ++ value]) ++ [dataset]

def mountpointArguments (pool : String) : List String :=
  ["get", "-H", "-o", "value", "mountpoint", pool]

def fault (what cause : String) : Fault := ⟨.snapshot, what ++ ": " ++ cause⟩

end PoolTool

namespace MirrorTool

/-- The arguments that make a directory equal to another one, up to the excluded names. The slashes at
the ends mean what is in the directories. -/
def arguments (source target : String) (excluded : List String) : List String :=
  ["-a", "--delete"]
  ++ excluded.map (fun name =>
    "--exclude=/" ++ String.ofList (name.toList.dropWhile (· == '/')))
  ++ [source ++ "/", target ++ "/"]

end MirrorTool

end PoolKeeper
