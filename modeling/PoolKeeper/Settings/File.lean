import PoolKeeper.Config.Form
import PoolKeeper.Disk.Refusal
import PoolKeeper.Settings.Basic
import PoolKeeper.Yaml.Read

/-!
# `PoolKeeper/Settings/File.lean` — the files that an operator writes

The host file, whose absence means all defaults, and the file of a configuration to take over, which
has to be there.
-/

set_option autoImplicit false

namespace PoolKeeper

variable {α : Type} [Source α]

namespace Window

def names : List String :=
  ["name", "startDay", "startHour", "startMinute", "endDay", "endHour", "endMinute"]

def form (w : Window) : Form :=
  let number (n : UInt32) := Form.number n.toNat
  .fields (Form.optional "name" .text w.name
    ++ Form.optional "startDay" .text w.startDay
    ++ [("startHour", number w.startHour), ("startMinute", number w.startMinute)]
    ++ Form.optional "endDay" .text w.endDay
    ++ [("endHour", number w.endHour), ("endMinute", number w.endMinute)])

def ofSource? (a : α) : Option Window := do
  let fields ← Source.fields? names a
  let number (a : α) : Option UInt32 := (Source.word? 32 a).map UInt32.ofNat
  some {
    name := ← Source.optional fields "name" Source.text?
    startDay := ← Source.optional fields "startDay" Source.text?
    startHour := ← Source.required fields "startHour" number
    startMinute := ← Source.orElse fields "startMinute" 0 number
    endDay := ← Source.optional fields "endDay" Source.text?
    endHour := ← Source.required fields "endHour" number
    endMinute := ← Source.orElse fields "endMinute" 0 number }

end Window

namespace HostChoices

def ofSource? (a : α) : Option HostChoices := do
  let fields ← Source.fields? ["statePath", "pool", "cacheDataset", "cacheDir", "spoolDir",
    "pollInterval", "engine", "maintenanceWindows", "units"] a
  let text (name : String) : Option (Option String) := Source.optional fields name Source.text?
  let (selfUnit, services, applications) ← Source.orElse fields "units" (none, [], []) units
  some {
    statePath := ← text "statePath"
    pool := ← text "pool"
    cacheDataset := ← text "cacheDataset"
    cacheDir := ← text "cacheDir"
    spoolDir := ← text "spoolDir"
    pollInterval := ← text "pollInterval"
    engineBinary := ← Source.orElse fields "engine" none engine
    windows := ← Source.orElse fields "maintenanceWindows" [] (Source.listOf Window.ofSource?)
    selfUnit, services, applications }
where
  engine (a : α) : Option (Option String) := do
    Source.optional (← Source.fields? ["binary"] a) "binary" Source.text?
  units (a : α) : Option (Option String × List String × List String) := do
    let fields ← Source.fields? ["self", "services", "applications"] a
    let list (name : String) : Option (List String) :=
      Source.orElse fields name [] (Source.listOf Source.text?)
    some (← Source.optional fields "self" Source.text?, ← list "services", ← list "applications")

end HostChoices

namespace Settings

def Defect.fault (d : Defect) : Fault := Fault.badConfig d.message

def load (path : String) : FileStep Settings := do
  let choices ← match ← (Files.found? path).run with
    -- Only a file that is missing means the defaults. One that is there and cannot be read does not.
    | .ok none | .error .notFound => pure {}
    | _ =>
      let text ← (Files.readText path).orFault .config "read" path
      match Yaml.read? HostChoices.ofSource? text with
      | some choices => pure choices
      | none => throw (Fault.badConfig ("parse config " ++ path ++ ": not a host configuration"))
  match ofChoices choices with
  | .ok s => return s
  | .error d => throw d.fault

end Settings

def Config.load (path : String) : FileStep Config := do
  let text ← (Files.readText path).orFault .config "read" path
  match Yaml.read? Config.ofSource? text with
  | some c => return c
  | none => throw (Fault.badConfig ("parse " ++ path ++ ": not a configuration"))

end PoolKeeper
