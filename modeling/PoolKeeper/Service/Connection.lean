import PoolKeeper.Service.Basic

/-!
# `PoolKeeper/Service/Connection.lean` — the session with the repository

`Service.ensureConnected` opens a session for the configuration of the record, and makes the
repository if there is none to connect to. A session that is open stays as it is; whatever invalidates
it has cleared the flag before. The engine's cache is a dataset of its own, beside what is backed up,
and is made on the way.
-/

set_option autoImplicit false

namespace PoolKeeper.Service

open Operation

variable {σ : Type}

def prepareCache : Operation σ (Except Fault Unit) := do
  let s ← settings
  if ← call (.datasetExists (s.pool ++ "/" ++ s.cacheDataset)) then return .ok ()
  call (.createDataset s.pool s.cacheDataset [("mountpoint", s.cacheDir), ("canmount", "on")])

/-- Connects to the repository; if that fails, makes it and tries once more. -/
def connectOrCreate (store : Store) (password : String) : Operation σ (Except Fault Unit) := do
  match ← call (.connect store password) with
  | .ok () => return .ok ()
  | .error first =>
    let second ← match ← call (.create store password) with
      | .ok () => call (.connect store password)
      | .error f => pure (.error f)
    return second.mapError fun f =>
      ⟨.repository, "connect: " ++ first.message ++ "; create: " ++ f.message⟩

def disconnected {α : Type} (what : String) (f : Fault) : Operation σ α := do
  update fun r => (r.setConnected false).say (what ++ ": " ++ f.message)
  throw f

def ensureConnected : Operation σ Unit := do
  let r ← record
  match r.config.validate with
  | .error defect => disconnected "Backend configuration invalid" defect.fault
  | .ok store =>
    -- A configuration that became invalid ends the session; one that is valid leaves it as it is.
    if r.status.connected then return
    match ← prepareCache with
    | .error f => disconnected "Failed to prepare cache dataset" f
    | .ok () =>
      match ← connectOrCreate store r.config.password with
      | .error f => disconnected "Failed to connect or initialize repository" f
      | .ok () => update fun r => (r.setConnected true).say "Repository connected"

end PoolKeeper.Service
