import ScriptCache.Registry

/-!
# The cache behind one door

A runtime is a cache of compiled scripts, as its host exposes it. Every use of a cache goes
through the operations here, which first make sure that it is there and switched on. Availability
is asked anew before every call, since a call may change it.
-/

namespace ScriptCache

/-- A cache of compiled scripts whose state is a `σ`. -/
structure Runtime (σ : Type) where
  /-- Whether there is a cache at all. -/
  loaded : StateM σ Bool
  /-- Whether the cache is switched on. -/
  enabled : StateM σ Bool
  /-- The cached scripts. -/
  scripts : StateM σ Registry
  /-- Compiles one file into the cache, or says why not. -/
  compile : Path → StateM σ (Except String Unit)
  /-- Drops all cached scripts, unless the runtime refuses. -/
  reset : StateM σ Bool

inductive EngineError where
  | notLoaded
  | disabled
  | compileFailed (path : Path) (reason : String)
  | resetRefused
  deriving DecidableEq, Repr

def EngineError.message : EngineError → String
  | .notLoaded => "opcode cache extension is not loaded"
  | .disabled => "opcode cache is disabled"
  | .compileFailed path reason => "compile " ++ path ++ ": " ++ reason
  | .resetRefused => "opcode cache refused to reset"

abbrev EngineM (σ : Type) := ExceptT EngineError (StateM σ)

/-- What became of a list of files that were to be compiled. -/
structure Outcome where
  compiled : List Path := []
  /-- Files with the reason why they were not compiled. -/
  failed : List (Path × String) := []
  deriving DecidableEq, Repr, Inhabited

namespace Outcome

/-- Puts the result of one more file in front. -/
def cons (p : Path) (verdict : Except String Unit) (o : Outcome) : Outcome :=
  match verdict with
  | .ok () => { o with compiled := p :: o.compiled }
  | .error reason => { o with failed := (p, reason) :: o.failed }

end Outcome

namespace Runtime

variable {σ : Type} (rt : Runtime σ)

/-- Goes on only if there is a cache. -/
def requireLoaded : EngineM σ Unit := do
  unless ← rt.loaded do throw .notLoaded

/-- Goes on only if there is a cache and it is switched on. -/
def requireActive : EngineM σ Unit := do
  rt.requireLoaded
  unless ← rt.enabled do throw .disabled

/-- The cached scripts of an active cache. -/
def status : EngineM σ Registry := do
  rt.requireActive
  rt.scripts

/-- Has an active cache compile a file, and passes on what it says. -/
def attempt (p : Path) : EngineM σ (Except String Unit) := do
  rt.requireActive
  rt.compile p

def compileOne (p : Path) : EngineM σ Unit := do
  match ← rt.attempt p with
  | .ok () => pure ()
  | .error reason => throw (.compileFailed p reason)

/-- Compiles one file after the other. Only an inactive cache ends this early. -/
def compileMany : List Path → EngineM σ Outcome
  | [] => pure {}
  | p :: paths => do
    let verdict ← rt.attempt p
    let outcome ← compileMany paths
    return outcome.cons p verdict

/-- Drops all scripts of an active cache. -/
def resetAll : EngineM σ Unit := do
  rt.requireActive
  unless ← rt.reset do throw .resetRefused

end Runtime

end ScriptCache
