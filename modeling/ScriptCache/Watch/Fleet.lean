import ScriptCache.Http
import ScriptCache.Http.Status
import ScriptCache.Message
import ScriptCache.Reconcile.Apply
import ScriptCache.Resolver
import ScriptCache.Settings

/-!
# Polling a peer

A fleet watch asks a peer for its registry. Where the peer records a later time for a script than
this cache does, the script is stale here. A peer that does not answer is left alone for a cycle.
-/

namespace ScriptCache

/-- The path under which a daemon shows its registry. -/
def registryPath : String := "/v1/registry"

/-- Why a peer's registry could not be had. -/
inductive FetchError where
  | transport (url : Url)
  | status (url : Url) (code : Nat)
  | decode (url : Url)
  deriving DecidableEq, Repr

def FetchError.message : FetchError → String
  | .transport url => "request to " ++ url.text
  | .status url code => url.text ++ " answered " ++ Http.statusText code
  | .decode url => "malformed registry from " ++ url.text

inductive FleetCycle where
  /-- The peer's address leads nowhere. -/
  | unresolvable
  | unreachable (e : FetchError)
  | reconciled (report : Report)
  deriving DecidableEq, Repr

structure FleetWatch where
  resolver : Resolver
  /-- The address of the peer's registry. -/
  target : String
  useCanonicalHost : Bool
  resetThreshold : Nat
  deriving DecidableEq, Repr

namespace FleetWatch

/-- The registry that the settings name: that of the peer, or else the own one. -/
def targetOf (s : Settings) : String :=
  s.fleet.peerUrl.getD
    (String.ofList (s.server.ownUrl.toList.reverse.dropWhile (· = '/')).reverse ++ registryPath)

def ofSettings (s : Settings) : FleetWatch where
  resolver := ⟨s.server.canonicalUrl⟩
  target := targetOf s
  useCanonicalHost := s.fleet.useCanonicalHost
  resetThreshold := s.fleet.resetThreshold

def address? (w : FleetWatch) : Option Url := w.resolver.resolve w.target w.useCanonicalHost

/-- The registry in an answer. -/
def readAnswer (url : Url) : Except Http.NetworkError Http.Response → Except FetchError Registry
  | .error _ => .error (.transport url)
  | .ok answer =>
    if answer.isSuccess then
      (Json.decodeBytes Registry.readJson answer.body).mapError fun _ ↦ .decode url
    else .error (.status url answer.status)

variable {σ : Type}

/-- Compares the peer's registry with the cache once, and acts on it. -/
def reconcile (w : FleetWatch) (rt : Runtime σ) (remote : Registry) : EngineM σ Report := do
  let scripts ← rt.status
  (Plan.of (staleAgainst remote scripts) [] w.resetThreshold).apply rt

/-- Asks the peer once, and acts on its answer. -/
def cycle (w : FleetWatch) (net : Http.Network σ) (rt : Runtime σ) : EngineM σ FleetCycle := do
  match w.address? with
  | none => return .unresolvable
  | some url =>
    let answer ← Http.send net url { method := "GET", target := Http.targetOf url }
    match readAnswer url answer with
    | .error e => return .unreachable e
    | .ok remote => return .reconciled (← w.reconcile rt remote)

end FleetWatch

end ScriptCache
