import ScriptCache.Http
import ScriptCache.Http.MediaType
import ScriptCache.Message
import ScriptCache.Watch.Fleet
import ScriptCache.Watch.Local

/-!
# The daemon's HTTP service

What the daemon answers to a request, and what the request does to the cache.
-/

namespace ScriptCache

/-- What a client is told of an outcome. -/
def Outcome.reply (o : Outcome) : CompileReply where
  compiled := o.compiled.length
  failed := o.failed.map fun (path, error) ↦ ⟨path, error⟩

structure Service where
  instanceId : String
  watch : LocalWatch
  fleet : FleetWatch
  deriving DecidableEq, Repr

namespace Service

open Http (Request Response)

/-- The service that settings describe, on a disk. -/
def ofSettings (d : Disk) (s : Settings) (instanceId : String) : Service where
  instanceId
  watch := .ofSettings d s
  fleet := .ofSettings s

inductive Route where
  | health
  | status
  | registry
  | reset
  | compile
  deriving DecidableEq, Repr

namespace Route

def all : List Route := [.health, .status, .registry, .reset, .compile]

def path : Route → String
  | .health => "/healthz"
  | .status => "/v1/status"
  | .registry => registryPath
  | .reset => "/v1/reset"
  | .compile => "/v1/compile"

/-- Whether the route shows something, and does nothing. -/
def isReading : Route → Bool
  | .health | .status | .registry => true
  | .reset | .compile => false

/-- The methods that the route answers to. -/
def methods (r : Route) : List String := if r.isReading then ["GET", "HEAD"] else ["POST"]

end Route

/-- The path in the target of a request: without a query, and without the scheme and host of a
whole URL. -/
def pathOf (target : String) : String :=
  let path := target.toList.takeWhile fun c ↦ c ≠ '?' && c ≠ '#'
  match path.span (· ≠ ':') with
  | (_ :: _, ':' :: '/' :: '/' :: rest) =>
    if path.head? = some '/' then String.ofList path
    else String.ofList (rest.dropWhile (· ≠ '/'))
  | _ => String.ofList path

/-- The answer to a request that failed in the cache. -/
def refusal (e : EngineError) : Response :=
  let status := match e with
    | .notLoaded | .disabled => 503
    | .compileFailed _ _ | .resetRefused => 500
  .json status (ErrorReply.toJson ⟨e.message⟩)

/-- An answer with an explanation of no fixed wording. -/
def complaint (status : Nat) (text : String) : Response where
  status
  contentType := Http.textType
  body := Utf8.encode text

/-- The most bytes that the body of a request may have. -/
def bodyLimit : Nat := 2097152

/-- Reads the body of a request to compile. Without a type it does not count. -/
def readCompileRequest (request : Request) : Except Response CompileRequest :=
  match request.contentType with
  | none => .ok {}
  | some type =>
    if (Http.MediaType.ofText? type).any (·.isJson) then
      if bodyLimit < request.body.length then .error (complaint 413 "the body is too long")
      else match Json.decodeBytes CompileRequest.readJson request.body with
      | .ok r => .ok r
      | .error .malformed => .error (complaint 400 "the body is no JSON")
      | .error .mismatch => .error (complaint 422 "the body is no request to compile")
    else .error (complaint 415 "the body is not declared as JSON")

variable {σ : Type} (s : Service) (d : Disk) (rt : Runtime σ)

/-- The answer of an action on the cache. -/
def answer (action : EngineM σ Json) : StateM σ Response := do
  match ← action.run with
  | .ok body => return .json 200 body
  | .error e => return refusal e

/-- The state of the cache. A cache that is switched off shows no scripts. -/
def statusReply : EngineM σ StatusReply := do
  match ← ExceptT.lift rt.status.run with
  | .ok scripts => return ⟨s.instanceId, true, true, scripts.size⟩
  | .error .disabled => return ⟨s.instanceId, true, false, 0⟩
  | .error e => throw e

def perform (route : Route) (request : Request) : StateM σ Response :=
  match route with
  | .health =>
    return { status := 200, contentType := Http.textType, body := Utf8.encode "ok" }
  | .status => answer do return (← s.statusReply rt).toJson
  | .registry => answer do return (← rt.status).toJson
  | .reset => answer do
      rt.resetAll
      return ResetReply.toJson ⟨true⟩
  | .compile =>
    match readCompileRequest request with
    | .error complaint => return complaint
    | .ok r => answer do
        return (← s.watch.compileAll d rt r.force).reply.toJson

/-- Answers one request. A request for the head of an answer gets it without its body. -/
def handle (request : Request) : StateM σ Response :=
  match Route.all.find? (·.path == pathOf request.target) with
  | none => return { status := 404 }
  | some route =>
    if route.methods.contains request.method then do
      let response ← s.perform d rt route request
      return if request.method == "HEAD" then { response with body := [] } else response
    else return { status := 405, allow := ",".intercalate route.methods }

end Service

end ScriptCache
