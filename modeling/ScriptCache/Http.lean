import ScriptCache.Json
import ScriptCache.Text.Utf8
import ScriptCache.Url

/-!
# HTTP requests and answers

What the daemon and its clients need of HTTP: requests, answers with their status codes, and the
ways in which a request can fail before there is an answer.
-/

namespace ScriptCache.Http

structure Request where
  /-- In upper case, if it is one of the usual methods. -/
  method : String
  /-- The path with the query, or a whole URL. -/
  target : String
  contentType : Option String := none
  body : List UInt8 := []
  deriving DecidableEq, Repr

structure Response where
  status : Nat
  contentType : Option String := none
  /-- The methods that the target answers to. -/
  allow : Option String := none
  body : List UInt8 := []
  deriving DecidableEq, Repr

def jsonType : String := "application/json"

def textType : String := "text/plain; charset=utf-8"

def Response.isSuccess (r : Response) : Bool := 200 ≤ r.status && r.status < 300

/-- An answer with a JSON body. -/
def Response.json (status : Nat) (body : Json) : Response where
  status
  contentType := jsonType
  body := Utf8.encode body.compact

/-- Why there is no answer. -/
inductive NetworkError where
  /-- HTTP does not fetch such URLs. -/
  | badScheme
  /-- The name of the host leads nowhere. -/
  | unknownHost
  | unreachable
  | refused
  deriving DecidableEq, Repr

/-- The failure of a request to a URL, and its causes. -/
def NetworkError.messages (url : Url) : NetworkError → List String
  | .badScheme => ["builder error for url (" ++ url.text ++ ")", "URL scheme is not allowed"]
  | .unknownHost => [sending, "client error (Connect)", "dns error",
      "failed to lookup address information: Temporary failure in name resolution"]
  | .unreachable => [sending, "client error (Connect)", "tcp connect error",
      "Network is unreachable (os error 101)"]
  | .refused => [sending, "client error (Connect)", "tcp connect error",
      "Connection refused (os error 111)"]
where
  sending : String := "error sending request for url (" ++ url.text ++ ")"

/-- A way to send requests, which may act on a state. -/
abbrev Network (σ : Type) := Url → Request → StateM σ (Except NetworkError Response)

def isFetchable (url : Url) : Bool :=
  (url.scheme == "http" || url.scheme == "https") && url.host.isSome

/-- Sends a request to a URL. -/
def send {σ : Type} (net : Network σ) (url : Url) (request : Request) :
    StateM σ (Except NetworkError Response) :=
  if isFetchable url then net url request else pure (.error .badScheme)

/-- What a request for a URL asks its host for. -/
def targetOf (url : Url) : String := url.path ++ url.query.elim "" ("?" ++ ·)

end ScriptCache.Http
