import ScriptCache.Url.Address
import ScriptCache.Url.Percent

/-!
# URLs

A URL in parts, all of them encoded as they are written. The path of a URL without an authority
may be opaque: it then does not begin with a slash, and the URL is no base for others.
-/

namespace ScriptCache

inductive Host where
  | domain (name : String)
  | ipv4 (a : Ipv4)
  | ipv6 (a : Ipv6)
  deriving DecidableEq, Repr

/-- What stands between the double slash of a URL and its path. A host that is left out is
empty. -/
structure Authority where
  username : String
  password : Option String
  host : Option Host
  /-- None where the scheme has this port by default. -/
  port : Option Nat
  deriving DecidableEq, Repr

structure Url where
  scheme : String
  authority : Option Authority
  path : String
  query : Option String
  fragment : Option String
  deriving DecidableEq, Repr

def Host.text : Host → String
  | .domain name => name
  | .ipv4 a => String.ofList a.text
  | .ipv6 a => "[" ++ String.ofList a.text ++ "]"

/-- Schemes of which the URL syntax knows more: their URLs have a host, and a path with
slashes. -/
inductive SchemeKind where
  | file
  | special
  | other
  deriving DecidableEq, Repr

def SchemeKind.of (scheme : String) : SchemeKind :=
  if scheme = "file" then .file
  else if ["http", "https", "ws", "wss", "ftp"].contains scheme then .special
  else .other

/-- Whether a backslash counts as a slash. -/
def SchemeKind.isSpecial : SchemeKind → Bool
  | .other => false
  | _ => true

def defaultPort? (scheme : String) : Option Nat :=
  [("http", 80), ("ws", 80), ("https", 443), ("wss", 443), ("ftp", 21)].lookup scheme

namespace Authority

def userText (a : Authority) : String :=
  match a.password with
  | none => if a.username.isEmpty then "" else a.username ++ "@"
  | some password => a.username ++ ":" ++ password ++ "@"

def text (a : Authority) : String :=
  a.userText ++ (a.host.elim "" Host.text) ++ a.port.elim "" fun n ↦ ":" ++ toString n

end Authority

namespace Url

def kind (u : Url) : SchemeKind := .of u.scheme

def host (u : Url) : Option Host := u.authority.bind (·.host)

/-- The port, or the one that the scheme has by default. -/
def port? (u : Url) : Option Nat :=
  (u.authority.bind (·.port)).orElse fun _ ↦ defaultPort? u.scheme

/-- The URL without a user name and password. -/
def withoutUser (u : Url) : Url :=
  { u with authority := u.authority.map fun a ↦ { a with username := "", password := none } }

def isOpaque (u : Url) : Bool := u.authority.isNone && !u.path.startsWith "/"

/-- The URL up to its path. Without an authority, a path that begins with two slashes is set off
by a dot, so that it is not taken for one. -/
def textToPath (u : Url) : String :=
  u.scheme ++ ":" ++ match u.authority with
    | some a => "//" ++ a.text
    | none => if u.path.startsWith "//" then "/." else ""

def text (u : Url) : String :=
  u.textToPath ++ u.path ++ (u.query.elim "" ("?" ++ ·)) ++ (u.fragment.elim "" ("#" ++ ·))

end Url

end ScriptCache
