import ScriptCache.Url.Domain
import ScriptCache.Url.PathText

/-!
# Reading URLs

`Url.parse?` reads an absolute URL. Blanks and control characters around it do not count, nor do
tabs and line ends inside.
-/

namespace ScriptCache.Url

def isEdge (c : Char) : Bool := c.toNat ≤ 0x20

/-- The characters of a URL that count. -/
def significant (s : List Char) : List Char :=
  ((s.dropWhile isEdge).reverse.dropWhile isEdge).reverse.filter fun c ↦
    c ≠ '\t' && c ≠ '\n' && c ≠ '\r'

def isSchemeChar (c : Char) : Bool := c.isAlphanum || c = '+' || c = '-' || c = '.'

/-- The scheme in lower case, and what stands behind its colon. -/
def splitScheme? (s : List Char) : Option (List Char × List Char) :=
  let name := s.takeWhile isSchemeChar
  match s.dropWhile isSchemeChar with
  | ':' :: rest => if name.head?.any Char.isAlpha then some (name.map Char.toLower, rest) else none
  | _ => none

/-- Whether a character ends the authority. -/
def endsAuthority (kind : SchemeKind) (c : Char) : Bool :=
  c = '/' || c = '?' || c = '#' || (kind.isSpecial && c = '\\')

def encodeText (set : Percent.EncodeSet) (s : List Char) : String :=
  String.ofList (Percent.encode set s)

/-- The user name and the password in front of the last `@`. The first colon stands between
them. -/
def readUser (s : List Char) : String × Option String :=
  let (name, password) := s.span (· ≠ ':')
  (encodeText Percent.userinfo name,
    if password.tail.isEmpty then none else some (encodeText Percent.userinfo password.tail))

/-- Splits at the last `@`. -/
def splitUser (s : List Char) : Option (List Char × List Char) :=
  let (host, user) := s.reverse.span (· ≠ '@')
  match user with
  | [] => none
  | _ :: user => some (user.reverse, host.reverse)

/-- The host at the front, up to a colon that is not in square brackets. -/
def splitHost (bracketed : Bool) : List Char → List Char × List Char
  | [] => ([], [])
  | c :: rest =>
    if c = ':' ∧ ¬bracketed then ([], c :: rest)
    else
      let (host, after) := splitHost (c = '[' || (bracketed && c ≠ ']')) rest
      (c :: host, after)

def bracketed? : List Char → Option (List Char)
  | '[' :: rest => some rest
  | _ => none

def readIpv6 (inside : List Char) : Option Host := do
  if inside.getLast? = some ']' then
    some (.ipv6 (← Ipv6.ofText? inside.dropLast))
  else none

def isForbiddenOpaque (c : Char) : Bool :=
  c.toNat = 0 || ['\t', '\n', '\r', ' ', '#', '/', ':', '<', '>', '?', '@', '[', '\\', ']', '^', '|'].contains c

/-- The host of a scheme that is not special. An empty one is no host. -/
def readOpaqueHost (s : List Char) : Option (Option Host) :=
  match bracketed? s with
  | some inside => (readIpv6 inside).map some
  | none =>
    if s.any isForbiddenOpaque then none
    else if s.isEmpty then some none
    else some (some (.domain (encodeText Percent.controls s)))

def readDomainHost (s : List Char) : Option Host :=
  match bracketed? s with
  | some inside => readIpv6 inside
  | none => do
    let name ← Domain.ofBytes? (Percent.decode s)
    if Ipv4.isNumeric name then some (.ipv4 (← Ipv4.ofName? name))
    else some (.domain (String.ofList name))

/-- The port behind the colon, if there is one. -/
def readPort (scheme : String) (s : List Char) : Option (Option Nat) :=
  let digits := s.takeWhile Text.isDigit
  match s.dropWhile Text.isDigit with
  | [] =>
    let port := Text.decimal digits
    if 65535 < port then none
    else if digits.isEmpty ∨ defaultPort? scheme = some port then some none
    else some (some port)
  | _ => none

/-- The query and the fragment, each behind its mark. -/
def readTail (kind : SchemeKind) (s : List Char) : Option String × Option String :=
  let set := if kind.isSpecial then Percent.specialQuery else Percent.query
  match s with
  | '#' :: fragment => (none, some (encodeText Percent.fragment fragment))
  | '?' :: rest =>
    let (query, fragment) := rest.span (· ≠ '#')
    (some (encodeText set query),
      if fragment.isEmpty then none else some (encodeText Percent.fragment fragment.tail))
  | _ => (none, none)

/-- Splits in front of the query or the fragment. -/
def splitTail (s : List Char) : List Char × List Char := s.span fun c ↦ c ≠ '?' && c ≠ '#'

def readHost (kind : SchemeKind) (s : List Char) : Option (Option Host) :=
  if kind = .special then (readDomainHost s).map some else readOpaqueHost s

/-- The authority of a user, a host and a port. Where there is no host, there is nothing else. -/
def joinAuthority? (user : String × Option String) (host : Option Host) (port : Option Nat)
    (hasPort : Bool) : Option Authority :=
  if host.isNone ∧ (¬user.1.isEmpty ∨ user.2.isSome ∨ hasPort) then none
  else some ⟨user.1, user.2, host, port⟩

/-- Reads an authority from its parts. The port comes with its colon. -/
def authority? (scheme : String) (kind : SchemeKind) (user host port : List Char) :
    Option Authority := do
  let number ← if port.isEmpty then some none else readPort scheme port.tail
  joinAuthority? (readUser user) (← readHost kind host) number !port.isEmpty

/-- Reads what stands behind the slashes that begin an authority. -/
def readAuthority (scheme : String) (kind : SchemeKind) (s : List Char) : Option Url :=
  let (front, rest) := s.span (!endsAuthority kind ·)
  let (user, hostPort) := (splitUser front).getD ([], front)
  let (hostText, portText) := splitHost false hostPort
  let (portText, behindPort) := portText.span (· ≠ '\\')
  let (pathText, tail) := splitTail (behindPort ++ rest)
  let (query, fragment) := readTail kind tail
  if (splitUser front).isSome ∧ user.isEmpty ∧ hostPort.isEmpty ∧ ¬rest.isEmpty then none
  else
    (authority? scheme kind user hostText portText).map fun authority ↦
      ⟨scheme, some authority, String.ofList (UrlPath.readBehindHost kind pathText).path, query,
        fragment⟩

/-- Reads a URL of a scheme that is not special and has no authority. -/
def readPlain (scheme : String) (s : List Char) : Url :=
  let (pathText, tail) := splitTail s
  let path := match pathText with
    | '/' :: rest => (UrlPath.read .other ['/'] rest).path
    | _ => Percent.encode Percent.controls pathText
  let (query, fragment) := readTail .other tail
  ⟨scheme, none, String.ofList path, query, fragment⟩

def isSlash (c : Char) : Bool := c = '/' || c = '\\'

/-- The URL of a file. Its host is left out when the path begins with a drive letter. -/
def ofFile (host : Option Host) (p : UrlPath.Progress) (tail : List Char) : Url :=
  let (query, fragment) := readTail .file tail
  ⟨"file", some ⟨"", none, if p.drive then none else host, none⟩, String.ofList p.path, query,
    fragment⟩

/-- Reads the host of a file, which is left out when it is this machine. -/
def readFileHost (s : List Char) : Option (Option Host) :=
  if s.isEmpty then some none
  else (readDomainHost s).map fun h ↦ if h = .domain "localhost" then none else some h

/-- Reads the path of a file without a host. -/
def readFilePath (s : List Char) : Url :=
  let (pathText, tail) := splitTail s
  ofFile none (UrlPath.read .file (if s.head?.any isSlash then [] else ['/']) pathText) tail

/-- Reads the URL of a file. -/
def readFile (s : List Char) : Option Url :=
  match s with
  | a :: b :: rest =>
    if isSlash a ∧ isSlash b then
      let (hostText, after) := rest.span fun c ↦ !endsAuthority .file c
      if UrlPath.isDriveLetter hostText then
        let (pathText, tail) := splitTail rest
        some (ofFile none (UrlPath.read .file ['/'] pathText) tail)
      else
        let (pathText, tail) := splitTail after
        (readFileHost hostText).map fun host ↦ ofFile host (UrlPath.read .file [] pathText) tail
    else some (readFilePath s)
  | s => some (readFilePath s)

/-- Reads an absolute URL. -/
def parse? (text : String) : Option Url := do
  let (scheme, rest) ← splitScheme? (significant text.toList)
  let scheme := String.ofList scheme
  match SchemeKind.of scheme with
  | .file => readFile rest
  | .special => readAuthority scheme .special (rest.dropWhile isSlash)
  | .other =>
    match rest with
    | '/' :: '/' :: rest => readAuthority scheme .other rest
    | rest => some (readPlain scheme rest)

/-- Puts the path, query and fragment of `other` behind the authority of `u`. They are encoded as
the scheme of `u` demands. -/
def withTailOf (u other : Url) : Url :=
  let set := if u.kind.isSpecial then Percent.specialQuery else Percent.query
  { u with
    path := String.ofList (UrlPath.readBehindHost u.kind other.path.toList).path
    query := other.query.map fun q ↦ encodeText set q.toList
    fragment := other.fragment.map fun f ↦ encodeText Percent.fragment f.toList }

/-- The URL of an absolute path under the same authority. An opaque URL is no base. Of a file, the
drive letter at the front of its path is kept in place of its host. -/
def withPath? (u : Url) (path : String) : Option Url :=
  let bare := { u with path := path, query := none, fragment := none }
  let front := u.path.toList.tail.takeWhile (· ≠ '/')
  if u.isOpaque then none
  else if u.kind = .file ∧ UrlPath.isNormalDriveLetter front then
    some { bare with
      authority := some ⟨"", none, none, none⟩
      path := String.ofList ('/' :: front) ++ path }
  else some bare

end ScriptCache.Url
