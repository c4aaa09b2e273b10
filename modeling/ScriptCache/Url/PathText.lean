import ScriptCache.Url

/-!
# Paths of URLs

A path is read segment by segment. Dots that stand for this directory or its parent are resolved
at once, also where they are percent-encoded. A drive letter at the front of a path is never
taken away.
-/

namespace ScriptCache.UrlPath

/-- A letter and a colon or a bar. -/
def isDriveLetter : List Char → Bool
  | [c, mark] => c.isAlpha && (mark = ':' || mark = '|')
  | _ => false

def isNormalDriveLetter : List Char → Bool
  | [c, mark] => c.isAlpha && mark = ':'
  | _ => false

/-- Whether a path begins with a drive letter as its first segment. -/
def startsWithDrive : List Char → Bool
  | '/' :: c :: mark :: rest =>
    isDriveLetter [c, mark] && (rest.head?.all fun d ↦ ['/', '\\', '?', '#'].contains d)
  | _ => false

def isSingleDot (segment : List Char) : Bool :=
  let lower := segment.map Char.toLower
  lower = ['.'] || lower = ['%', '2', 'e']

def isDoubleDot (segment : List Char) : Bool :=
  let dot : List (List Char) := [['.'], ['%', '2', 'e']]
  let lower := segment.map Char.toLower
  dot.any fun a ↦ dot.any fun b ↦ lower = a ++ b

/-- What stands behind the last slash. -/
def lastSegment (path : List Char) : List Char := (path.reverse.takeWhile (· ≠ '/')).reverse

/-- The path up to and with its last slash. -/
def directory (path : List Char) : List Char := (path.reverse.dropWhile (· ≠ '/')).reverse

def endsWithSlash (path : List Char) : Bool := path.getLast? = some '/'

/-- Leaves a directory. `path` ends where the double dot began. -/
def leave (file : Bool) (path : List Char) : List Char :=
  let shorter :=
    if endsWithSlash path then
      let before := path.dropLast
      let root := directory before
      if root.isEmpty || startsWithDrive (path.drop (root.length - 1)) then path else before
    else path
  if file && isNormalDriveLetter (lastSegment shorter) then shorter else directory shorter

/-- A path as far as it was read, and whether a drive letter was read at its front. -/
structure Progress where
  path : List Char
  drive : Bool
  deriving DecidableEq, Repr

/-- Adds a segment; `closed` says whether a slash stands behind it. -/
def Progress.add (kind : SchemeKind) (p : Progress) (segment : List Char) (closed : Bool) :
    Progress :=
  let file := kind = .file
  let slash := if closed then ['/'] else []
  let encoded := Percent.encode Percent.path segment
  if isDoubleDot encoded then
    let path := leave file p.path
    { p with path := if closed && !endsWithSlash path then path ++ ['/'] else path }
  else if isSingleDot encoded then
    { p with path := if endsWithSlash p.path then p.path else p.path ++ ['/'] }
  else if file && p.path = ['/'] && isDriveLetter encoded then
    { path := p.path ++ encoded.take 1 ++ [':'] ++ slash, drive := true }
  else if file && p.path = ['/'] && isNormalDriveLetter (encoded.take 2) then
    { p with path := p.path ++ encoded.take 2 ++ ['/'] ++ encoded.drop 2 ++ slash }
  else { p with path := p.path ++ encoded ++ slash }

def Progress.addAll (kind : SchemeKind) : Progress → List (List Char) → Progress
  | p, [] => p
  | p, [last] => p.add kind last false
  | p, segment :: segments => addAll kind (p.add kind segment true) segments

/-- The parts of a path between its slashes. -/
def segments (kind : SchemeKind) (s : List Char) : List (List Char) :=
  s.splitOnP fun c ↦ c = '/' || (kind.isSpecial && c = '\\')

/-- Reads `s` behind the path `start`. The path of a file has one slash at its front. -/
def read (kind : SchemeKind) (start s : List Char) : Progress :=
  let p := Progress.addAll kind ⟨start, false⟩ (segments kind s)
  if kind = .file then { p with path := '/' :: p.path.dropWhile (· = '/') } else p

/-- Reads a path behind a host that is not empty. Special URLs always have a path. -/
def readBehindHost (kind : SchemeKind) (s : List Char) : Progress :=
  match kind, s with
  | .other, [] => read kind [] []
  | .other, c :: _ => read kind (if c = '/' then [] else ['/']) s
  | _, c :: rest => if c = '/' ∨ c = '\\' then read kind ['/'] rest else read kind ['/'] s
  | _, [] => read kind ['/'] []

end ScriptCache.UrlPath
