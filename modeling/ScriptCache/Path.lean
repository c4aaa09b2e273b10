/-!
# File paths

A path is kept as it was written. What it names is read off its segments: the parts between
slashes, where empty parts and `.` do not count.
-/

namespace ScriptCache

abbrev Path := String

namespace Path

def segments (p : Path) : List String := (p.toList.splitOn '/').map String.ofList

def isAbsolute (p : Path) : Bool := p.startsWith "/"

/-- A segment that stays in the directory it stands in. -/
def isTrivial (segment : String) : Bool := segment == "" || segment == "."

/-- The last segment that counts, unless it is `..`. -/
def fileName? (p : Path) : Option String :=
  match p.segments.reverse.dropWhile isTrivial with
  | [] => none
  | name :: _ => if name == ".." then none else some name

/-- What stands before the segments of a path: its root, or the `.` it starts with. -/
def anchor (p : Path) : String :=
  if p.isAbsolute then "/" else if p == "." || p.startsWith "./" then "." else ""

/-- The paths above one, nearest first, from its segments in reverse. -/
def ancestorsOf (anchor : String) (reversed : List String) : List Path :=
  match _rest : reversed.dropWhile isTrivial with
  | [] => if anchor == "." then [""] else []
  | _ :: before =>
    let above := before.dropWhile isTrivial
    (anchor ++ "/".intercalate above.reverse) :: ancestorsOf anchor above
termination_by reversed.length
decreasing_by
  have rest := (List.dropWhile_suffix (l := reversed) isTrivial).length_le
  have above := (List.dropWhile_suffix (l := before) isTrivial).length_le
  rw [_rest, List.length_cons] at rest
  omega

/-- The paths of the directories above a path, nearest first. -/
def ancestors (p : Path) : List Path :=
  let anchor := p.anchor
  ancestorsOf anchor (segments (String.ofList (p.toList.drop anchor.length))).reverse

/-- The path without its last segment and the separators around it. -/
def parent? (p : Path) : Option Path := p.ancestors.head?

/-- An absolute path replaces what it is joined to. -/
def join (base p : Path) : Path :=
  if p.isAbsolute || base.isEmpty then p
  else if base.endsWith "/" then base ++ p
  else base ++ "/" ++ p

/-- The part of the file name after its last dot. A name whose only dot is its first character
has none. -/
def extension? (p : Path) : Option String :=
  p.fileName?.bind fun name ↦
    let (after, before) := name.toList.reverse.span (· ≠ '.')
    match before with
    | [] | [_] => none
    | _ => some (String.ofList after.reverse)

end Path

end ScriptCache
