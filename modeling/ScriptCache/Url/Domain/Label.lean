import ScriptCache.Text.Composition
import ScriptCache.Text.Table
import ScriptCache.Url.Domain.LabelRows

/-!
# Rules for labels

Rules that a label with other characters than ASCII obeys: it does not begin with a mark,
characters that join letters stand between such letters, and labels that are written from right
to left do not mix directions.
-/

namespace ScriptCache.Domain

def marks : Text.Table := .ofText markRows

def joinings : Text.Table := .ofText joiningRows

def directions : Text.Table := .ofText directionRows

def beginsWithMark (label : List Char) : Bool := label.head?.any fun c ↦ (marks.find? c).isSome

/-- The class of the signs that take the vowel from a letter. -/
def vowelKiller : Nat := 9

/-- Whether the letters next to a gap join it: those that are passed over do not count. `before`
is what stands in front of it, the nearest first. -/
def joinsAcross (before after : List Char) : Bool :=
  reaches ['L', 'D'] before && reaches ['R', 'D'] after
where
  reaches (wanted : List Char) (s : List Char) : Bool :=
    (s.dropWhile fun c ↦ joinings.mark? c = some 'T').head?.any fun c ↦
      (joinings.mark? c).any wanted.contains

/-- Whether the characters that join letters, or keep them apart, stand where they have a
meaning. `before` is what stands in front, the nearest first. -/
def joinersFit (before : List Char) : List Char → Bool
  | [] => true
  | c :: s =>
    let behindKiller := before.head?.any fun b ↦ Text.combiningClass b = vowelKiller
    let fits :=
      if c.toNat = 0x200C then behindKiller || joinsAcross before s
      else if c.toNat = 0x200D then behindKiller
      else true
    fits && joinersFit (c :: before) s

/-- The directions of characters: left, right, right in Arabic, numbers and their parts, and
what takes the direction of its neighbours. -/
inductive Direction where
  | left
  | right
  | arabic
  | arabicNumber
  | number
  | sign
  | separator
  | unit
  | neutral
  | boundary
  | mark
  deriving DecidableEq, Repr

namespace Direction

def ofMark : Char → Direction
  | 'R' => .right
  | 'A' => .arabic
  | 'N' => .arabicNumber
  | 'E' => .number
  | 'S' => .sign
  | 'C' => .separator
  | 'T' => .unit
  | 'O' => .neutral
  | 'B' => .boundary
  | _ => .mark

def of (c : Char) : Direction :=
  if c.isAlpha then .left
  else if c.isDigit then .number
  else if c = '+' ∨ c = '-' then .sign
  else if [',', '.', '/', ':'].contains c then .separator
  else if ['#', '$', '%'].contains c then .unit
  else if c.toNat < 0x20 ∨ c.toNat = 0x7F then .boundary
  else if c.toNat < 0x80 then .neutral
  else ((directions.mark? c).map ofMark).getD .left

/-- Whether a name with such a character is written from right to left in part. -/
def turns : Direction → Bool
  | .right | .arabic | .arabicNumber => true
  | _ => false

/-- What may stand in labels of both directions. -/
def isCommon : Direction → Bool
  | .number | .sign | .separator | .unit | .neutral | .boundary | .mark => true
  | _ => false

end Direction

/-- Whether a label keeps to the direction of its first character. -/
def keepsDirection (label : List Char) : Bool :=
  let all := label.map Direction.of
  let ends := (all.reverse.dropWhile (· = .mark)).head?
  match all.head? with
  | none => true
  | some .left =>
    all.all (fun d ↦ d = .left || d.isCommon) && ends.all fun d ↦ d = .left || d = .number
  | some first =>
    (first = .right || first = .arabic) && all.all (fun d ↦ d.turns || d.isCommon)
      && (ends.all fun d ↦ d.turns || d = .number)
      && !(all.contains .number && all.contains .arabicNumber)

end ScriptCache.Domain
