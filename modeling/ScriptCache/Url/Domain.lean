import ScriptCache.Text.Utf8
import ScriptCache.Url.Domain.Label
import ScriptCache.Url.Domain.Mapping
import ScriptCache.Url.Punycode

/-!
# Domain names

A name is brought to lower case and composed form, and each label with other characters than
ASCII is written in Punycode behind `xn--`. A label that comes in that form already is kept if it
stands for one that would be written so.
-/

namespace ScriptCache.Domain

def punycodeMark : List Char := ['x', 'n', '-', '-']

def isAscii (s : List Char) : Bool := s.all (·.toNat < 0x80)

/-- The ASCII characters that no host name holds. -/
def isForbidden (c : Char) : Bool :=
  c.toNat ≤ 0x20 || c.toNat = 0x7F
    || ['%', '#', '/', ':', '<', '>', '?', '@', '[', '\\', ']', '^', '|'].contains c

def mapAll? (s : List Char) : Option (List Char) := (s.mapM mapped?).map List.flatten

/-- Whether a label with other characters than ASCII is what mapping leaves it, and obeys the rules
for labels. -/
def isSettled (label : List Char) : Bool :=
  mapAll? label = some label && Text.composed label = label && !beginsWithMark label
    && joinersFit [] label

/-- A label of a name. -/
structure Label where
  meant : List Char
  /-- Its ASCII form. -/
  written : List Char
  deriving DecidableEq, Repr

def Label.of? (label : List Char) : Option Label :=
  if punycodeMark.isPrefixOf label then do
    let meant ← Punycode.decode? (label.drop 4)
    if isAscii label ∧ ¬isAscii meant ∧ isSettled meant then some ⟨meant, label⟩ else none
  else if isAscii label then some ⟨label, label⟩
  else if isSettled label then some ⟨label, punycodeMark ++ Punycode.encode label⟩
  else none

/-- Whether no label mixes directions, in a name that is written from right to left in part. -/
def directionsFit (labels : List Label) : Bool :=
  !(labels.any fun l ↦ l.meant.any fun c ↦ (Direction.of c).turns)
    || labels.all fun l ↦ keepsDirection l.meant

/-- The ASCII form of a name given as bytes. -/
def ofBytes? (bytes : List UInt8) : Option (List Char) := do
  let mapped ← mapAll? (← Utf8.decode? bytes).toList
  let mapped := (if isAscii mapped then mapped else Text.composed mapped).map Char.toLower
  let labels ← (mapped.splitOn '.').mapM Label.of?
  let name := ['.'].intercalate (labels.map (·.written))
  if name.isEmpty || name.any isForbidden || !directionsFit labels then none else some name

end ScriptCache.Domain
