import ScriptCache.Text.Blank

/-!
# Names that are never preloaded

Names are compared in normal form: blanks around a name and backslashes in front of it do not
count.
-/

namespace ScriptCache

/-- The normal form of a type name. -/
def normalName (name : String) : String :=
  String.ofList ((Text.trim name.toList).dropWhile (· = '\\'))

/-- A set of names, each in normal form, none empty and none twice. -/
structure Exclusions where
  names : List String
  deriving Repr

namespace Exclusions

def insert (s : Exclusions) (name : String) : Exclusions :=
  let name := normalName name
  if name.isEmpty || s.names.contains name then s else ⟨s.names ++ [name]⟩

def ofNames (names : List String) : Exclusions :=
  names.foldl insert ⟨[]⟩

/-- One name a line. A line whose first character other than blanks is `#` is a comment. -/
def ofText (text : String) : Exclusions :=
  ofNames (((Text.lines text.toList).filter fun line ↦
    (Text.trimStart line).head? ≠ some '#').map String.ofList)

def union (s t : Exclusions) : Exclusions :=
  ⟨s.names ++ t.names.filter fun name ↦ !s.names.contains name⟩

def contains (s : Exclusions) (name : String) : Bool := s.names.contains (normalName name)

def size (s : Exclusions) : Nat := s.names.length

def isEmpty (s : Exclusions) : Bool := s.names.isEmpty

end Exclusions

end ScriptCache
