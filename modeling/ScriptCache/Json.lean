/-!
# JSON values and their text

Values as they are written. An object keeps its members in the order given.
-/

namespace ScriptCache

inductive Json where
  | null
  | bool (b : Bool)
  | int (n : Int)
  | string (s : String)
  | array (items : List Json)
  | object (members : List (String × Json))
  deriving Repr, Inhabited

namespace Json

def nat (n : Nat) : Json := .int n

def strings (items : List String) : Json := .array (items.map .string)

def optional (s : Option String) : Json := s.elim .null .string

/-- A character inside a string literal. Quotes, backslashes and control characters are escaped,
with a short form where there is one. -/
def escape (c : Char) : List Char :=
  if c = '"' then ['\\', '"']
  else if c = '\\' then ['\\', '\\']
  else if c = '\n' then ['\\', 'n']
  else if c = '\r' then ['\\', 'r']
  else if c = '\t' then ['\\', 't']
  else if c.toNat = 0x08 then ['\\', 'b']
  else if c.toNat = 0x0C then ['\\', 'f']
  else if c.toNat < 0x20 then
    ['\\', 'u', '0', '0', Nat.digitChar (c.toNat / 16), Nat.digitChar (c.toNat % 16)]
  else [c]

def quoted (s : String) : List Char := '"' :: s.toList.flatMap escape ++ ['"']

/-- How the parts of arrays and objects are set apart. -/
structure Layout where
  /-- What stands in front of each part, and of the closing bracket, at a depth of nesting. -/
  lineBreak : Nat → List Char
  colon : List Char

namespace Layout

/-- No blanks. -/
def compact : Layout := ⟨fun _ ↦ [], [':']⟩

/-- Every part on a line of its own, two spaces further in than its parent. -/
def pretty : Layout := ⟨fun depth ↦ '\n' :: List.replicate (2 * depth) ' ', [':', ' ']⟩

end Layout

mutual

/-- The text of a value at a depth of nesting. -/
def chars (layout : Layout) (depth : Nat) : Json → List Char
  | .null => "null".toList
  | .bool b => (if b then "true" else "false").toList
  | .int n => (toString n).toList
  | .string s => quoted s
  | .array [] => ['[', ']']
  | .array (item :: items) =>
    '[' :: layout.lineBreak (depth + 1) ++ chars layout (depth + 1) item
      ++ itemChars layout (depth + 1) items ++ layout.lineBreak depth ++ [']']
  | .object [] => ['{', '}']
  | .object (member :: members) =>
    '{' :: layout.lineBreak (depth + 1) ++ memberChars layout (depth + 1) member
      ++ memberListChars layout (depth + 1) members ++ layout.lineBreak depth ++ ['}']

def itemChars (layout : Layout) (depth : Nat) : List Json → List Char
  | [] => []
  | item :: items =>
    ',' :: layout.lineBreak depth ++ chars layout depth item ++ itemChars layout depth items

def memberChars (layout : Layout) (depth : Nat) : String × Json → List Char
  | (key, value) => quoted key ++ layout.colon ++ chars layout depth value

def memberListChars (layout : Layout) (depth : Nat) : List (String × Json) → List Char
  | [] => []
  | member :: members =>
    ',' :: layout.lineBreak depth ++ memberChars layout depth member
      ++ memberListChars layout depth members

end

def compact (v : Json) : String := String.ofList (v.chars .compact 0)

def pretty (v : Json) : String := String.ofList (v.chars .pretty 0)

end Json

end ScriptCache
