import ScriptCache.Text.Digits

/-!
# Tables of characters

A table says something about ranges of characters. It is written as rows with blanks between them:
a range in hexadecimal, a mark, and numbers that the mark needs, with dots between them.
-/

namespace ScriptCache.Text

structure Row where
  first : Nat
  last : Nat
  mark : Char
  numbers : List Nat
  deriving DecidableEq, Repr

abbrev Table := List Row

namespace Table

/-- Marks are written in upper case. -/
def isLowerHex (c : Char) : Bool := isDigit c || ('a' ≤ c && c ≤ 'f')

def readNumber (s : List Char) : Nat × List Char :=
  let (digits, rest) := s.span isLowerHex
  (number 16 digits, rest)

def readRow (s : List Char) : Option Row :=
  let (first, rest) := readNumber s
  let (last, rest) := match rest with
    | '-' :: rest => readNumber rest
    | rest => (first, rest)
  match rest with
  | [] => none
  | mark :: numbers =>
    some ⟨first, last, mark, if numbers.isEmpty then [] else (numbers.splitOn '.').map (number 16)⟩

def ofText (text : String) : Table :=
  (text.toList.splitOnP fun c ↦ c = ' ' || c = '\n').filterMap readRow

/-- The row that a character is in. -/
def find? (t : Table) (c : Char) : Option Row :=
  List.find? (fun row ↦ row.first ≤ c.toNat && c.toNat ≤ row.last) t

def mark? (t : Table) (c : Char) : Option Char := (t.find? c).map (·.mark)

end Table

end ScriptCache.Text
