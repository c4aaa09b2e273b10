import ScriptCache.Text.Digits
import ScriptCache.Toml

/-!
# Strings as TOML writes them

A string is written in the plainest of four forms that shows it without escapes: in double
quotes, in apostrophes, or over several lines in three of either. A string that no form shows so
is escaped.
-/

namespace ScriptCache.Toml.Quoted

/-- The length of the longest run of `c`. `run` is the length of the run in front of the text. -/
def longestRun (c : Char) (run : Nat) : List Char → Nat
  | [] => run
  | d :: rest => if d = c then longestRun c (run + 1) rest else max run (longestRun c 0 rest)

/-- Control characters but for tabs and newlines. They are only written escaped. -/
def isControl (c : Char) : Bool :=
  (c.toNat < 0x20 && c ≠ '\t' && c ≠ '\n') || c.toNat = 0x7F

structure Form where
  quote : Char
  /-- Whether three quotes open and close the string, which may then hold newlines. -/
  tripled : Bool
  /-- Whether characters are escaped. In apostrophes none is. -/
  escaping : Bool
  deriving DecidableEq, Repr

/-- The form in which a string is written. -/
def Form.of (s : List Char) : Form :=
  let control := s.any isControl
  let backslash := s.contains '\\'
  let broken := s.contains '\n'
  let quotes := longestRun '"' 0 s
  let apostrophes := longestRun apostrophe 0 s
  if !control && !backslash && !broken && quotes = 0 then ⟨'"', false, true⟩
  else if !control && !broken && apostrophes = 0 then ⟨apostrophe, false, false⟩
  else if !control && !backslash && quotes ≤ 2 then ⟨'"', true, true⟩
  else if !control && apostrophes ≤ 2 then ⟨apostrophe, true, false⟩
  else ⟨'"', broken, true⟩

/-- A character in escaping form; of the double quotes in a row, `allowed` more may stand
plain. -/
def escape (tripled : Bool) (allowed : Nat) (c : Char) : List Char :=
  if c = '"' then (if 0 < allowed then [c] else ['\\', c])
  else if c = '\\' then ['\\', '\\']
  else if c = '\n' then (if tripled then [c] else ['\\', 'n'])
  else if c = '\t' then ['\\', 't']
  else if c = '\r' then ['\\', 'r']
  else if c.toNat = 0x08 then ['\\', 'b']
  else if c.toNat = 0x0C then ['\\', 'f']
  else if c.toNat < 0x20 ∨ c.toNat = 0x7F then
    ['\\', 'u', '0', '0', Text.hexDigit (c.toNat / 16), Text.hexDigit (c.toNat % 16)]
  else [c]

/-- How many quotes may stand plain in a row. -/
def looseQuotes (tripled : Bool) : Nat := if tripled then 2 else 0

/-- The characters of a string in escaping form. -/
def escapeAll (tripled : Bool) (allowed : Nat) : List Char → List Char
  | [] => []
  | c :: rest =>
    let left := if c = '"' ∧ 0 < allowed then allowed - 1 else looseQuotes tripled
    escape tripled allowed c ++ escapeAll tripled left rest

/-- The text of a string. -/
def encode (s : List Char) : List Char :=
  let form := Form.of s
  let quotes := List.replicate (if form.tripled then 3 else 1) form.quote
  let lineBreak := if form.tripled && s.contains '\n' then ['\n'] else []
  let body := if form.escaping then escapeAll form.tripled (looseQuotes form.tripled) s else s
  quotes ++ lineBreak ++ body ++ quotes

end ScriptCache.Toml.Quoted
