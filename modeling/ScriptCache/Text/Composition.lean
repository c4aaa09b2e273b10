import ScriptCache.Text.CompositionRows
import ScriptCache.Text.Table

/-!
# Composed form

A letter with marks can be written as one character or as several. In composed form, marks stand
in the order of their classes, and what can be one character is one.
-/

namespace ScriptCache.Text

def compositions : Table := .ofText compositionRows

def classes : Table := .ofText classRows

/-- The class of a combining character; zero for all others. -/
def combiningClass (c : Char) : Nat :=
  match classes.find? c with
  | some row => row.numbers.headD 0
  | none => 0

/-- The two characters that a character of the table is composed of. -/
def parts? (c : Char) : Option (Char × Char) :=
  match compositions.find? c with
  | some row =>
    match row.numbers with
    | [a, b] => some (Char.ofNat a, Char.ofNat b)
    | _ => none
  | none => none

/-- Korean syllables are composed by their numbers: of one of 19 first letters, one of 21 vowels,
and one of 27 last letters or none. -/
structure Syllables where
  first : Nat := 0x1100
  vowel : Nat := 0x1161
  /-- One less than the first of the last letters. -/
  last : Nat := 0x11A7
  syllable : Nat := 0xAC00

def korean : Syllables := {}

namespace Syllables

def parts? (s : Syllables) (c : Char) : Option (Char × Char) :=
  let n := c.toNat - s.syllable
  if c.toNat < s.syllable ∨ 19 * 21 * 28 ≤ n then none
  else if n % 28 = 0 then
    some (Char.ofNat (s.first + n / 28 / 21), Char.ofNat (s.vowel + n / 28 % 21))
  else some (Char.ofNat (c.toNat - n % 28), Char.ofNat (s.last + n % 28))

def compose? (s : Syllables) (a b : Char) : Option Char :=
  if s.first ≤ a.toNat ∧ a.toNat < s.first + 19 ∧ s.vowel ≤ b.toNat ∧ b.toNat < s.vowel + 21 then
    some (Char.ofNat (s.syllable + ((a.toNat - s.first) * 21 + (b.toNat - s.vowel)) * 28))
  else if s.syllable ≤ a.toNat ∧ a.toNat < s.syllable + 19 * 21 * 28
      ∧ (a.toNat - s.syllable) % 28 = 0 ∧ s.last < b.toNat ∧ b.toNat < s.last + 28 then
    some (Char.ofNat (a.toNat + (b.toNat - s.last)))
  else none

end Syllables

/-- How often a character can be taken apart again. -/
def partsLimit : Nat := 8

/-- The characters that a character is composed of in the end. -/
def decompose (c : Char) : List Char := go partsLimit c
where
  go : Nat → Char → List Char
    | 0, c => [c]
    | steps + 1, c =>
      match (parts? c).orElse fun _ ↦ korean.parts? c with
      | some (a, b) => go steps a ++ [b]
      | none => [c]

def compose? (a b : Char) : Option Char :=
  match List.find? (fun row : Row ↦ row.numbers == [a.toNat, b.toNat]) compositions with
  | some row => some (Char.ofNat row.first)
  | none => korean.compose? a b

/-- Puts a mark behind those in front of it that have no higher class. -/
def insertMark (c : Char) : List Char → List Char
  | [] => [c]
  | d :: marks =>
    if combiningClass c < combiningClass d then c :: d :: marks else d :: insertMark c marks

/-- Brings the marks behind each letter into order. `marks` are those read last. -/
def sortMarks (marks : List Char) : List Char → List Char
  | [] => marks
  | c :: s =>
    if combiningClass c = 0 then marks ++ c :: sortMarks [] s else sortMarks (insertMark c marks) s

/-- Joins marks to the letter in front of them. `kept` are the marks that could not be joined to
`letter`, the last in front. -/
def joinMarks (letter : Char) (kept : List Char) : List Char → List Char
  | [] => letter :: kept.reverse
  | c :: s =>
    let isNext := kept.head?.all fun last ↦ combiningClass last < combiningClass c
    match if isNext then compose? letter c else none with
    | some joined => joinMarks joined kept s
    | none =>
      if combiningClass c = 0 then letter :: kept.reverse ++ joinMarks c [] s
      else joinMarks letter (c :: kept) s

/-- The composed form of a text. -/
def composed (text : List Char) : List Char :=
  match (sortMarks [] (text.flatMap decompose)).span (combiningClass · ≠ 0) with
  | (marks, []) => marks
  | (marks, letter :: rest) => marks ++ joinMarks letter [] rest

end ScriptCache.Text
