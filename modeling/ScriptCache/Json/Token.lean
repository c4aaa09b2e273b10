import ScriptCache.Text.Digits

/-!
# Tokens of a JSON text

Reading stops at the first character that no token starts with; `broken` stands there. A string
whose escapes form no characters, and a number too large for any number type, are tokens all the
same: they are no error where the value is not looked at.
-/

namespace ScriptCache.Json

/-- A number literal, by the kind of number that it denotes. -/
inductive Number where
  /-- An integer that fits 64 bits, signed or unsigned. -/
  | int (n : Int)
  /-- Any other number, minus zero included. -/
  | real
  /-- Beyond the largest floating-point number. -/
  | huge
  deriving DecidableEq, Repr

inductive Token where
  | openSquare
  | closeSquare
  | openCurly
  | closeCurly
  | comma
  | colon
  | null
  | bool (b : Bool)
  | number (n : Number)
  | string (s : Option String)
  | broken
  deriving DecidableEq, Repr

/-- A character of a string literal, or a UTF-16 unit written as `\u`. -/
inductive StringPart where
  | char (c : Char)
  | unit (n : Nat)
  deriving DecidableEq, Repr

namespace StringPart

/-- The characters of a string literal, unless a surrogate stands alone. -/
def join : List StringPart → Option (List Char)
  | [] => some []
  | .char c :: rest => (join rest).map (c :: ·)
  | .unit a :: rest =>
    if a < 0xD800 ∨ 0xE000 ≤ a then (join rest).map (Char.ofNat a :: ·)
    else
      match rest with
      | .unit b :: rest =>
        if a < 0xDC00 ∧ 0xDC00 ≤ b ∧ b < 0xE000 then
          (join rest).map (Char.ofNat (0x10000 + (a - 0xD800) * 0x400 + (b - 0xDC00)) :: ·)
        else none
      | _ => none

end StringPart

namespace Token

open Text (isDigit hexValue? decimal overflows)

/-- The character that a short escape stands for. -/
def unescape? (c : Char) : Option Char :=
  if c = '"' ∨ c = '\\' ∨ c = '/' then some c
  else if c = 'b' then some (Char.ofNat 0x08)
  else if c = 'f' then some (Char.ofNat 0x0C)
  else if c = 'n' then some '\n'
  else if c = 'r' then some '\r'
  else if c = 't' then some '\t'
  else none

/-- The rest of a string literal, up to its closing quote, and the text after it. -/
def readString : List Char → Option (List StringPart × List Char)
  | [] => none
  | '"' :: rest => some ([], rest)
  | '\\' :: 'u' :: a :: b :: c :: d :: rest => do
    let unit := (((← hexValue? a) * 16 + (← hexValue? b)) * 16 + (← hexValue? c)) * 16
      + (← hexValue? d)
    let (parts, rest) ← readString rest
    some (.unit unit :: parts, rest)
  | '\\' :: e :: rest => do
    let c ← unescape? e
    let (parts, rest) ← readString rest
    some (.char c :: parts, rest)
  | c :: rest =>
    if c = '\\' ∨ c.toNat < 0x20 then none
    else do
      let (parts, rest) ← readString rest
      some (.char c :: parts, rest)

theorem length_readString_lt {s rest : List Char} {parts : List StringPart}
    (h : readString s = some (parts, rest)) : rest.length < s.length := by
  fun_induction readString s generalizing parts rest with
  | case1 => cases h
  | case2 => cases h; exact Nat.lt_succ_self _
  | case3 a b c d tail ih =>
    simp only [Option.bind_eq_bind, Option.bind_eq_some_iff, Option.some.injEq] at h
    obtain ⟨_, _, _, _, _, _, _, _, p, hp, e⟩ := h
    cases e
    have := ih hp
    simp only [List.length_cons]
    omega
  | case4 e tail _ ih =>
    simp only [Option.bind_eq_bind, Option.bind_eq_some_iff, Option.some.injEq] at h
    obtain ⟨_, _, p, hp, e⟩ := h
    cases e
    have := ih hp
    simp only [List.length_cons]
    omega
  | case5 => cases h
  | case6 c tail _ _ _ _ ih =>
    simp only [Option.bind_eq_bind, Option.bind_eq_some_iff, Option.some.injEq] at h
    obtain ⟨p, hp, e⟩ := h
    cases e
    have := ih hp
    simp only [List.length_cons]
    omega

/-- An optional part of a number: `mark`, then digits. Nothing is read where the mark is not
ahead; `none` is a mark without digits. -/
def readFraction (s : List Char) : Option (List Char × List Char) :=
  match s with
  | '.' :: rest =>
    let digits := rest.takeWhile isDigit
    if digits.isEmpty then none else some (digits, rest.dropWhile isDigit)
  | _ => some ([], s)

/-- The sign ahead, if there is one; `true` for a minus. -/
def readSign : List Char → Bool × List Char
  | '-' :: rest => (true, rest)
  | '+' :: rest => (false, rest)
  | rest => (false, rest)

def readExponent (s : List Char) : Option (Option Int × List Char) :=
  match s with
  | [] => some (none, [])
  | e :: rest =>
    if e = 'e' ∨ e = 'E' then
      let digits := (readSign rest).2.takeWhile isDigit
      if digits.isEmpty then none
      else
        let size : Int := decimal digits
        some (some (if (readSign rest).1 then -size else size),
          (readSign rest).2.dropWhile isDigit)
    else some (none, s)

def fitsWord (n : Int) : Bool := Int64.minValue.toInt ≤ n && n < UInt64.size

/-- The number with the given sign, digits in front of its point and behind it, and exponent. -/
def denoted (negative : Bool) (whole fraction : List Char) (exponent : Option Int) : Number :=
  let n : Int := if negative then -(decimal whole : Int) else decimal whole
  if fraction.isEmpty ∧ exponent.isNone ∧ fitsWord n ∧ ¬(negative ∧ n = 0) then .int n
  else if overflows (decimal (whole ++ fraction)) (exponent.getD 0 - fraction.length) then .huge
  else .real

/-- The digits of a whole number; a zero stands alone. -/
def readWhole (s : List Char) : Option (List Char × List Char) :=
  let digits := s.takeWhile isDigit
  if digits.isEmpty ∨ (digits.length > 1 ∧ digits.head? = some '0') then none
  else some (digits, s.dropWhile isDigit)

/-- The number that starts with the digits ahead, and the text after it. -/
def readNumber (negative : Bool) (s : List Char) : Option (Number × List Char) := do
  let (whole, after) ← readWhole s
  let (fraction, after) ← readFraction after
  let (exponent, after) ← readExponent after
  some (denoted negative whole fraction exponent, after)

def isSpace (c : Char) : Bool := c = ' ' ∨ c = '\n' ∨ c = '\r' ∨ c = '\t'

/-- A token of one character. -/
def punctuation? (c : Char) : Option Token :=
  if c = '[' then some .openSquare
  else if c = ']' then some .closeSquare
  else if c = '{' then some .openCurly
  else if c = '}' then some .closeCurly
  else if c = ',' then some .comma
  else if c = ':' then some .colon
  else none

/-- One of the three literal names, ahead of `c`. -/
def readWord (c : Char) (rest : List Char) : Option (Token × List Char) :=
  if c = 'n' ∧ ['u', 'l', 'l'].isPrefixOf rest then some (.null, rest.drop 3)
  else if c = 't' ∧ ['r', 'u', 'e'].isPrefixOf rest then some (.bool true, rest.drop 3)
  else if c = 'f' ∧ ['a', 'l', 's', 'e'].isPrefixOf rest then some (.bool false, rest.drop 4)
  else none

/-- A string, number or literal name that starts with `c`, and the text after it. -/
def readScalar (c : Char) (rest : List Char) : Option (Token × List Char) :=
  if c = '"' then
    (readString rest).map fun r ↦ (.string ((StringPart.join r.1).map String.ofList), r.2)
  else if c = '-' then (readNumber true rest).map fun r ↦ (.number r.1, r.2)
  else if isDigit c then (readNumber false (c :: rest)).map fun r ↦ (.number r.1, r.2)
  else readWord c rest

/-- The token that starts with `c`, and the text after it. -/
def read (c : Char) (rest : List Char) : Token × List Char :=
  match punctuation? c with
  | some t => (t, rest)
  | none => (readScalar c rest).getD (.broken, [])

theorem length_dropWhile_le (p : Char → Bool) (s : List Char) :
    (s.dropWhile p).length ≤ s.length :=
  (List.dropWhile_sublist p).length_le

theorem length_readFraction_le {s digits after : List Char}
    (h : readFraction s = some (digits, after)) : after.length ≤ s.length := by
  unfold readFraction at h
  split at h
  · simp only at h
    split at h <;> cases h
    exact Nat.le_succ_of_le (length_dropWhile_le ..)
  · cases h; exact Nat.le_refl _

theorem length_readSign_le (s : List Char) : (readSign s).2.length ≤ s.length := by
  unfold readSign
  split <;> simp

theorem length_readExponent_le {s after : List Char} {e : Option Int}
    (h : readExponent s = some (e, after)) : after.length ≤ s.length := by
  unfold readExponent at h
  split at h
  · cases h; exact Nat.le_refl _
  · split at h
    · simp only at h
      split at h
      · cases h
      · cases h
        exact Nat.le_succ_of_le (Nat.le_trans (length_dropWhile_le ..) (length_readSign_le _))
    · cases h; exact Nat.le_refl _

theorem length_readWhole_lt {s digits after : List Char}
    (h : readWhole s = some (digits, after)) : after.length < s.length := by
  simp only [readWhole] at h
  split at h
  · cases h
  · rename_i some_digit
    cases h
    cases s with
    | nil => simp at some_digit
    | cons c s =>
      by_cases hc : isDigit c
      · rw [List.dropWhile_cons_of_pos hc]
        exact Nat.lt_succ_of_le (length_dropWhile_le ..)
      · simp [hc] at some_digit

theorem length_readNumber_lt {negative : Bool} {s after : List Char} {n : Number}
    (h : readNumber negative s = some (n, after)) : after.length < s.length := by
  simp only [readNumber, Option.bind_eq_bind, Option.bind_eq_some_iff] at h
  obtain ⟨_, hw, _, hf, _, he, h⟩ := h
  cases h
  exact Nat.lt_of_le_of_lt
    (Nat.le_trans (length_readExponent_le he) (length_readFraction_le hf)) (length_readWhole_lt hw)

theorem length_readWord_le {c : Char} {rest after : List Char} {t : Token}
    (h : readWord c rest = some (t, after)) : after.length ≤ rest.length := by
  have drop (n : Nat) : (rest.drop n).length ≤ rest.length := (List.drop_sublist ..).length_le
  unfold readWord at h
  split at h
  · cases h; exact drop 3
  split at h
  · cases h; exact drop 3
  split at h
  · cases h; exact drop 4
  · cases h

theorem length_readScalar_le {c : Char} {rest after : List Char} {t : Token}
    (h : readScalar c rest = some (t, after)) : after.length ≤ rest.length := by
  unfold readScalar at h
  split at h
  · obtain ⟨_, found, e⟩ := Option.map_eq_some_iff.mp h
    cases e
    exact Nat.le_of_lt (length_readString_lt found)
  split at h
  · obtain ⟨_, found, e⟩ := Option.map_eq_some_iff.mp h
    cases e
    exact Nat.le_of_lt (length_readNumber_lt found)
  split at h
  · obtain ⟨_, found, e⟩ := Option.map_eq_some_iff.mp h
    cases e
    exact Nat.le_of_lt_succ (length_readNumber_lt found)
  · exact length_readWord_le h

theorem length_read_le (c : Char) (rest : List Char) : (read c rest).2.length ≤ rest.length := by
  unfold read
  split
  · exact Nat.le_refl _
  · cases h : readScalar c rest with
    | none => exact Nat.zero_le _
    | some r => exact length_readScalar_le h

/-- The tokens of a text. -/
def ofChars : List Char → List Token
  | [] => []
  | c :: rest =>
    if isSpace c then ofChars rest
    else (read c rest).1 :: ofChars (read c rest).2
termination_by s => s.length
decreasing_by
  · exact Nat.lt_succ_self _
  · exact Nat.lt_succ_of_le (length_read_le c rest)

end Token

end ScriptCache.Json
