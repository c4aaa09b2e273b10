import ScriptCache.Text.Digits

/-!
# Numeric host addresses

The two kinds of IP address, as they are read from the host of a URL and written back.
-/

namespace ScriptCache

/-- An address of 32 bits, as one number. -/
abbrev Ipv4 := UInt32

/-- An address of eight pieces of 16 bits. -/
abbrev Ipv6 := List Nat

namespace Ipv4

/-- The parts of a name between its dots, without the empty part behind a dot at the end. -/
def parts (name : List Char) : List (List Char) :=
  let parts := name.splitOn '.'
  if parts.getLast? = some [] then parts.dropLast else parts

/-- The number that a part denotes: hexadecimal behind `0x`, octal behind another `0`, or
decimal. -/
def number? (part : List Char) : Option Nat :=
  let (base, digits) := match part with
    | '0' :: 'x' :: rest => (16, rest)
    | '0' :: 'X' :: rest => (16, rest)
    | '0' :: d :: rest => (8, d :: rest)
    | rest => (10, rest)
  if part.isEmpty then none
  else if digits.all fun c ↦ (Text.hexValue? c).any (· < base) then some (Text.number base digits)
  else none

/-- Names that end in a number are addresses or nothing. -/
def isNumeric (name : List Char) : Bool :=
  match (parts name).getLast? with
  | none => false
  | some last => (!last.isEmpty && last.all Text.isDigit) || (number? last).isSome

/-- The address of some numbers. The last one fills all bytes that the others leave. -/
def ofNumbers? (numbers : List Nat) : Option Ipv4 :=
  match numbers.reverse with
  | [] => none
  | last :: bytes =>
    let room := Nat.pow 256 (4 - bytes.length)
    if 3 < bytes.length || bytes.any (255 < ·) || room ≤ last then none
    else
      let high := bytes.reverse.foldl (fun n b ↦ n * 256 + b) 0
      some (high * room + last).toUInt32

def ofName? (name : List Char) : Option Ipv4 := do
  ofNumbers? (← (parts name).mapM number?)

def bytes (a : Ipv4) : List Nat :=
  let n := a.toNat
  [n / 0x1000000, n / 0x10000 % 256, n / 0x100 % 256, n % 256]

def text (a : Ipv4) : List Char := ['.'].intercalate (a.bytes.map fun b ↦ (toString b).toList)

end Ipv4

namespace Ipv6

/-- Up to four hexadecimal digits. -/
def piece? (digits : List Char) : Option Nat :=
  if digits.isEmpty || 4 < digits.length || !digits.all fun c ↦ (Text.hexValue? c).isSome then none
  else some (Text.number 16 digits)

/-- A decimal number up to 255, without zeros in front. -/
def byte? (digits : List Char) : Option Nat :=
  if digits.isEmpty || 3 < digits.length || !digits.all Text.isDigit
    || (1 < digits.length && digits.head? = some '0') || 255 < Text.decimal digits then none
  else some (Text.decimal digits)

/-- Two pieces that are written as four bytes with dots. -/
def dotted? (text : List Char) : Option (List Nat) :=
  match (text.splitOn '.').mapM byte? with
  | some [a, b, c, d] => some [a * 256 + b, c * 256 + d]
  | _ => none

/-- Pieces with colons between them. Only where `tail` holds may dots end them. -/
def pieces? (tail : Bool) (text : List Char) : Option (List Nat) :=
  if text.isEmpty then some []
  else
    let groups := text.splitOn ':'
    match groups.getLast? with
    | none => none
    | some last =>
      if tail && last.contains '.' then do
        some ((← groups.dropLast.mapM piece?) ++ (← dotted? last))
      else groups.mapM piece?

/-- The two sides of the first `::`. -/
def splitGap : List Char → Option (List Char × List Char)
  | ':' :: ':' :: rest => some ([], rest)
  | c :: rest => (splitGap rest).map fun (before, after) ↦ (c :: before, after)
  | [] => none

/-- The address that stands between square brackets. A double colon stands for the zeros that
are missing, at least one. -/
def ofText? (text : List Char) : Option Ipv6 :=
  match splitGap text with
  | none => do
    let pieces ← pieces? true text
    if pieces.length = 8 then some pieces else none
  | some (before, after) => do
    let before ← pieces? false before
    let after ← pieces? true after
    if before.length + after.length < 8 then
      some (before ++ List.replicate (8 - before.length - after.length) 0 ++ after)
    else none

/-- The number of zeros in front. -/
def zeros (pieces : List Nat) : Nat := (pieces.takeWhile (· = 0)).length

/-- Where the first of the longest runs of zeros starts, and its length. `index` is the position
of the pieces, and `best` the run found so far. -/
def longestGap (index : Nat) (best : Nat × Nat) : List Nat → Nat × Nat
  | [] => best
  | p :: pieces =>
    let run := zeros (p :: pieces)
    longestGap (index + 1) (if best.2 < run then (index, run) else best) pieces

def hexText (n : Nat) : List Char := Nat.toDigits 16 n

/-- The first longest run of two zeros or more is written as a double colon. -/
def text (a : Ipv6) : List Char :=
  let (start, run) := longestGap 0 (0, 1) a
  if run = 1 then [':'].intercalate (a.map hexText)
  else
    [':'].intercalate ((a.take start).map hexText) ++ [':', ':']
      ++ [':'].intercalate ((a.drop (start + run)).map hexText)

end Ipv6

end ScriptCache
