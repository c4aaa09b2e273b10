import ScriptCache.Toml
import ScriptCache.Text.Digits

/-!
# Reading TOML

The grammar, reader by reader. A reader takes characters from the front of a text, or fails.
`document?` accepts a text when all of it is lines and the lines agree with one another.
-/

namespace ScriptCache.Toml

open Text (isDigit hexValue?)

abbrev Reader := StateT (List Char) Option

namespace Reader

/-- Repeats a reader for as long as it takes something. -/
def repeated {α : Type} (read : Reader α) (s : List Char) : List α × List Char :=
  match read s with
  | none => ([], s)
  | some (a, rest) =>
    if rest.length < s.length then
      let (more, rest) := repeated read rest
      (a :: more, rest)
    else ([a], rest)
termination_by s.length

def many {α : Type} (read : Reader α) : Reader (List α) := fun s ↦ some (repeated read s)

def satisfy (p : Char → Bool) : Reader Char
  | c :: rest => if p c then some (c, rest) else none
  | [] => none

def takeWhile (p : Char → Bool) : Reader (List Char) :=
  fun s ↦ some (s.takeWhile p, s.dropWhile p)

def text (t : List Char) : Reader Unit :=
  fun s ↦ if t.isPrefixOf s then some ((), s.drop t.length) else none

def atEnd : Reader Unit := fun s ↦ if s.isEmpty then some ((), s) else none

def optional (read : Reader Unit) : Reader Unit := read <|> pure ()

def isIndent (c : Char) : Bool := c = ' ' || c = '\t'

def blanks : Reader Unit := do let _ ← takeWhile isIndent

def newline : Reader Unit := text ['\n'] <|> text ['\r', '\n']

/-- Tabs, and all characters but control characters. -/
def isPlain (c : Char) : Bool := c = '\t' || (0x20 ≤ c.toNat && c.toNat ≠ 0x7F)

def comment : Reader Unit := do
  text ['#']
  let _ ← takeWhile isPlain

/-- The rest of a line behind what it says. -/
def lineEnd : Reader Unit := do
  blanks
  optional comment
  newline <|> atEnd

/-- Blanks, line ends and comments, as they may stand between the items of an array. -/
def spacing : Reader Unit := do
  let _ ← many ((do let _ ← satisfy isIndent) <|> newline <|> comment)

def hexDigits (n : Nat) : Reader Nat := do
  let digits ← (List.range n).mapM fun _ ↦ satisfy fun c ↦ (hexValue? c).isSome
  pure (Text.number 16 digits)

def scalar (n : Nat) : Reader Char :=
  if n.isValidChar then pure (Char.ofNat n) else failure

/-- What a backslash and the character behind it stand for. -/
def escapes : List (Char × Char) :=
  [('b', Char.ofNat 0x08), ('t', '\t'), ('n', '\n'), ('f', Char.ofNat 0x0C), ('r', '\r'), ('"', '"'),
    ('\\', '\\')]

def escape : Reader Char := do
  text ['\\']
  let c ← satisfy fun _ ↦ true
  if c = 'u' then scalar (← hexDigits 4)
  else if c = 'U' then scalar (← hexDigits 8)
  else
    match escapes.lookup c with
    | some meant => pure meant
    | none => failure

def basicString : Reader String := do
  text ['"']
  let cs ← many (escape <|> satisfy fun c ↦ isPlain c && c ≠ '"' && c ≠ '\\')
  text ['"']
  pure (String.ofList cs)

def literalString : Reader String := do
  text [apostrophe]
  let cs ← takeWhile fun c ↦ isPlain c && c ≠ apostrophe
  text [apostrophe]
  pure (String.ofList cs)

/-- One or two quotes that close nothing. -/
def looseQuotes (quote : Char) : Reader (List Char) := do
  let quotes ← takeWhile (· = quote)
  if quotes.isEmpty || 3 ≤ quotes.length then failure else pure quotes

/-- The three quotes that close a string of several lines, and up to two that it ends with. -/
def closingQuotes (quote : Char) : Reader (List Char) := do
  let quotes ← takeWhile (· = quote)
  if 3 ≤ quotes.length && quotes.length ≤ 5 then pure (quotes.drop 3) else failure

/-- A backslash at the end of a line, and all blanks and line ends behind it. -/
def lineContinuation : Reader (List Char) := do
  text ['\\']
  blanks
  newline
  let _ ← many ((do let _ ← satisfy isIndent) <|> newline)
  pure []

def lineBreak : Reader (List Char) := do
  newline
  pure ['\n']

/-- A string of several lines. A line end right behind the opening quotes does not count. -/
def manyLines (quote : Char) (part : Reader (List Char)) : Reader String := do
  text [quote, quote, quote]
  optional newline
  let parts ← many (part <|> lineBreak <|> looseQuotes quote)
  let last ← closingQuotes quote
  pure (String.ofList (parts.flatten ++ last))

def basicLines : Reader String :=
  manyLines '"' (lineContinuation <|> (do pure [← escape])
    <|> (do pure [← satisfy fun c ↦ isPlain c && c ≠ '"' && c ≠ '\\']))

def literalLines : Reader String :=
  manyLines apostrophe (do pure [← satisfy fun c ↦ isPlain c && c ≠ apostrophe])

def string : Reader String := basicLines <|> basicString <|> literalLines <|> literalString

def isBare (c : Char) : Bool := c.isAlphanum || c = '-' || c = '_'

def bareKey : Reader String := do
  let cs ← takeWhile isBare
  if cs.isEmpty then failure else pure (String.ofList cs)

def keyPart : Reader String := do
  blanks
  let part ← bareKey <|> basicString <|> literalString
  blanks
  pure part

/-- Keys of this many parts, and values in this many brackets, are refused. -/
def depthLimit : Nat := 80

/-- A dotted key: the path, and the last part. -/
def key : Reader (List String × String) := do
  let first ← keyPart
  let others ← many (do text ['.']; keyPart)
  let parts := first :: others
  if depthLimit ≤ parts.length then failure
  else pure (parts.dropLast, parts.getLast?.getD first)

/-- Digits without the underscores between them. An underscore stands between two digits. -/
def ungroup (p : Char → Bool) : List Char → Option (List Char)
  | [] => none
  | [c] => if p c then some [c] else none
  | c :: '_' :: rest => if p c then (ungroup p rest).map (c :: ·) else none
  | c :: rest => if p c then (ungroup p rest).map (c :: ·) else none

/-- Decimal digits of a whole number, which does not begin with a zero unless it is one. -/
def wholeDigits (s : List Char) : Option (List Char) := do
  let digits ← ungroup isDigit s
  if digits.length > 1 ∧ digits.head? = some '0' then none else some digits

def splitSign : List Char → Bool × List Char
  | '-' :: rest => (true, rest)
  | '+' :: rest => (false, rest)
  | rest => (false, rest)

def inInt64 (n : Int) : Bool := Int64.minValue.toInt ≤ n && n ≤ Int64.maxValue.toInt

/-- The value of a digit string to another base, behind its mark. -/
def based? (base : Nat) (digits : List Char) : Option Int :=
  (ungroup (fun c ↦ (hexValue? c).any (· < base)) digits).map (Text.number base ·)

def integer? (s : List Char) : Option Int := do
  let n ← match s with
    | '0' :: 'x' :: rest => based? 16 rest
    | '0' :: 'o' :: rest => based? 8 rest
    | '0' :: 'b' :: rest => based? 2 rest
    | _ =>
      let (negative, digits) := splitSign s
      (wholeDigits digits).map fun digits ↦
        let size : Int := Text.decimal digits
        if negative then -size else size
  if inInt64 n then some n else none

/-- Whether the text is a floating-point number. Positive numbers do not overflow. -/
def isFloat (s : List Char) : Bool :=
  let (negative, s) := splitSign s
  if s = ['i', 'n', 'f'] || s = ['n', 'a', 'n'] then true
  else
    let isMark := fun c : Char ↦ c = 'e' || c = 'E'
    let (mantissa, exponent) := s.span (!isMark ·)
    let (whole, fraction) := mantissa.span (· ≠ '.')
    if fraction.isEmpty && exponent.isEmpty then false
    else
      let parts := do
        let whole ← wholeDigits whole
        let fraction ← if fraction.isEmpty then some [] else ungroup isDigit fraction.tail
        let (down, size) ← if exponent.isEmpty then some (false, [])
          else do
            let (down, digits) := splitSign exponent.tail
            some (down, ← ungroup isDigit digits)
        let size : Int := Text.decimal size
        some (Text.overflows (Text.decimal (whole ++ fraction))
          ((if down then -size else size) - fraction.length))
      match parts with
      | none => false
      | some overflows => negative || !overflows

/-- Two digits, as a number up to `bound`. -/
def twoDigits? (bound : Nat) : List Char → Option Nat
  | [a, b] =>
    if isDigit a && isDigit b && Text.decimal [a, b] ≤ bound then some (Text.decimal [a, b]) else none
  | _ => none

def isLeapYear (year : Nat) : Bool := year % 4 = 0 && (year % 100 ≠ 0 || year % 400 = 0)

def daysInMonth (year month : Nat) : Nat :=
  if month = 2 then (if isLeapYear year then 29 else 28)
  else if month = 4 ∨ month = 6 ∨ month = 9 ∨ month = 11 then 30
  else 31

def isDate : List Char → Bool
  | [a, b, c, d, '-', e, f, '-', g, h] =>
    [a, b, c, d].all isDigit &&
      match twoDigits? 12 [e, f], twoDigits? 31 [g, h] with
      | some month, some day =>
        1 ≤ month && 1 ≤ day && day ≤ daysInMonth (Text.decimal [a, b, c, d]) month
      | _, _ => false
  | _ => false

def isTime : List Char → Bool
  | a :: b :: ':' :: c :: d :: ':' :: e :: f :: rest =>
    (twoDigits? 23 [a, b]).isSome && (twoDigits? 59 [c, d]).isSome && (twoDigits? 60 [e, f]).isSome
      && match rest with
        | [] => true
        | '.' :: digits => !digits.isEmpty && digits.all isDigit
        | _ => false
  | _ => false

def isOffset : List Char → Bool
  | [z] => z = 'Z' || z = 'z'
  | [sign, a, b, ':', c, d] =>
    (sign = '+' || sign = '-') && (twoDigits? 23 [a, b]).isSome && (twoDigits? 59 [c, d]).isSome
  | _ => false

/-- A time, and an offset behind it if there is one. -/
def isOffsetTime (s : List Char) : Bool :=
  let (time, offset) := s.span fun c ↦ isDigit c || c = ':' || c = '.'
  isTime time && (offset.isEmpty || isOffset offset)

def isDatetime (s : List Char) : Bool :=
  isTime s || isDate s ||
    (isDate (s.take 10) &&
      match s.drop 10 with
      | t :: time => (t = 'T' || t = 't' || t = ' ') && isOffsetTime time
      | [] => false)

/-- The value that is not in quotes or brackets and has this text. -/
def plainValue? (s : List Char) : Option Toml :=
  if s = ['t', 'r', 'u', 'e'] then some (.boolean true)
  else if s = ['f', 'a', 'l', 's', 'e'] then some (.boolean false)
  else
    match integer? s with
    | some n => some (.integer n)
    | none =>
      if isFloat s then some .float
      else if isDatetime s then some .datetime
      else none

def isPlainValueChar (c : Char) : Bool :=
  c.isAlphanum || c = '+' || c = '-' || c = '_' || c = '.' || c = ':'

/-- The time behind a date and a space. -/
def spacedTime : Reader (List Char) := do
  text [' ']
  let first ← satisfy isDigit
  pure (' ' :: first :: (← takeWhile isPlainValueChar))

def plainValue : Reader Toml := do
  let s ← takeWhile isPlainValueChar
  let s ← if isDate s then (do pure (s ++ (← spacedTime))) <|> pure s else pure s
  match plainValue? s with
  | some v => pure v
  | none => failure

/-- Items between brackets, with commas between them; an array may have one more at its end. -/
def array (item : Reader Toml) : Reader Toml := do
  text ['[']
  spacing
  let items ← (do
    let first ← item
    spacing
    let others ← many (do text [',']; spacing; let v ← item; spacing; pure v)
    optional (do text [',']; spacing)
    pure (first :: others)) <|> pure []
  text [']']
  pure (.array items)

def pair (item : Reader Toml) : Reader (List String × String × Toml) := do
  let (path, last) ← key
  text ['=']
  blanks
  let v ← item
  blanks
  pure (path, last, v)

def inlineTable (item : Reader Toml) : Reader Toml := do
  text ['{']
  blanks
  let pairs ← (do
    let first ← pair item
    let others ← many (do text [',']; pair item)
    pure (first :: others)) <|> pure []
  text ['}']
  match ofPairs pairs with
  | some t => pure t
  | none => failure

/-- A value in which brackets nest to the given depth. -/
def value : Nat → Reader Toml
  | 0 => (do pure (.string (← string))) <|> plainValue
  | depth + 1 =>
    (do pure (.string (← string))) <|> array (value depth) <|> inlineTable (value depth) <|> plainValue

def line : Reader (Option Line) := do
  blanks
  (do
    text ['[', '[']
    let (path, last) ← key
    text [']', ']']
    lineEnd
    pure (some (.element path last)))
  <|> (do
    text ['[']
    let (path, last) ← key
    text [']']
    lineEnd
    pure (some (.table path last)))
  <|> (do
    let (path, last) ← key
    text ['=']
    blanks
    let v ← value (depthLimit - 1)
    lineEnd
    pure (some (.entry path last v)))
  <|> (do
    lineEnd
    pure none)

def lines : Reader (List Line) := do
  optional (text ['\ufeff'])
  let read ← many line
  atEnd
  pure (read.filterMap id)

end Reader

/-- The entries of the document that a text denotes. -/
def document? (s : String) : Option Entries := do
  let (read, _) ← Reader.lines s.toList
  addLines [] [] read

end ScriptCache.Toml
