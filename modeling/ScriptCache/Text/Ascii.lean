/-!
# ASCII bytes

Sources are read as bytes. A byte is written here as the ASCII character it stands for.
-/

namespace ScriptCache.Ascii

/-- The byte of an ASCII character. -/
abbrev byte (c : Char) : UInt8 := c.val.toUInt8

def ofString (text : String) : List UInt8 := text.toList.map byte

def isLetter (b : UInt8) : Bool :=
  (byte 'a' ≤ b && b ≤ byte 'z') || (byte 'A' ≤ b && b ≤ byte 'Z')

def isDigit (b : UInt8) : Bool := byte '0' ≤ b && b ≤ byte '9'

def toLower (b : UInt8) : UInt8 :=
  if byte 'A' ≤ b ∧ b ≤ byte 'Z' then b + 32 else b

def apostrophe : UInt8 := 0x27

def quote : UInt8 := 0x22

def backtick : UInt8 := 0x60

def backslash : UInt8 := 0x5C

/-- Whether the bytes begin with `text`, letter case aside. `text` is in lower case. -/
def startsWithCaseless (text bytes : List UInt8) : Bool :=
  text.isPrefixOf (bytes.map toLower)

end ScriptCache.Ascii
