import ScriptCache.Text.Digits
import ScriptCache.Text.Utf8

/-!
# Percent-encoding

Each part of a URL has a set of ASCII characters that are written as the two hexadecimal digits
of their byte behind a percent sign. Other characters than ASCII are always written so, byte by
byte.
-/

namespace ScriptCache.Percent

/-- Characters that must be encoded. -/
abbrev EncodeSet := Char → Bool

def controls : EncodeSet := fun c ↦ c.toNat < 0x20 || 0x7F ≤ c.toNat

def query : EncodeSet := fun c ↦ controls c || [' ', '"', '#', '<', '>'].contains c

/-- The queries of special schemes also encode the apostrophe. -/
def specialQuery : EncodeSet := fun c ↦ query c || c.toNat = 0x27

def fragment : EncodeSet := fun c ↦ controls c || [' ', '"', '<', '>', Char.ofNat 0x60].contains c

def path : EncodeSet := fun c ↦ fragment c || ['#', '?', '{', '}'].contains c

def userinfo : EncodeSet := fun c ↦
  path c || ['/', ':', ';', '=', '@', '[', '\\', ']', '^', '|'].contains c

def encodeByte (b : UInt8) : List Char :=
  ['%', Text.hexDigit (b.toNat / 16), Text.hexDigit (b.toNat % 16)]

def encodeChar (set : EncodeSet) (c : Char) : List Char :=
  if set c then (String.utf8EncodeChar c).flatMap encodeByte else [c]

def encode (set : EncodeSet) (s : List Char) : List Char := s.flatMap (encodeChar set)

/-- The bytes of a text, where a percent sign and two hexadecimal digits stand for one byte. -/
def decode : List Char → List UInt8
  | [] => []
  | '%' :: a :: b :: rest =>
    match Text.hexValue? a, Text.hexValue? b with
    | some high, some low => (high * 16 + low).toUInt8 :: decode rest
    | _, _ => 0x25 :: decode (a :: b :: rest)
  | c :: rest => String.utf8EncodeChar c ++ decode rest

end ScriptCache.Percent
