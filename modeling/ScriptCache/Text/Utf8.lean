/-!
# UTF-8 text in bytes

A byte string is read as a list of pieces: a piece is a character, or a maximal part that no
character starts with. Strict reading accepts the byte strings without such parts; lossy reading
writes U+FFFD for each of them.
-/

namespace ScriptCache.Utf8

/-- Reads the bytes that still belong to a character. The part read so far is given back as
ill-formed at the first byte outside the range that the bytes before it allow. -/
def finish (value : Nat) : Nat → UInt8 → UInt8 → List UInt8 → Option Char × List UInt8
  | 0, _, _, rest => (some (Char.ofNat value), rest)
  | _ + 1, _, _, [] => (none, [])
  | owed + 1, low, high, b :: rest =>
    if low ≤ b ∧ b ≤ high then finish (value * 64 + b.toNat % 64) owed 0x80 0xBF rest
    else (none, b :: rest)

/-- The piece that starts with the byte `b`, and the bytes after it. -/
def piece (b : UInt8) (rest : List UInt8) : Option Char × List UInt8 :=
  if b < 0x80 then (some (Char.ofNat b.toNat), rest)
  else if b < 0xC2 then (none, rest)
  else if b < 0xE0 then finish (b.toNat % 32) 1 0x80 0xBF rest
  else if b = 0xE0 then finish 0 2 0xA0 0xBF rest
  else if b = 0xED then finish 13 2 0x80 0x9F rest
  else if b < 0xF0 then finish (b.toNat % 16) 2 0x80 0xBF rest
  else if b = 0xF0 then finish 0 3 0x90 0xBF rest
  else if b < 0xF4 then finish (b.toNat % 8) 3 0x80 0xBF rest
  else if b = 0xF4 then finish 4 3 0x80 0x8F rest
  else (none, rest)

theorem length_finish_le (value owed : Nat) (low high : UInt8) (rest : List UInt8) :
    (finish value owed low high rest).2.length ≤ rest.length := by
  induction rest generalizing value owed low high with
  | nil => cases owed <;> simp [finish]
  | cons b rest ih =>
    cases owed with
    | zero => simp [finish]
    | succ owed =>
      rw [finish]
      split
      · exact Nat.le_succ_of_le (ih ..)
      · simp

theorem length_piece_le (b : UInt8) (rest : List UInt8) :
    (piece b rest).2.length ≤ rest.length := by
  unfold piece
  repeat' split
  all_goals first | exact length_finish_le .. | exact Nat.le_refl _

/-- The pieces of a byte string in order; `none` stands for a maximal ill-formed part. -/
def pieces : List UInt8 → List (Option Char)
  | [] => []
  | b :: rest => (piece b rest).1 :: pieces (piece b rest).2
termination_by bytes => bytes.length
decreasing_by exact Nat.lt_succ_of_le (length_piece_le b rest)

/-- The text of a byte string, with U+FFFD for every maximal ill-formed part. -/
def decodeLossy (bytes : List UInt8) : String :=
  String.ofList ((pieces bytes).map (·.getD '\ufffd'))

/-- The text of a well-formed byte string. -/
def decode? (bytes : List UInt8) : Option String :=
  ((pieces bytes).mapM id).map String.ofList

def encode (text : String) : List UInt8 :=
  text.toList.flatMap String.utf8EncodeChar

end ScriptCache.Utf8
