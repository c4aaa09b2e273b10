import ScriptCache.Proofs.Text.Split
import ScriptCache.Text.Utf8

/-!
# Text and its bytes

The bytes of a text are read as its characters again, one piece for each. Whatever bytes are read,
ASCII characters come from the bytes that they are, and other bytes give other characters.
-/

namespace ScriptCache.Utf8

variable {value owed n k : Nat} {low high b : UInt8} {c : Char} {rest : List UInt8}

theorem toNat_ofNat (small : n < 256) : (UInt8.ofNat n).toNat = n := by
  rw [UInt8.toNat_ofNat', Nat.mod_eq_of_lt small]

/-! ## One byte -/

/-- A byte in the range that is owed belongs to the character. -/
theorem finish_cons (small : n < 256) (ge : low.toNat ≤ n) (le : n ≤ high.toNat)
    (rest : List UInt8) :
    finish value (owed + 1) low high (UInt8.ofNat n :: rest) =
      finish (value * 64 + n % 64) owed 0x80 0xBF rest := by
  have inside : low ≤ UInt8.ofNat n ∧ UInt8.ofNat n ≤ high := by
    rw [UInt8.le_iff_toNat_le, UInt8.le_iff_toNat_le, toNat_ofNat small]
    exact ⟨ge, le⟩
  rw [finish, if_pos inside, toNat_ofNat small]

theorem finish_last (ge : low.toNat ≤ n % 64 + 128) (le : n % 64 + 128 ≤ high.toNat)
    (rest : List UInt8) :
    finish value 1 low high (UInt8.ofNat (n % 64 + 128) :: rest) =
      (some (Char.ofNat (value * 64 + n % 64)), rest) := by
  have digit : (n % 64 + 128) % 64 = n % 64 := by omega
  rw [finish_cons (by omega) ge le, finish, digit]

theorem finish_tail (ge : low.toNat ≤ n % 64 + 128) (le : n % 64 + 128 ≤ high.toNat)
    (rest : List UInt8) :
    finish value (owed + 2) low high (UInt8.ofNat (n % 64 + 128) :: rest) =
      finish (value * 64 + n % 64) (owed + 1) 0x80 0xBF rest := by
  have digit : (n % 64 + 128) % 64 = n % 64 := by omega
  rw [finish_cons (by omega) ge le, digit]

/-- How the pieces begin, by the number that the first byte is. -/
theorem piece_ofNat (small : n < 256) (rest : List UInt8) :
    piece (UInt8.ofNat n) rest =
      if n < 0x80 then (some (Char.ofNat n), rest)
      else if n < 0xC2 then (none, rest)
      else if n < 0xE0 then finish (n % 32) 1 0x80 0xBF rest
      else if n = 0xE0 then finish 0 2 0xA0 0xBF rest
      else if n = 0xED then finish 13 2 0x80 0x9F rest
      else if n < 0xF0 then finish (n % 16) 2 0x80 0xBF rest
      else if n = 0xF0 then finish 0 3 0x90 0xBF rest
      else if n < 0xF4 then finish (n % 8) 3 0x80 0xBF rest
      else if n = 0xF4 then finish 4 3 0x80 0x8F rest
      else (none, rest) := by
  have lt (m : UInt8) : UInt8.ofNat n < m ↔ n < m.toNat := by
    rw [UInt8.lt_iff_toNat_lt, toNat_ofNat small]
  have eq (m : UInt8) : UInt8.ofNat n = m ↔ n = m.toNat := by
    rw [← UInt8.toNat_inj, toNat_ofNat small]
  simp only [piece, lt, eq, toNat_ofNat small]
  rfl

/-- The first of two bytes, whose character is not an ASCII one. -/
theorem piece_two (least : 2 ≤ k) (small : k < 32) (rest : List UInt8) :
    piece (UInt8.ofNat (k + 192)) rest = finish k 1 0x80 0xBF rest := by
  have digit : (k + 192) % 32 = k := by omega
  rw [piece_ofNat (by omega), if_neg (by omega), if_neg (by omega), if_pos (by omega), digit]

/-- The first of three bytes. Those that could do with two, and surrogates, are left out. -/
theorem piece_three (small : k < 16) (rest : List UInt8) :
    piece (UInt8.ofNat (k + 224)) rest =
      finish k 2 (if k = 0 then 0xA0 else 0x80) (if k = 13 then 0x9F else 0xBF) rest := by
  rw [piece_ofNat (by omega), if_neg (by omega), if_neg (by omega), if_neg (by omega)]
  by_cases first : k = 0
  · subst first
    rfl
  · rw [if_neg (by omega), if_neg first]
    by_cases surrogate : k = 13
    · subst surrogate
      rfl
    · have digit : (k + 224) % 16 = k := by omega
      rw [if_neg (by omega), if_neg surrogate, if_pos (by omega), digit]

/-- The first of four bytes. Those that could do with three, and numbers beyond the last character,
are left out. -/
theorem piece_four (small : k < 5) (rest : List UInt8) :
    piece (UInt8.ofNat (k + 240)) rest =
      finish k 3 (if k = 0 then 0x90 else 0x80) (if k = 4 then 0x8F else 0xBF) rest := by
  rw [piece_ofNat (by omega), if_neg (by omega), if_neg (by omega), if_neg (by omega),
    if_neg (by omega), if_neg (by omega), if_neg (by omega)]
  by_cases first : k = 0
  · subst first
    rfl
  · rw [if_neg (by omega), if_neg first]
    by_cases last : k = 4
    · subst last
      rfl
    · have digit : (k + 240) % 8 = k := by omega
      rw [if_pos (by omega), if_neg last, digit]

/-! ## Whole texts -/

/-- The bytes of a character are a piece. -/
theorem exists_piece (c : Char) (rest : List UInt8) :
    ∃ b tail, String.utf8EncodeChar c = b :: tail ∧ piece b (tail ++ rest) = (some c, rest) := by
  have same : Char.ofNat c.val.toNat = c := c.ofNat_toNat
  have valid : c.val.toNat < 0xD800 ∨ 0xDFFF < c.val.toNat ∧ c.val.toNat < 0x110000 := c.valid
  simp only [String.utf8EncodeChar]
  generalize c.val.toNat = v at *
  split
  · refine ⟨_, _, rfl, ?_⟩
    rw [piece_ofNat (by omega), if_pos (by omega), same]
    rfl
  split
  · refine ⟨_, _, rfl, ?_⟩
    have value : v / 64 % 32 * 64 + v % 64 = v := by omega
    rw [piece_two (by omega) (by omega)]
    refine (finish_last (by simp) (by simp; omega) _).trans ?_
    rw [value, same]
    rfl
  split
  · refine ⟨_, _, rfl, ?_⟩
    have value : (v / 4096 % 16 * 64 + v / 64 % 64) * 64 + v % 64 = v := by omega
    rw [piece_three (by omega)]
    refine (finish_tail (by split <;> simp; omega) (by split <;> simp <;> omega) _).trans ?_
    refine (finish_last (by simp) (by simp; omega) _).trans ?_
    rw [value, same]
    rfl
  · refine ⟨_, _, rfl, ?_⟩
    have value : ((v / 262144 % 8 * 64 + v / 4096 % 64) * 64 + v / 64 % 64) * 64 + v % 64 = v := by
      omega
    rw [piece_four (by omega)]
    refine (finish_tail (by split <;> simp; omega) (by split <;> simp <;> omega) _).trans ?_
    refine (finish_tail (by simp) (by simp; omega) _).trans ?_
    refine (finish_last (by simp) (by simp; omega) _).trans ?_
    rw [value, same]
    rfl

theorem pieces_encodeChar (c : Char) (rest : List UInt8) :
    pieces (String.utf8EncodeChar c ++ rest) = some c :: pieces rest := by
  obtain ⟨b, tail, eq, read⟩ := exists_piece c rest
  rw [eq, List.cons_append, pieces, read]

theorem pieces_flatMap (chars : List Char) :
    pieces (chars.flatMap String.utf8EncodeChar) = chars.map some := by
  induction chars with
  | nil =>
    rw [List.flatMap_nil, pieces]
    rfl
  | cons c chars ih => rw [List.flatMap_cons, pieces_encodeChar, ih, List.map_cons]

/-- A text is read back from its bytes. -/
@[simp] theorem decode?_encode (text : String) : decode? (encode text) = some text := by
  have all (chars : List Char) : (chars.map some).mapM id = some chars :=
    Text.mapM_map_eq_some fun _ _ ↦ rfl
  rw [decode?, encode, pieces_flatMap, all, Option.map_some, String.ofList_toList]

/-! ## Lossy reading -/

theorem finish_suffix (value owed : Nat) (low high : UInt8) (rest : List UInt8) :
    (finish value owed low high rest).2 <:+ rest := by
  induction rest generalizing value owed low high with
  | nil => cases owed <;> simp [finish]
  | cons b rest ih =>
    cases owed with
    | zero => exact List.suffix_refl _
    | succ owed =>
      rw [finish]
      split
      · exact (ih ..).trans (List.suffix_cons b rest)
      · exact List.suffix_refl _

theorem piece_suffix (b : UInt8) (rest : List UInt8) : (piece b rest).2 <:+ rest := by
  unfold piece
  repeat' split
  all_goals first | exact finish_suffix .. | exact List.suffix_refl _

/-- Where a character lies by its first byte and the range of its second. -/
theorem exists_of_finish (low_ge : 128 ≤ low.toNat) (high_le : high.toNat ≤ 191)
    (h : (finish value (owed + 1) low high rest).1 = some c) :
    ∃ v, c = Char.ofNat v ∧ (value * 64 + (low.toNat - 128)) * 64 ^ owed ≤ v ∧
      v < (value * 64 + (high.toNat - 127)) * 64 ^ owed := by
  induction owed generalizing value low high rest with
  | zero =>
    cases rest with
    | nil => cases h
    | cons b rest =>
      rw [finish] at h
      split at h
      · rename_i inside
        rw [UInt8.le_iff_toNat_le, UInt8.le_iff_toNat_le] at inside
        simp only [finish, Option.some.injEq] at h
        exact ⟨_, h.symm, by omega, by omega⟩
      · cases h
  | succ owed ih =>
    cases rest with
    | nil => cases h
    | cons b rest =>
      rw [finish] at h
      split at h
      · rename_i inside
        rw [UInt8.le_iff_toNat_le, UInt8.le_iff_toNat_le] at inside
        obtain ⟨v, eq, ge, lt⟩ := ih (by decide) (by decide) h
        have least : (value * 64 + (low.toNat - 128)) * 64 ≤ (value * 64 + b.toNat % 64) * 64 := by
          omega
        have greatest : (value * 64 + b.toNat % 64) * 64 + 64 ≤
            (value * 64 + (high.toNat - 127)) * 64 := by omega
        refine ⟨v, eq, Nat.le_trans ?_ ge, Nat.lt_of_lt_of_le lt ?_⟩
        · rw [Nat.pow_succ', ← Nat.mul_assoc]
          exact Nat.mul_le_mul_right _ least
        · rw [Nat.pow_succ', ← Nat.mul_assoc]
          exact Nat.mul_le_mul_right _ greatest
      · cases h

/-- A byte beyond ASCII begins no ASCII character. -/
theorem le_of_piece (beyond : ¬b < 0x80) (h : (piece b rest).1 = some c) : 0x80 ≤ c.toNat := by
  have of_range {value owed : Nat} {low high : UInt8} (low_ge : 128 ≤ low.toNat)
      (high_le : high.toNat ≤ 191) (h : (finish value (owed + 1) low high rest).1 = some c)
      (first : 0x80 ≤ (value * 64 + (low.toNat - 128)) * 64 ^ owed)
      (range : (value * 64 + (high.toNat - 127)) * 64 ^ owed ≤ 0xD800 ∨
        0xE000 ≤ (value * 64 + (low.toNat - 128)) * 64 ^ owed ∧
          (value * 64 + (high.toNat - 127)) * 64 ^ owed ≤ 0x110000) : 0x80 ≤ c.toNat := by
    obtain ⟨v, rfl, ge, lt⟩ := exists_of_finish low_ge high_le h
    have valid : v.isValidChar := by
      unfold Nat.isValidChar
      omega
    rw [Char.ofNat, dif_pos valid]
    exact Nat.le_trans first ge
  obtain ⟨n, small, rfl⟩ : ∃ n < 256, b = UInt8.ofNat n :=
    ⟨b.toNat, b.toNat_lt, by simp⟩
  have beyond : ¬n < 0x80 := by rwa [UInt8.lt_iff_toNat_lt, toNat_ofNat small] at beyond
  rw [piece_ofNat small, if_neg beyond] at h
  split at h
  · cases h
  split at h
  · exact of_range (by decide) (by decide) h (by simp; omega) (by simp; omega)
  split at h
  · exact of_range (by decide) (by decide) h (by decide) (by decide)
  split at h
  · exact of_range (by decide) (by decide) h (by decide) (by decide)
  split at h
  · exact of_range (by decide) (by decide) h (by simp; omega) (by simp; omega)
  split at h
  · exact of_range (by decide) (by decide) h (by decide) (by decide)
  split at h
  · exact of_range (by decide) (by decide) h (by simp; omega) (by simp; omega)
  split at h
  · exact of_range (by decide) (by decide) h (by decide) (by decide)
  · cases h

theorem piece_ascii (ascii : b < 0x80) (rest : List UInt8) :
    piece b rest = (some (Char.ofNat b.toNat), rest) := by
  rw [piece, if_pos ascii]

theorem decodeLossy_ascii (ascii : b < 0x80) (rest : List UInt8) :
    (decodeLossy (b :: rest)).toList = Char.ofNat b.toNat :: (decodeLossy rest).toList := by
  rw [decodeLossy, pieces, piece_ascii ascii, decodeLossy, String.toList_ofList,
    String.toList_ofList]
  rfl

theorem decodeLossy_beyond (beyond : ¬b < 0x80) (rest : List UInt8) :
    ∃ c after, (decodeLossy (b :: rest)).toList = c :: (decodeLossy after).toList ∧
      after <:+ rest ∧ 0x80 ≤ c.toNat := by
  rw [decodeLossy, pieces, List.map_cons, String.toList_ofList]
  refine ⟨_, (piece b rest).2, by rw [decodeLossy, String.toList_ofList], piece_suffix b rest, ?_⟩
  cases first : (piece b rest).1 with
  | none => decide
  | some c => exact le_of_piece beyond first

end ScriptCache.Utf8
