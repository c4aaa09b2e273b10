import ScriptCache.Text.Utf8

/-!
# The order of texts and the order of their bytes

Texts are ordered character by character. Their UTF-8 bytes are in the same order, since the
bytes of a character compare like the character, and no character's bytes begin another's.
-/

namespace ScriptCache.Utf8

theorem ofNat_lt_ofNat {m n : Nat} (hm : m < 256) (hn : n < 256) :
    UInt8.ofNat m < UInt8.ofNat n ↔ m < n := by
  rw [UInt8.lt_iff_toNat_lt, UInt8.toNat_ofNat', UInt8.toNat_ofNat', Nat.mod_eq_of_lt hm,
    Nat.mod_eq_of_lt hn]

theorem ofNat_eq_ofNat {m n : Nat} (hm : m < 256) (hn : n < 256) :
    UInt8.ofNat m = UInt8.ofNat n ↔ m = n := by
  rw [← UInt8.toNat_inj, UInt8.toNat_ofNat', UInt8.toNat_ofNat', Nat.mod_eq_of_lt hm,
    Nat.mod_eq_of_lt hn]

/-- The bytes of a lesser character are less, whatever stands behind them. -/
theorem encodeChar_append_lt {c d : Char} (h : c < d) (x y : List UInt8) :
    String.utf8EncodeChar c ++ x < String.utf8EncodeChar d ++ y := by
  have lt : c.val.toNat < d.val.toNat := h
  have bound : d.val.toNat < 0x110000 := by
    rcases d.valid with low | high
    · exact Nat.lt_trans low (by decide)
    · exact high.2
  simp only [String.utf8EncodeChar]
  generalize c.val.toNat = m at *
  generalize d.val.toNat = n at *
  have digits (k : Nat) (hk : k < 0x110000) : k / 64 / 64 = k / 4096 ∧
      k / 4096 / 64 = k / 262144 ∧ k / 262144 % 8 = k / 262144 := by omega
  have digitsLow := digits m (by omega)
  have digitsHigh := digits n bound
  repeat' split
  all_goals
    simp (disch := omega) only [List.cons_append, List.nil_append, List.cons_lt_cons_iff,
      ofNat_lt_ofNat, ofNat_eq_ofNat]
    omega

theorem flatMap_encodeChar_lt {s t : List Char} (h : s < t) :
    s.flatMap String.utf8EncodeChar < t.flatMap String.utf8EncodeChar := by
  induction s generalizing t with
  | nil =>
    cases t with
    | nil => exact absurd h (List.lt_irrefl _)
    | cons d t =>
      obtain ⟨b, rest, eq⟩ := List.exists_cons_of_ne_nil (String.utf8EncodeChar_ne_nil (c := d))
      rw [List.flatMap_cons, eq]
      exact List.nil_lt_cons _ _
  | cons c s ih =>
    cases t with
    | nil => exact absurd h (List.not_lt_nil _)
    | cons d t =>
      rw [List.flatMap_cons, List.flatMap_cons]
      rcases List.cons_lt_cons_iff.mp h with lt | ⟨rfl, lt⟩
      · exact encodeChar_append_lt lt _ _
      · exact List.append_left_lt (ih lt)

/-- Texts are in the order of their bytes. -/
theorem encode_lt_encode {s t : String} : encode s < encode t ↔ s < t := by
  refine ⟨fun h ↦ Decidable.byContradiction fun ge ↦ ?_, fun h ↦ flatMap_encodeChar_lt h⟩
  by_cases eq : t = s
  · exact List.lt_irrefl _ (eq ▸ h)
  · have lt : t < s := by
      refine Decidable.byContradiction fun le ↦ eq (String.le_antisymm ge le)
    exact List.lt_asymm h (flatMap_encodeChar_lt lt)

end ScriptCache.Utf8
