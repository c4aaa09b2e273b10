import ScriptCache.Proofs.Text.Digits
import ScriptCache.Proofs.Text.Split
import ScriptCache.Url.Address

/-!
# Numeric addresses are read back

The text of an address is read as this address.
-/

namespace ScriptCache

namespace Ipv4

variable {n : Nat}

theorem number?_toString (n : Nat) : number? (toString n).toList = some n := by
  have full := Text.toString_ne_nil n
  have digit (c : Char) (mem : c ∈ (toString n).toList) : (Text.hexValue? c).any (· < 10) := by
    rw [Text.toList_toString] at mem
    obtain ⟨k, small, rfl⟩ := Text.exists_digit_of_mem_toDigits (by decide) mem
    simp [Text.hexValue?_digitChar (k := k) (by omega), small]
  have alone := Text.head_toString (n := n)
  have value := Text.decimal_toString n
  revert full digit alone value
  generalize (toString n).toList = part
  intro full digit alone value
  unfold number?
  split
  rename_i base digits read
  -- a zero in front would say that the number is octal or hexadecimal
  split at read
  · exact absurd rfl (alone (by simp))
  · exact absurd rfl (alone (by simp))
  · exact absurd rfl (alone (by simp))
  · cases read
    rw [if_neg (by simpa using full), if_pos (List.all_eq_true.mpr digit)]
    exact congrArg some value

theorem exists_bytes (a : Ipv4) :
    ∃ b₀ b₁ b₂ b₃, a.bytes = [b₀, b₁, b₂, b₃] ∧ (∀ b ∈ a.bytes, b ≤ 255) ∧
      ((b₀ * 256 + b₁) * 256 + b₂) * 256 + b₃ = a.toNat := by
  have bound := a.toNat_lt
  refine ⟨_, _, _, _, rfl, ?_, ?_⟩
  · simp only [bytes, List.mem_cons, List.not_mem_nil, or_false]
    rintro b (rfl | rfl | rfl | rfl) <;> omega
  · omega

theorem ofNumbers?_bytes (a : Ipv4) : ofNumbers? a.bytes = some a := by
  obtain ⟨b₀, b₁, b₂, b₃, eq, small, whole⟩ := exists_bytes a
  rw [eq] at small ⊢
  simp only [List.forall_mem_cons] at small
  obtain ⟨small₀, small₁, small₂, small₃, -⟩ := small
  have bytes_small : [b₂, b₁, b₀].any (255 < ·) = false := by
    simp
    omega
  have room : Nat.pow 256 1 = 256 := rfl
  have high : [b₀, b₁, b₂].foldl (fun n b ↦ n * 256 + b) 0 = (b₀ * 256 + b₁) * 256 + b₂ := by simp
  simp only [ofNumbers?, List.reverse_cons, List.reverse_nil, List.nil_append, List.cons_append,
    List.length_cons, List.length_nil, bytes_small, Nat.reduceAdd, Nat.reduceSub, room, high, whole]
  rw [if_neg (by simp; omega)]
  exact congrArg some UInt32.ofNat_toNat

theorem splitOn_text (a : Ipv4) : a.text.splitOn '.' = a.bytes.map fun b ↦ (toString b).toList := by
  refine List.splitOn_intercalate '.' ?_ (by simp [bytes])
  intro part mem dot
  obtain ⟨b, -, rfl⟩ := List.mem_map.mp mem
  exact absurd (Text.isDigit_of_mem_toString dot) (by decide)

theorem parts_text (a : Ipv4) : parts a.text = a.bytes.map fun b ↦ (toString b).toList := by
  have full : (a.bytes.map fun b ↦ (toString b).toList).getLast? ≠ some [] := by
    intro last
    obtain ⟨b, -, none⟩ := List.mem_map.mp (List.mem_of_getLast? last)
    exact Text.toString_ne_nil b none
  rw [parts, splitOn_text, if_neg full]

theorem ofName?_text (a : Ipv4) : ofName? a.text = some a := by
  rw [ofName?, parts_text, Text.mapM_map_eq_some fun b _ ↦ number?_toString b]
  exact ofNumbers?_bytes a

theorem mem_text {c : Char} {a : Ipv4} (mem : c ∈ a.text) :
    c = '.' ∨ ∃ k < 10, c = k.digitChar := by
  rcases Text.mem_of_mem_intercalate mem with dot | ⟨part, part_mem, mem⟩
  · exact .inl (List.mem_singleton.mp dot)
  · obtain ⟨b, -, rfl⟩ := List.mem_map.mp part_mem
    rw [Text.toList_toString] at mem
    exact .inr (Text.exists_digit_of_mem_toDigits (by decide) mem)

theorem isNumeric_text (a : Ipv4) : isNumeric a.text := by
  obtain ⟨b₀, b₁, b₂, b₃, eq, -⟩ := exists_bytes a
  have last : (parts a.text).getLast? = some (toString b₃).toList := by
    rw [parts_text, eq]
    rfl
  rw [isNumeric, last]
  dsimp only
  rw [number?_toString]
  exact Bool.or_true _

end Ipv4

namespace Ipv6

variable {n : Nat} {text before after : List Char} {pieces : List Nat}

/-! ## Pieces -/

theorem number_lt {digits : List Char} (all : ∀ c ∈ digits, (Text.hexValue? c).isSome) :
    Text.number 16 digits < 16 ^ digits.length := by
  induction digits using List.reverseRecOn with
  | nil => simp [Text.number]
  | append_singleton digits c ih =>
    have last := all c (by simp)
    obtain ⟨v, eq⟩ := Option.isSome_iff_exists.mp last
    have before := ih fun d mem ↦ all d (List.mem_append_left _ mem)
    have small := Text.lt_of_hexValue? eq
    rw [Text.number_concat, eq, List.length_append, List.length_singleton, Nat.pow_succ]
    simp only [Option.getD_some]
    omega

theorem lt_of_piece? {digits : List Char} (h : piece? digits = some n) : n < 65536 := by
  rw [piece?] at h
  split at h
  · cases h
  · rename_i short
    cases h
    simp only [Bool.or_eq_true, not_or, decide_eq_true_eq, Bool.not_eq_true', Bool.not_eq_false,
      List.all_eq_true] at short
    have bound := number_lt short.2
    have power : 16 ^ digits.length ≤ 16 ^ 4 := Nat.pow_le_pow_right (by decide) (by omega)
    omega

theorem lt_of_dotted? (h : dotted? text = some pieces) : ∀ p ∈ pieces, p < 65536 := by
  have small {digits : List Char} {n : Nat} (byte : byte? digits = some n) : n ≤ 255 := by
    rw [byte?] at byte
    split at byte
    · cases byte
    · rename_i fits
      cases byte
      simp only [Bool.or_eq_true, not_or, decide_eq_true_eq] at fits
      omega
  rw [dotted?] at h
  split at h
  · rename_i a b c d read
    cases h
    have byte (n : Nat) (mem : n ∈ [a, b, c, d]) : n ≤ 255 := by
      obtain ⟨digits, -, read⟩ := Text.exists_of_mem_mapM read mem
      exact small read
    simp only [List.forall_mem_cons] at byte
    simp
    omega
  · cases h

theorem lt_of_pieces? {tail : Bool} (h : pieces? tail text = some pieces) :
    ∀ p ∈ pieces, p < 65536 := by
  rw [pieces?] at h
  split at h
  · cases h
    simp
  · dsimp only at h
    split at h
    · cases h
    · split at h
      · simp only [Option.bind_eq_bind, Option.bind_eq_some_iff] at h
        obtain ⟨front, read, last, dots, h⟩ := h
        cases h
        intro p mem
        rcases List.mem_append.mp mem with mem | mem
        · obtain ⟨group, -, piece⟩ := Text.exists_of_mem_mapM read mem
          exact lt_of_piece? piece
        · exact lt_of_dotted? dots p mem
      · intro p mem
        obtain ⟨group, -, piece⟩ := Text.exists_of_mem_mapM h mem
        exact lt_of_piece? piece

/-- The addresses that there are. -/
structure IsAddress (a : Ipv6) : Prop where
  length : a.length = 8
  small : ∀ p ∈ a, p < 65536

theorem isAddress_of_ofText? {a : Ipv6} (h : ofText? text = some a) : IsAddress a := by
  rw [ofText?] at h
  split at h
  · simp only [Option.bind_eq_bind, Option.bind_eq_some_iff] at h
    obtain ⟨pieces, read, h⟩ := h
    split at h
    · rename_i eight
      cases h
      exact ⟨eight, lt_of_pieces? read⟩
    · cases h
  · simp only [Option.bind_eq_bind, Option.bind_eq_some_iff] at h
    obtain ⟨front, read_front, back, read_back, h⟩ := h
    split at h
    · rename_i few
      cases h
      constructor
      · simp only [List.length_append, List.length_replicate]
        omega
      · intro p mem
        rw [List.append_assoc, List.mem_append, List.mem_append] at mem
        rcases mem with mem | mem | mem
        · exact lt_of_pieces? read_front p mem
        · rw [(List.mem_replicate.mp mem).2]
          decide
        · exact lt_of_pieces? read_back p mem
    · cases h

theorem isSome_hexValue? {c : Char} (mem : c ∈ hexText n) : (Text.hexValue? c).isSome := by
  obtain ⟨k, lt, rfl⟩ := Text.exists_digit_of_mem_toDigits (by decide) mem
  rw [Text.hexValue?_digitChar lt]
  rfl

theorem hexText_ne_nil (n : Nat) : hexText n ≠ [] := Nat.toDigits_ne_nil

theorem no_colon (n : Nat) : ':' ∉ hexText n := fun mem ↦ absurd (isSome_hexValue? mem) (by decide)

theorem no_dot (n : Nat) : '.' ∉ hexText n := fun mem ↦ absurd (isSome_hexValue? mem) (by decide)

theorem piece?_hexText (small : n < 65536) : piece? (hexText n) = some n := by
  have full : (hexText n).isEmpty = false := by simp [hexText]
  have short : ¬4 < (hexText n).length := by
    rw [Nat.not_lt, hexText, Nat.length_toDigits_le_iff (by decide) (by decide)]
    exact small
  have digits : (hexText n).all fun c ↦ (Text.hexValue? c).isSome :=
    List.all_eq_true.mpr fun _ ↦ isSome_hexValue?
  rw [piece?, full, digits, decide_eq_false short, hexText,
    Text.number_toDigits (by decide) (by decide)]
  rfl

/-- Pieces with colons between them. -/
def joined (pieces : List Nat) : List Char := [':'].intercalate (pieces.map hexText)

theorem pieces?_joined (tail : Bool) (small : ∀ p ∈ pieces, p < 65536) :
    pieces? tail (joined pieces) = some pieces := by
  rcases List.eq_nil_or_concat' pieces with rfl | ⟨front, last, rfl⟩
  · rfl
  · have groups : (joined (front ++ [last])).splitOn ':' = (front ++ [last]).map hexText := by
      refine List.splitOn_intercalate ':' ?_ (by simp)
      intro group mem
      obtain ⟨n, -, rfl⟩ := List.mem_map.mp mem
      exact no_colon n
    have full : ¬(joined (front ++ [last])).isEmpty := by
      intro empty
      rw [List.isEmpty_iff.mp empty] at groups
      have first : hexText last ∈ ([].splitOn ':' : List (List Char)) := by
        rw [groups]
        simp
      exact hexText_ne_nil last (by simpa using first)
    have behind : ((front ++ [last]).map hexText).getLast? = some (hexText last) := by simp
    have dotless : (hexText last).contains '.' = false := by simpa using no_dot last
    rw [pieces?, if_neg full, groups]
    simp only [behind, dotless, Bool.and_false, Bool.false_eq_true, if_false]
    exact Text.mapM_map_eq_some fun p mem ↦ piece?_hexText (small p mem)

theorem mem_joined {c : Char} (mem : c ∈ joined pieces) : c = ':' ∨ ∃ k < 16, c = k.digitChar := by
  rcases Text.mem_of_mem_intercalate mem with colon | ⟨part, part_mem, mem⟩
  · exact .inl (List.mem_singleton.mp colon)
  · obtain ⟨p, -, rfl⟩ := List.mem_map.mp part_mem
    exact .inr (Text.exists_digit_of_mem_toDigits (by decide) mem)

theorem mem_text {c : Char} {a : Ipv6} (mem : c ∈ a.text) :
    c = ':' ∨ ∃ k < 16, c = k.digitChar := by
  rw [Ipv6.text] at mem
  dsimp only at mem
  split at mem
  · exact mem_joined mem
  · rw [List.append_assoc, List.mem_append, List.mem_append] at mem
    rcases mem with mem | mem | mem
    · exact mem_joined mem
    · left
      simpa using mem
    · exact mem_joined mem

/-! ## The gap -/

theorem splitGap_cons {c : Char} (apart : c = ':' → text.head? ≠ some ':') :
    splitGap (c :: text) = (splitGap text).map fun (before, after) ↦ (c :: before, after) := by
  rw [splitGap.eq_def]
  split
  · rename_i eq
    cases eq
    exact absurd rfl (apart rfl)
  · rename_i eq
    cases eq
    rfl
  · contradiction

theorem splitGap_cons_eq_none_iff {c : Char} :
    splitGap (c :: text) = none ↔ (c = ':' → text.head? ≠ some ':') ∧ splitGap text = none := by
  by_cases apart : c = ':' → text.head? ≠ some ':'
  · rw [splitGap_cons apart, Option.map_eq_none_iff]
    exact (and_iff_right apart).symm
  · have gap : ∃ rest, c = ':' ∧ text = ':' :: rest := by
      simpa [List.head?_eq_some_iff] using apart
    obtain ⟨rest, rfl, rfl⟩ := gap
    simp [splitGap]

theorem splitGap_eq_none_of_append (closed : splitGap (before ++ after) = none) :
    splitGap before = none := by
  induction before with
  | nil => rfl
  | cons c before ih =>
    rw [List.cons_append] at closed
    obtain ⟨apart, closed⟩ := splitGap_cons_eq_none_iff.mp closed
    refine splitGap_cons_eq_none_iff.mpr ⟨fun colon first ↦ apart colon ?_, ih closed⟩
    rw [List.head?_append, first, Option.some_or]

/-- The first double colon is found where one ends a text that has none before. -/
theorem splitGap_append (closed : splitGap (before ++ [':']) = none) (after : List Char) :
    splitGap (before ++ ':' :: ':' :: after) = some (before, after) := by
  induction before with
  | nil => rfl
  | cons c before ih =>
    obtain ⟨apart, closed⟩ := splitGap_cons_eq_none_iff.mp closed
    rw [List.cons_append, splitGap_cons ?_, ih closed]
    · rfl
    · simpa [List.head?_append] using apart

/-- The text of pieces, each with a colon behind it. -/
def closed (pieces : List Nat) : List Char := pieces.flatMap fun p ↦ hexText p ++ [':']

theorem splitGap_part {part : List Char} (plain : ':' ∉ part) (apart : text.head? ≠ some ':')
    (closed : splitGap text = none) : splitGap (part ++ ':' :: text) = none := by
  induction part with
  | nil => exact splitGap_cons_eq_none_iff.mpr ⟨fun _ ↦ apart, closed⟩
  | cons c part ih =>
    rw [List.mem_cons, not_or] at plain
    obtain ⟨other, plain⟩ := plain
    exact splitGap_cons_eq_none_iff.mpr ⟨fun colon ↦ absurd colon.symm other, ih plain⟩

theorem head?_hexText_append (n : Nat) (text : List Char) :
    (hexText n ++ text).head? ≠ some ':' := by
  obtain ⟨c, rest, eq⟩ := List.exists_cons_of_ne_nil (hexText_ne_nil n)
  have plain := no_colon n
  rw [eq] at plain ⊢
  intro colon
  exact plain (List.mem_of_head? colon)

theorem splitGap_closed (pieces : List Nat) : splitGap (closed pieces) = none := by
  induction pieces with
  | nil => rfl
  | cons p pieces ih =>
    rw [closed, List.flatMap_cons, List.append_assoc, List.singleton_append]
    refine splitGap_part (no_colon p) ?_ ih
    cases pieces with
    | nil => nofun
    | cons q pieces =>
      rw [List.flatMap_cons, List.append_assoc]
      exact head?_hexText_append q _

theorem joined_append_colon (full : pieces ≠ []) : joined pieces ++ [':'] = closed pieces := by
  induction pieces with
  | nil => contradiction
  | cons p pieces ih =>
    cases pieces with
    | nil => simp [joined, closed]
    | cons q pieces =>
      have step : joined (p :: q :: pieces) = hexText p ++ [':'] ++ joined (q :: pieces) := by
        simp [joined, List.intercalate_cons_cons]
      rw [step, List.append_assoc, ih (by simp)]
      rfl

theorem splitGap_joined_colon (pieces : List Nat) : splitGap (joined pieces ++ [':']) = none := by
  by_cases empty : pieces = []
  · subst empty
    rfl
  · rw [joined_append_colon empty]
    exact splitGap_closed pieces

/-! ## The longest run of zeros -/

/-- There are zeros from `start` on. -/
def IsGap (a : Ipv6) (start run : Nat) : Prop :=
  ∃ front back, a = front ++ (List.replicate run 0 ++ back) ∧ front.length = start

theorem isGap_zeros (front pieces : List Nat) :
    IsGap (front ++ pieces) front.length (zeros pieces) := by
  have zero : pieces.takeWhile (· = 0) = List.replicate (zeros pieces) 0 := by
    rw [List.eq_replicate_iff]
    exact ⟨rfl, fun p mem ↦ by simpa using List.mem_takeWhile_imp mem⟩
  refine ⟨front, pieces.dropWhile (· = 0), ?_, rfl⟩
  rw [← zero, List.takeWhile_append_dropWhile]

theorem isGap_longestGap {a : Ipv6} {b : Nat × Nat} (front : List Nat) (eq : a = front ++ pieces)
    (known : 1 ≤ b.2 ∧ (b.2 = 1 ∨ IsGap a b.1 b.2)) :
    1 ≤ (longestGap front.length b pieces).2 ∧ ((longestGap front.length b pieces).2 = 1 ∨
      IsGap a (longestGap front.length b pieces).1 (longestGap front.length b pieces).2) := by
  induction pieces generalizing front b with
  | nil => exact known
  | cons p pieces ih =>
    have longer : (front ++ [p]).length = front.length + 1 := by simp
    rw [longestGap, ← longer]
    refine ih (front ++ [p]) (by simpa using eq) ?_
    split
    · rename_i more
      exact ⟨by omega, .inr (eq ▸ isGap_zeros front (p :: pieces))⟩
    · exact known

theorem ofText?_text {a : Ipv6} (address : IsAddress a) : ofText? a.text = some a := by
  obtain ⟨positive, gap⟩ := isGap_longestGap (b := (0, 1)) [] (List.nil_append a).symm
    ⟨Nat.le_refl 1, .inl rfl⟩
  have eight := address.length
  rw [List.length_nil] at positive gap
  rw [text]
  generalize longestGap 0 (0, 1) a = found at positive gap ⊢
  obtain ⟨start, run⟩ := found
  dsimp only at positive gap ⊢
  split
  · have single := splitGap_eq_none_of_append (splitGap_joined_colon a)
    have pieces := pieces?_joined true address.small
    rw [joined] at single pieces
    rw [ofText?, single]
    simp [pieces, eight]
  · rename_i several
    obtain ⟨front, back, eq, rfl⟩ := gap.resolve_left several
    have taken : a.take front.length = front := by rw [eq, List.take_left]
    have dropped : a.drop (front.length + run) = back := by
      rw [eq, ← List.append_assoc]
      exact List.drop_left' (by simp)
    have lengths := congrArg List.length eq
    simp only [List.length_append, List.length_replicate, eight] at lengths
    have front_small : ∀ p ∈ front, p < 65536 := fun p mem ↦
      address.small p (eq ▸ List.mem_append_left _ mem)
    have back_small : ∀ p ∈ back, p < 65536 := fun p mem ↦
      address.small p (eq ▸ List.mem_append_right _ (List.mem_append_right _ mem))
    -- no double colon stands in front of the gap, so the first one is that of the gap
    have split := splitGap_append (splitGap_joined_colon front) (joined back)
    have missing : 8 - front.length - back.length = run := by omega
    have same : [':'].intercalate (front.map hexText) ++ [':', ':']
        ++ [':'].intercalate (back.map hexText) = joined front ++ ':' :: ':' :: joined back := by
      simp [joined]
    rw [taken, dropped, same, ofText?, split]
    simp only [pieces?_joined _ front_small, pieces?_joined _ back_small, Option.bind_eq_bind,
      Option.bind_some]
    rw [if_pos (by omega), missing, List.append_assoc, ← eq]

end Ipv6

end ScriptCache
