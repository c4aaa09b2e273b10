import Mathlib
import ScriptCache.Proofs.Text.Utf8
import ScriptCache.Url.Percent

/-!
# Encoded text

Encoded text has none of the characters that its set encodes, and text without them is not changed
by encoding. So encoding twice is encoding once, and a smaller set has nothing left to do.
-/

namespace ScriptCache.Percent

variable {set other : EncodeSet} {s : List Char} {c : Char}

/-- What the bytes of a character are written with. -/
def signs : List Char := '%' :: (List.range 16).map Text.hexDigit

theorem mem_signs_of_mem_encodeByte {b : UInt8} (mem : c ∈ encodeByte b) : c ∈ signs := by
  have small := b.toNat_lt
  have digit (n : Nat) (lt : n < 16) : Text.hexDigit n ∈ signs :=
    List.mem_cons_of_mem _ (List.mem_map_of_mem (List.mem_range.mpr lt))
  simp only [encodeByte, List.mem_cons, List.not_mem_nil, or_false] at mem
  rcases mem with rfl | rfl | rfl
  · exact List.mem_cons_self
  · exact digit _ (by omega)
  · exact digit _ (by omega)

/-- A set that encodes nothing of what encoded text is written with. -/
def Spares (set : EncodeSet) : Prop := ∀ c ∈ signs, set c = false

theorem signs_eq : signs = "%0123456789ABCDEF".toList := by cbv

theorem spares_controls : Spares controls := by simp [Spares, signs_eq, controls]

theorem spares_query : Spares query := by simp [Spares, signs_eq, query, controls]

theorem spares_specialQuery : Spares specialQuery := by
  simp [Spares, signs_eq, specialQuery, query, controls]

theorem spares_fragment : Spares fragment := by simp [Spares, signs_eq, fragment, controls]

theorem spares_path : Spares path := by simp [Spares, signs_eq, path, fragment, controls]

theorem spares_userinfo : Spares userinfo := by
  simp [Spares, signs_eq, userinfo, path, fragment, controls]

theorem mem_encode (mem : c ∈ encode set s) : (c ∈ s ∧ set c = false) ∨ c ∈ signs := by
  obtain ⟨d, d_mem, mem⟩ := List.mem_flatMap.mp mem
  rw [encodeChar] at mem
  split at mem
  · obtain ⟨b, -, mem⟩ := List.mem_flatMap.mp mem
    exact .inr (mem_signs_of_mem_encodeByte mem)
  · rename_i out
    cases List.mem_singleton.mp mem
    exact .inl ⟨d_mem, Bool.eq_false_iff.mpr out⟩

theorem not_set_of_mem_encode (spares : Spares set) (mem : c ∈ encode set s) : set c = false := by
  rcases mem_encode mem with ⟨-, out⟩ | sign
  · exact out
  · exact spares c sign

theorem encode_of_not_set (out : ∀ c ∈ s, set c = false) : encode set s = s := by
  induction s with
  | nil => rfl
  | cons c s ih =>
    obtain ⟨first, others⟩ := List.forall_mem_cons.mp out
    rw [encode, List.flatMap_cons, encodeChar, first, ← encode, ih others]
    rfl

theorem encode_encode (spares : Spares set) (s : List Char) :
    encode set (encode set s) = encode set s :=
  encode_of_not_set fun _ ↦ not_set_of_mem_encode spares

theorem length_encodeChar (set : EncodeSet) (c : Char) : 1 ≤ (encodeChar set c).length := by
  rw [encodeChar]
  split
  · have bytes : 0 < (String.utf8EncodeChar c).length := by
      rw [String.length_utf8EncodeChar]
      exact c.utf8Size_pos
    obtain ⟨b, rest, eq⟩ := List.exists_cons_of_length_pos bytes
    simp [eq, encodeByte]
  · simp

theorem length_encode (set : EncodeSet) (s : List Char) : s.length ≤ (encode set s).length := by
  induction s with
  | nil => simp
  | cons c s ih =>
    have first := length_encodeChar set c
    rw [encode, List.flatMap_cons, ← encode, List.length_append, List.length_cons]
    omega

theorem encode_ne_nil (set : EncodeSet) (full : s ≠ []) : encode set s ≠ [] := by
  have longer := length_encode set s
  rw [← List.length_pos_iff] at full ⊢
  omega

/-- Text is kept exactly when it has nothing to encode, since all that is encoded grows. -/
theorem encode_eq_self_iff : encode set s = s ↔ ∀ c ∈ s, set c = false := by
  refine ⟨fun same ↦ ?_, encode_of_not_set⟩
  induction s with
  | nil => simp
  | cons c s ih =>
    have rest := length_encode set s
    rw [encode, List.flatMap_cons, ← encode, encodeChar] at same
    split at same
    · have bytes : 0 < (String.utf8EncodeChar c).length := by
        rw [String.length_utf8EncodeChar]
        exact c.utf8Size_pos
      obtain ⟨b, others, eq⟩ := List.exists_cons_of_length_pos bytes
      have lengths := congrArg List.length same
      simp only [eq, List.flatMap_cons, encodeByte, List.length_append, List.length_cons] at lengths
      omega
    · rename_i out
      have others := ih (List.cons.inj same).2
      exact List.forall_mem_cons.mpr ⟨Bool.eq_false_iff.mpr out, others⟩

theorem head?_of_encode (first : (encode set s).head? = some c) (plain : c ∉ signs) :
    s.head? = some c := by
  cases s with
  | nil => cases first
  | cons d s =>
    have full := List.ne_nil_of_length_pos (length_encodeChar set d)
    rw [encode, List.flatMap_cons, List.head?_append, List.head?_eq_some_head full, Option.some_or]
      at first
    have mem : c ∈ encodeChar set d := Option.some.inj first ▸ List.head_mem full
    rw [encodeChar] at mem
    split at mem
    · obtain ⟨b, -, mem⟩ := List.mem_flatMap.mp mem
      exact absurd (mem_signs_of_mem_encodeByte mem) plain
    · rw [List.mem_singleton.mp mem]
      rfl

theorem getLast?_of_encode (last : (encode set s).getLast? = some c) (plain : c ∉ signs) :
    s.getLast? = some c := by
  rcases List.eq_nil_or_concat' s with rfl | ⟨init, d, rfl⟩
  · cases last
  · have split : encode set (init ++ [d]) = encode set init ++ encode set [d] := List.flatMap_append
    have full : encode set [d] ≠ [] := encode_ne_nil set (List.cons_ne_nil d [])
    rw [split, List.getLast?_append_of_ne_nil _ full] at last
    rcases mem_encode (List.mem_of_getLast? last) with ⟨mem, -⟩ | sign
    · rw [List.getLast?_concat, List.mem_singleton.mp mem]
    · contradiction

/-- Text without percent signs stands for its bytes. -/
theorem decode_of_no_percent (plain : ∀ c ∈ s, c ≠ '%') :
    decode s = Utf8.encode (String.ofList s) := by
  rw [Utf8.encode, String.toList_ofList]
  induction s with
  | nil => rfl
  | cons c s ih =>
    obtain ⟨first, others⟩ := List.forall_mem_cons.mp plain
    rw [decode.eq_def]
    split
    · contradiction
    · rename_i eq
      exact absurd (List.cons.inj eq).1 first
    · rename_i eq
      cases eq
      rw [List.flatMap_cons, ih others]

/-! ## The sets -/

theorem controls_eq_false_iff : controls c = false ↔ 0x20 ≤ c.toNat ∧ c.toNat < 0x7F := by
  simp [controls]

theorem visible_of_controls (out : controls c = false) (no_blank : c ≠ ' ') : 0x20 < c.toNat := by
  have low := (controls_eq_false_iff.mp out).1
  have other : c.toNat ≠ 0x20 := fun eq ↦ no_blank (Char.toNat_inj.mp eq)
  omega

theorem controls_of_query (out : query c = false) : controls c = false :=
  (Bool.or_eq_false_iff.mp out).1

theorem query_of_specialQuery (out : specialQuery c = false) : query c = false :=
  (Bool.or_eq_false_iff.mp out).1

theorem controls_of_fragment (out : fragment c = false) : controls c = false :=
  (Bool.or_eq_false_iff.mp out).1

theorem fragment_of_path (out : path c = false) : fragment c = false :=
  (Bool.or_eq_false_iff.mp out).1

theorem query_of_path (out : path c = false) : query c = false := by
  have fragment := fragment_of_path out
  have controls := controls_of_fragment fragment
  have plain : c ∉ [' ', '"', '<', '>', Char.ofNat 0x60] := by
    simpa using (Bool.or_eq_false_iff.mp fragment).2
  have sign : c ∉ ['#', '?', '{', '}'] := by simpa using (Bool.or_eq_false_iff.mp out).2
  simp_all [query]

theorem path_of_userinfo (out : userinfo c = false) : path c = false :=
  (Bool.or_eq_false_iff.mp out).1

theorem specialQuery_eq_false_iff :
    specialQuery c = false ↔ query c = false ∧ c.toNat ≠ 0x27 := by
  simp [specialQuery]

theorem ne_of_query (out : query c = false) : c ≠ ' ' ∧ c ≠ '#' := by
  constructor <;> rintro rfl <;> exact absurd out (by decide)

theorem ne_of_fragment (out : fragment c = false) : c ≠ ' ' := by
  rintro rfl
  exact absurd out (by decide)

theorem ne_of_path (out : path c = false) : c ≠ ' ' ∧ c ≠ '#' ∧ c ≠ '?' := by
  refine ⟨?_, ?_, ?_⟩ <;> rintro rfl <;> exact absurd out (by decide)

theorem ne_of_userinfo (out : userinfo c = false) :
    c ≠ '/' ∧ c ≠ '\\' ∧ c ≠ '@' ∧ c ≠ ':' := by
  refine ⟨?_, ?_, ?_, ?_⟩ <;> rintro rfl <;> exact absurd out (by decide)

end ScriptCache.Percent
