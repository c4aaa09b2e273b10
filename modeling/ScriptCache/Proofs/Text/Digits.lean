import ScriptCache.Text.Digits

/-!
# Numbers in decimal digits

The digits of a number denote it, and no zero stands in front of others.
-/

namespace ScriptCache.Text

variable {c : Char} {base n : Nat}

/-- A run of characters ends where they stop. -/
theorem takeWhile_run {p : Char → Bool} {run rest : List Char} (all : ∀ c ∈ run, p c)
    (stops : ∀ c ∈ rest.head?, p c = false) :
    (run ++ rest).takeWhile p = run ∧ (run ++ rest).dropWhile p = rest := by
  rw [List.takeWhile_append_of_pos all, List.dropWhile_append_of_pos all]
  cases rest with
  | nil => simp
  | cons c rest =>
    have other := stops c rfl
    rw [List.takeWhile_cons_of_neg (by simp [other]), List.dropWhile_cons_of_neg (by simp [other])]
    exact ⟨List.append_nil _, rfl⟩

theorem takeWhile_whole {p : Char → Bool} {run : List Char} (all : ∀ c ∈ run, p c) :
    run.takeWhile p = run ∧ run.dropWhile p = [] := by
  have stops : ∀ c ∈ ([] : List Char).head?, p c = false := nofun
  have ends := takeWhile_run all stops
  rwa [List.append_nil] at ends

theorem isDigit_iff : isDigit c ↔ c.isDigit := by
  simp [isDigit, Char.isDigit, Char.le_def]

theorem hexValue?_digitChar {k : Nat} (small : k < 16) : hexValue? (Nat.digitChar k) = some k := by
  have all : ∀ k < 16, hexValue? (Nat.digitChar k) = some k := by decide
  exact all k small

theorem lt_of_hexValue? {v : Nat} (h : hexValue? c = some v) : v < 16 := by
  have bound (low high : Char) (within : low ≤ c ∧ c ≤ high) :
      low.toNat ≤ c.toNat ∧ c.toNat ≤ high.toNat := within
  unfold hexValue? at h
  split at h
  · rename_i within
    have := bound _ _ within
    cases h
    simp only [Char.reduceToNat] at this
    omega
  · split at h
    · rename_i within
      have := bound _ _ within
      cases h
      simp only [Char.reduceToNat] at this
      omega
    · split at h
      · rename_i within
        have := bound _ _ within
        cases h
        simp only [Char.reduceToNat] at this
        omega
      · cases h

theorem number_concat (base : Nat) (digits : List Char) (c : Char) :
    number base (digits ++ [c]) = number base digits * base + (hexValue? c).getD 0 := by
  simp [number]

theorem exists_digit_of_mem_toDigits (many : 1 < base) (mem : c ∈ Nat.toDigits base n) :
    ∃ k < base, c = Nat.digitChar k := by
  induction n using Nat.strongRecOn with
  | ind n ih =>
    by_cases small : n < base
    · rw [Nat.toDigits_of_lt_base small, List.mem_singleton] at mem
      exact ⟨n, small, mem⟩
    · rw [Nat.toDigits_of_base_le many (Nat.le_of_not_lt small), List.mem_append,
        List.mem_singleton] at mem
      rcases mem with before | last
      · exact ih _ (Nat.div_lt_self (by omega) many) before
      · exact ⟨n % base, Nat.mod_lt _ (by omega), last⟩

/-- The digits of a number denote it. -/
theorem number_toDigits (many : 1 < base) (few : base ≤ 16) (n : Nat) :
    number base (Nat.toDigits base n) = n := by
  induction n using Nat.strongRecOn with
  | ind n ih =>
    by_cases small : n < base
    · rw [Nat.toDigits_of_lt_base small, ← List.nil_append [n.digitChar], number_concat,
        hexValue?_digitChar (by omega)]
      simp [number]
    · have last : n % base < base := Nat.mod_lt _ (by omega)
      rw [Nat.toDigits_of_base_le many (Nat.le_of_not_lt small), number_concat,
        ih _ (Nat.div_lt_self (by omega) many), hexValue?_digitChar (by omega)]
      exact Nat.div_add_mod' n base

/-- The decimal digits of a number. -/
theorem toList_toString (n : Nat) : (toString n).toList = Nat.toDigits 10 n := by
  rw [Nat.toString_eq_ofList_toDigits, String.toList_ofList]

theorem isDigit_of_mem_toString (mem : c ∈ (toString n).toList) : isDigit c := by
  rw [toList_toString] at mem
  exact isDigit_iff.mpr (Nat.isDigit_of_mem_toDigits (by decide) (by decide) mem)

theorem toString_ne_nil (n : Nat) : (toString n).toList ≠ [] := by
  rw [toList_toString]
  exact Nat.toDigits_ne_nil

@[simp] theorem decimal_toString (n : Nat) : decimal (toString n).toList = n := by
  rw [toList_toString]
  exact number_toDigits (by decide) (by decide) n

/-- A zero stands alone. -/
theorem head_toString (many : 1 < (toString n).toList.length) :
    (toString n).toList.head? ≠ some '0' := by
  rw [toList_toString] at many ⊢
  induction n using Nat.strongRecOn with
  | ind n ih =>
    by_cases small : n < 10
    · simp [Nat.toDigits_of_lt_base small] at many
    · rw [Nat.toDigits_of_base_le (by decide) (by omega), List.head?_append]
      by_cases two : n / 10 < 10
      · have digit : ∀ k, k < 10 → k ≠ 0 → Nat.digitChar k ≠ '0' := by decide
        rw [Nat.toDigits_of_lt_base two]
        simpa using digit (n / 10) two (by omega)
      · have longer : 1 < (Nat.toDigits 10 (n / 10)).length := by
          rw [Nat.toDigits_of_base_le (by decide) (by omega), List.length_append]
          have some_digit := @Nat.length_toDigits_pos 10 (n / 10 / 10)
          simp only [List.length_cons, List.length_nil]
          omega
        have first := ih (n / 10) (by omega) longer
        cases digits : (Nat.toDigits 10 (n / 10)) with
        | nil => exact absurd digits Nat.toDigits_ne_nil
        | cons c rest => simpa [digits] using first

end ScriptCache.Text
