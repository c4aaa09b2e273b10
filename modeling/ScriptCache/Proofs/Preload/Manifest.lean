import ScriptCache.Preload.Manifest

/-!
# What a manifest lists

A manifest lists the names that are not excluded, each where it was first seen. A name is excluded
exactly if it was given as an exclusion, in any spelling with the same normal form.
-/

namespace ScriptCache

namespace Exclusions

variable {s t : Exclusions} {name given text : String} {names : List String}

theorem mem_insert :
    name ∈ (s.insert given).names ↔ name ∈ s.names ∨ name ≠ "" ∧ normalName given = name := by
  rw [insert]
  split
  · rename_i known
    simp only [Bool.or_eq_true, String.isEmpty_iff, List.contains_iff_mem] at known
    refine ⟨.inl, ?_⟩
    rintro (mem | ⟨full, rfl⟩)
    · exact mem
    · exact known.resolve_left full
  · rename_i new
    simp only [Bool.or_eq_true, String.isEmpty_iff, not_or] at new
    rw [List.mem_append, List.mem_singleton]
    refine or_congr_right ⟨?_, fun ⟨_, same⟩ ↦ same.symm⟩
    rintro rfl
    exact ⟨new.1, rfl⟩

theorem mem_foldl_insert :
    name ∈ (names.foldl insert s).names ↔
      name ∈ s.names ∨ name ≠ "" ∧ ∃ given ∈ names, normalName given = name := by
  induction names generalizing s with
  | nil => simp
  | cons given names ih =>
    rw [List.foldl_cons, ih, mem_insert, or_assoc, ← and_or_left]
    simp only [List.mem_cons, exists_eq_or_imp]

theorem mem_ofNames :
    name ∈ (ofNames names).names ↔ name ≠ "" ∧ ∃ given ∈ names, normalName given = name := by
  rw [ofNames, mem_foldl_insert]
  simp

/-- The line is a comment. -/
def IsComment (line : List Char) : Prop := (Text.trimStart line).head? = some '#'

theorem mem_ofText :
    name ∈ (ofText text).names ↔ name ≠ "" ∧ ∃ line ∈ Text.lines text.toList,
      ¬IsComment line ∧ normalName (String.ofList line) = name := by
  rw [ofText, mem_ofNames]
  refine and_congr_right fun _ ↦ ⟨?_, ?_⟩
  · rintro ⟨given, mem, same⟩
    obtain ⟨line, kept, rfl⟩ := List.mem_map.mp mem
    obtain ⟨listed, plain⟩ := List.mem_filter.mp kept
    exact ⟨line, listed, by simpa [IsComment] using plain, same⟩
  · rintro ⟨line, mem, plain, same⟩
    exact ⟨_, List.mem_map_of_mem (List.mem_filter.mpr ⟨mem, by simpa [IsComment] using plain⟩),
      same⟩

theorem mem_union : name ∈ (s.union t).names ↔ name ∈ s.names ∨ name ∈ t.names := by
  by_cases known : name ∈ s.names <;> simp [union, known]

theorem contains_iff : s.contains name ↔ normalName name ∈ s.names := by
  rw [contains, List.contains_iff_mem]

end Exclusions

namespace Manifest

variable {declared : List String} {exclusions : Exclusions} {m : Manifest}

/-- What one more declared name does. -/
theorem cases_add (m : Manifest) (exclusions : Exclusions) (given : String) :
    (exclusions.contains (normalName given) ∧
      m.add exclusions given = ⟨m.names, { m.stats with excluded := m.stats.excluded + 1 }⟩) ∨
    (exclusions.contains (normalName given) = false ∧ normalName given ∈ m.names ∧
      m.add exclusions given = ⟨m.names, { m.stats with duplicates := m.stats.duplicates + 1 }⟩) ∨
    (exclusions.contains (normalName given) = false ∧ normalName given ∉ m.names ∧
      m.add exclusions given =
        ⟨m.names ++ [normalName given], { m.stats with emitted := m.stats.emitted + 1 }⟩) := by
  rw [add]
  dsimp only
  by_cases excluded : exclusions.contains (normalName given)
  · exact .inl ⟨excluded, by rw [if_pos excluded]⟩
  by_cases known : m.names.contains (normalName given)
  · exact .inr (.inl ⟨by simpa using excluded, by simpa using known, by
      rw [if_neg excluded, if_pos known]⟩)
  · exact .inr (.inr ⟨by simpa using excluded, by simpa using known, by
      rw [if_neg excluded, if_neg known]⟩)

theorem names_foldl_add (declared : List String) (exclusions : Exclusions) (m : Manifest) :
    (declared.foldl (add exclusions) m).names =
      m.names ++ ((declared.map normalName).filter fun name ↦
        !exclusions.contains name && !m.names.contains name).eraseDups := by
  induction declared generalizing m with
  | nil => simp
  | cons given declared ih =>
    rw [List.foldl_cons, ih, List.map_cons, add]
    dsimp only
    by_cases excluded : exclusions.contains (normalName given)
    · rw [if_pos excluded, List.filter_cons_of_neg (by simp [excluded])]
    · by_cases known : m.names.contains (normalName given)
      · rw [if_neg excluded, if_pos known, List.filter_cons_of_neg (by simpa [excluded] using known)]
      · rw [if_neg excluded, if_neg known,
          List.filter_cons_of_pos (by simpa [excluded] using known), List.eraseDups_cons,
          List.filter_filter, List.append_assoc, List.singleton_append]
        congr 3
        refine List.filter_congr fun name _ ↦ ?_
        by_cases same : name = normalName given <;> simp [same]

/-- First occurrences, in order. -/
theorem names_ofNames (declared : List String) (exclusions : Exclusions) :
    (ofNames declared exclusions).names =
      ((declared.map normalName).filter (!exclusions.contains ·)).eraseDups := by
  rw [ofNames, names_foldl_add]
  simp

theorem nodup_add (h : m.names.Nodup) (name : String) : (m.add exclusions name).names.Nodup := by
  rcases cases_add m exclusions name with ⟨-, own⟩ | ⟨-, -, own⟩ | ⟨-, new, own⟩
  · rwa [own]
  · rwa [own]
  · rw [own]
    refine List.nodup_append.mpr ⟨h, by simp, fun other mem last same ↦ ?_⟩
    rintro rfl
    exact new (List.mem_singleton.mp same ▸ mem)

theorem nodup_foldl_add (h : m.names.Nodup) : (declared.foldl (add exclusions) m).names.Nodup := by
  induction declared generalizing m with
  | nil => exact h
  | cons name declared ih => exact ih (nodup_add h name)

end Manifest

end ScriptCache
