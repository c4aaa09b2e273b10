import Mathlib.Data.List.Induction
import ScriptCache.Proofs.Preload.Manifest
import ScriptCache.Source.Declaration

/-!
# What a manifest counts

A manifest is built one declared name at a time: a name is excluded, or it is listed already, or it
is listed now. The main statement says what the names listed and the three counts are, read off the
declared names alone.
-/

namespace ScriptCache

open Source (DeclaredType)

namespace Manifest

variable {declared : List String} {exclusions : Exclusions} {given : String}

theorem ofNames_concat (declared : List String) (given : String) (exclusions : Exclusions) :
    ofNames (declared ++ [given]) exclusions =
      (ofNames declared exclusions).add exclusions given := by
  rw [ofNames, List.foldl_append]
  rfl

/-! ## The names -/

theorem mem_names_ofNames {name : String} :
    name ∈ (ofNames declared exclusions).names ↔
      (∃ given ∈ declared, normalName given = name) ∧ exclusions.contains name = false := by
  rw [names_ofNames, List.mem_eraseDups, List.mem_filter, List.mem_map]
  simp

/-- Names behind a manifest are added behind its own. -/
theorem names_isPrefix (declared more : List String) (exclusions : Exclusions) :
    (ofNames declared exclusions).names <+: (ofNames (declared ++ more) exclusions).names := by
  rw [ofNames, ofNames, List.foldl_append, names_foldl_add more]
  exact List.prefix_append _ _

/-- Leaving names out from the start is the same as leaving them out at the end. -/
theorem names_eq_filter (declared : List String) (exclusions : Exclusions) :
    (ofNames declared exclusions).names =
      (ofNames declared (.ofNames [])).names.filter (!exclusions.contains ·) := by
  have kept (name : String) : (Exclusions.ofNames []).contains name = false := rfl
  induction declared using List.reverseRecOn with
  | nil => rfl
  | append_singleton declared given ih =>
    rw [ofNames_concat, ofNames_concat]
    have known : normalName given ∈ (ofNames declared exclusions).names ↔
        normalName given ∈ (ofNames declared (.ofNames [])).names ∧
          exclusions.contains (normalName given) = false := by
      rw [mem_names_ofNames, mem_names_ofNames, kept, eq_self, and_true]
    rcases cases_add (ofNames declared (.ofNames [])) (.ofNames []) given with
      ⟨excluded, -⟩ | ⟨-, seen, all⟩ | ⟨-, new, all⟩
    · rw [kept] at excluded
      cases excluded
    · rcases cases_add (ofNames declared exclusions) exclusions given with
        ⟨-, own⟩ | ⟨-, -, own⟩ | ⟨listed, new, -⟩
      · rw [own, all, ih]
      · rw [own, all, ih]
      · exact (new (known.mpr ⟨seen, listed⟩)).elim
    · rcases cases_add (ofNames declared exclusions) exclusions given with
        ⟨excluded, own⟩ | ⟨-, seen, -⟩ | ⟨listed, -, own⟩
      · rw [own, all, List.filter_append, ← ih]
        simp [excluded]
      · exact (new (known.mp seen).1).elim
      · rw [own, all, List.filter_append, ← ih]
        simp [listed]

/-! ## The counts -/

theorem emitted_ofNames (declared : List String) (exclusions : Exclusions) :
    (ofNames declared exclusions).stats.emitted =
      (ofNames declared exclusions).names.length := by
  induction declared using List.reverseRecOn with
  | nil => rfl
  | append_singleton declared given ih =>
    rw [ofNames_concat]
    rcases cases_add (ofNames declared exclusions) exclusions given with
      ⟨-, own⟩ | ⟨-, -, own⟩ | ⟨-, -, own⟩
    · rw [own]
      exact ih
    · rw [own]
      exact ih
    · rw [own, List.length_append, ← ih]
      rfl

theorem excluded_ofNames (declared : List String) (exclusions : Exclusions) :
    (ofNames declared exclusions).stats.excluded =
      (declared.map normalName).countP exclusions.contains := by
  induction declared using List.reverseRecOn with
  | nil => rfl
  | append_singleton declared given ih =>
    rw [ofNames_concat, List.map_append, List.countP_append, ← ih]
    rcases cases_add (ofNames declared exclusions) exclusions given with
      ⟨excluded, own⟩ | ⟨listed, -, own⟩ | ⟨listed, -, own⟩
    · simp [own, excluded]
    · simp [own, listed]
    · simp [own, listed]

/-- At place `i` stands a name that is not excluded and that stood before. -/
def Repeats (exclusions : Exclusions) (names : List String) (i : Nat) : Prop :=
  ∃ name, names[i]? = some name ∧ exclusions.contains name = false ∧ name ∈ names.take i

instance (exclusions : Exclusions) (names : List String) (i : Nat) :
    Decidable (Repeats exclusions names i) :=
  match seen : names[i]? with
  | none => .isFalse fun ⟨_, at_i, _⟩ ↦ by rw [seen] at at_i; cases at_i
  | some name =>
    decidable_of_iff (exclusions.contains name = false ∧ name ∈ names.take i)
      ⟨fun h ↦ ⟨name, seen, h⟩, fun ⟨_, at_i, h⟩ ↦ by rw [seen] at at_i; cases at_i; exact h⟩

theorem repeats_concat_of_lt {names : List String} {i : Nat} (h : i < names.length) (name : String) :
    Repeats exclusions (names ++ [name]) i ↔ Repeats exclusions names i := by
  rw [Repeats, Repeats, List.getElem?_append_left h, List.take_append_of_le_length (Nat.le_of_lt h)]

theorem repeats_concat_length (exclusions : Exclusions) (names : List String) (name : String) :
    Repeats exclusions (names ++ [name]) names.length ↔
      exclusions.contains name = false ∧ name ∈ names := by
  simp [Repeats]

theorem duplicates_ofNames (declared : List String) (exclusions : Exclusions) :
    (ofNames declared exclusions).stats.duplicates =
      (List.range declared.length).countP (Repeats exclusions (declared.map normalName) ·) := by
  induction declared using List.reverseRecOn with
  | nil => rfl
  | append_singleton declared given ih =>
    have before : (List.range declared.length).countP
          (Repeats exclusions (declared.map normalName ++ [normalName given]) ·) =
        (List.range declared.length).countP (Repeats exclusions (declared.map normalName) ·) := by
      refine List.countP_congr fun i mem ↦ ?_
      have within : i < (declared.map normalName).length := by simpa using mem
      simpa using repeats_concat_of_lt within _
    have last := repeats_concat_length exclusions (declared.map normalName) (normalName given)
    rw [List.length_map] at last
    have known : normalName given ∈ (ofNames declared exclusions).names ↔
        normalName given ∈ declared.map normalName ∧
          exclusions.contains (normalName given) = false := by
      rw [mem_names_ofNames, List.mem_map]
    rw [ofNames_concat, List.length_append, List.length_singleton, List.range_succ,
      List.countP_append, List.map_append, List.map_singleton, before, ← ih, List.countP_singleton]
    simp only [decide_eq_true_eq, last]
    rcases cases_add (ofNames declared exclusions) exclusions given with
      ⟨excluded, own⟩ | ⟨listed, seen, own⟩ | ⟨listed, new, own⟩
    · simp [own, excluded]
    · simp [own, listed, (known.mp seen).1]
    · have new : normalName given ∉ declared.map normalName := fun mem ↦ new (known.mpr ⟨mem, listed⟩)
      rw [own, if_neg fun h ↦ new h.2]
      rfl

/-- Every declared name is counted once. -/
theorem total_ofNames (declared : List String) (exclusions : Exclusions) :
    let stats := (ofNames declared exclusions).stats
    stats.emitted + stats.excluded + stats.duplicates = declared.length := by
  intro stats
  induction declared using List.reverseRecOn with
  | nil => rfl
  | append_singleton declared given ih =>
    rw [List.length_append, List.length_singleton, ← ih]
    simp only [stats, ofNames_concat]
    rcases cases_add (ofNames declared exclusions) exclusions given with
      ⟨-, own⟩ | ⟨-, -, own⟩ | ⟨-, -, own⟩
    all_goals
      rw [own]
      dsimp only
      omega

/-- The names of a manifest are the first occurrences of the normal forms that are not excluded, and
its counts tell every declared type apart as listed, excluded or listed before. -/
theorem manifest_of_types (types : List DeclaredType) (exclusions : Exclusions) :
    let names := types.map fun type ↦ normalName type.name
    let m := ofNames (types.map (·.name)) exclusions
    m.names.Nodup ∧
    (∀ name ∈ m.names, exclusions.contains name = false) ∧
    m.names = (names.filter (!exclusions.contains ·)).eraseDups ∧
    m.names = (ofNames (types.map (·.name)) (.ofNames [])).names.filter (!exclusions.contains ·) ∧
    (∀ n, (ofNames ((types.take n).map (·.name)) exclusions).names <+: m.names) ∧
    m.stats.emitted + m.stats.excluded + m.stats.duplicates = types.length ∧
    m.stats.emitted = m.names.length ∧
    m.stats.excluded = names.countP exclusions.contains ∧
    m.stats.duplicates = (List.range types.length).countP (Repeats exclusions names ·) := by
  intro names m
  have normal : (types.map (·.name)).map normalName = names := by
    rw [List.map_map]
    rfl
  refine ⟨nodup_foldl_add List.nodup_nil, fun name mem ↦ (mem_names_ofNames.mp mem).2, ?_,
    names_eq_filter _ _, fun n ↦ ?_, ?_, emitted_ofNames _ _, ?_, ?_⟩
  · rw [← normal]
    exact names_ofNames _ _
  · have split : types.map (·.name) =
        (types.take n).map (·.name) ++ (types.drop n).map (·.name) := by
      rw [← List.map_append, List.take_append_drop]
    simp only [m, split]
    exact names_isPrefix _ _ _
  · simpa using total_ofNames (types.map (·.name)) exclusions
  · rw [← normal]
    exact excluded_ofNames _ _
  · rw [← normal, ← List.length_map (·.name)]
    exact duplicates_ofNames _ _

/-- Two spellings of one name, an excluded name twice, and another name. -/
theorem manifest_of_types_sample :
    let types : List DeclaredType := [⟨.classType, "B"⟩, ⟨.classType, "\\Skip"⟩,
      ⟨.traitType, "\\B"⟩, ⟨.enumType, "A"⟩, ⟨.classType, "Skip"⟩]
    let exclusions := Exclusions.ofNames [" \\Skip "]
    let m := ofNames (types.map (·.name)) exclusions
    m = ⟨["B", "A"], ⟨2, 2, 1⟩⟩ ∧ "A" ∈ m.names ∧ exclusions.contains "A" = false := by
  intro types exclusions m
  have value : m = ⟨["B", "A"], ⟨2, 2, 1⟩⟩ := by cbv
  have mem : "A" ∈ m.names := by simp [value]
  exact ⟨value, mem, (manifest_of_types types exclusions).2.1 "A" mem⟩

end Manifest

end ScriptCache
