import Mathlib

/-!
# Texts cut at a character

A text is cut where a separator stands. Its parts with the separators put back between them are the
text again.
-/

namespace ScriptCache.Text

variable {sep : Char} {mark : String}

theorem startsWith_slash_iff {text : String} :
    text.startsWith "/" ↔ text.toList.head? = some '/' := by
  rw [String.startsWith_string_iff]
  exact List.singleton_prefix_iff_head?_eq_some

/-- The parts have characters of the text, but none of those that it is split at. -/
theorem of_mem_splitOnP {p : Char → Bool} {text part : List Char} {c : Char}
    (part_mem : part ∈ text.splitOnP p) (mem : c ∈ part) : c ∈ text ∧ p c = false := by
  induction text generalizing part with
  | nil =>
    rw [List.splitOnP_nil, List.mem_singleton] at part_mem
    simp [part_mem] at mem
  | cons d text ih =>
    rw [List.splitOnP_cons_eq_if_modifyHead] at part_mem
    split at part_mem
    · rcases List.mem_cons.mp part_mem with rfl | part_mem
      · cases mem
      · exact (ih part_mem mem).imp_left (List.mem_cons_of_mem d)
    · rename_i plain
      obtain ⟨first, others, split⟩ := List.exists_cons_of_ne_nil (List.splitOnP_ne_nil p text)
      rw [split] at part_mem ih
      rcases List.mem_cons.mp part_mem with rfl | part_mem
      · rcases List.mem_cons.mp mem with rfl | mem
        · exact ⟨List.mem_cons_self, Bool.eq_false_iff.mpr plain⟩
        · exact (ih List.mem_cons_self mem).imp_left (List.mem_cons_of_mem d)
      · exact (ih (List.mem_cons_of_mem _ part_mem) mem).imp_left (List.mem_cons_of_mem d)

theorem of_mem_splitOn {text part : List Char} {c : Char} (part_mem : part ∈ text.splitOn sep)
    (mem : c ∈ part) : c ∈ text ∧ c ≠ sep := by
  rw [List.splitOn_eq_splitOnP] at part_mem
  simpa using of_mem_splitOnP part_mem mem

theorem splitOnP_congr {p q : Char → Bool} {text : List Char} (same : ∀ c ∈ text, p c = q c) :
    text.splitOnP p = text.splitOnP q := by
  induction text with
  | nil => rfl
  | cons c text ih =>
    obtain ⟨first, others⟩ := List.forall_mem_cons.mp same
    rw [List.splitOnP_cons_eq_if_modifyHead, List.splitOnP_cons_eq_if_modifyHead, first, ih others]

/-- The parts of a text between its separators. -/
def cut (sep : Char) (text : String) : List String := (text.toList.splitOn sep).map String.ofList

theorem cut_of_notMem {text : String} (plain : sep ∉ text.toList) : cut sep text = [text] := by
  rw [cut, List.splitOn_eq_singleton plain, List.map_singleton, String.ofList_toList]

theorem cut_append (single : mark.toList = [sep]) (front back : String) :
    cut sep (front ++ mark ++ back) = cut sep front ++ cut sep back := by
  rw [cut, String.toList_append, String.toList_append, single, List.append_assoc,
    List.singleton_append, List.splitOn_append_cons_self, List.map_append]
  rfl

theorem intercalate_cut (single : mark.toList = [sep]) (text : String) :
    mark.intercalate (cut sep text) = text := by
  have same : String.toList ∘ String.ofList = id := funext fun _ ↦ String.toList_ofList
  rw [← String.toList_inj, String.toList_intercalate, single, cut, List.map_map, same, List.map_id]
  exact List.intercalate_splitOn sep

theorem mem_of_mem_intercalate {α : Type} {sep : List α} {parts : List (List α)} {a : α}
    (mem : a ∈ sep.intercalate parts) : a ∈ sep ∨ ∃ part ∈ parts, a ∈ part := by
  induction parts with
  | nil => simp at mem
  | cons part parts ih =>
    cases parts with
    | nil => exact .inr ⟨part, List.mem_cons_self, by simpa using mem⟩
    | cons next parts =>
      rw [List.intercalate_cons_cons, List.append_assoc, List.mem_append, List.mem_append] at mem
      rcases mem with first | between | later
      · exact .inr ⟨part, List.mem_cons_self, first⟩
      · exact .inl between
      · exact (ih later).imp_right fun ⟨other, other_mem, mem⟩ ↦
          ⟨other, List.mem_cons_of_mem part other_mem, mem⟩

/-- What a text is made of stands in its parts, the separators left aside. -/
theorem eq_or_exists_mem_cut {text : String} {c : Char} (sep : Char) (mem : c ∈ text.toList) :
    c = sep ∨ ∃ part ∈ cut sep text, c ∈ part.toList := by
  have whole : [sep].intercalate (text.toList.splitOn sep) = text.toList :=
    List.intercalate_splitOn sep
  rw [← whole] at mem
  rcases mem_of_mem_intercalate mem with between | ⟨part, part_mem, mem⟩
  · exact .inl (List.mem_singleton.mp between)
  · exact .inr ⟨String.ofList part, List.mem_map_of_mem part_mem, by rwa [String.toList_ofList]⟩

/-! ## Parts that are read one by one -/

theorem mapM_eq_some_iff {α β : Type} {read : α → Option β} {parts : List α} {values : List β} :
    parts.mapM read = some values ↔ List.Forall₂ (fun a b ↦ read a = some b) parts values := by
  induction parts generalizing values with
  | nil => simp [eq_comm]
  | cons a parts ih =>
    rw [List.mapM_cons, List.forall₂_cons_left_iff]
    constructor
    · intro h
      simp only [Option.bind_eq_bind, Option.bind_eq_some_iff] at h
      obtain ⟨b, first, bs, others, eq⟩ := h
      exact ⟨b, bs, first, ih.mp others, (Option.some.inj eq).symm⟩
    · rintro ⟨b, bs, first, others, rfl⟩
      rw [first, ih.mpr others]
      rfl

theorem exists_of_mem_mapM {α β : Type} {read : α → Option β} {parts : List α} {values : List β}
    {b : β} (h : parts.mapM read = some values) (mem : b ∈ values) :
    ∃ a ∈ parts, read a = some b := by
  rw [mapM_eq_some_iff] at h
  induction h with
  | nil => cases mem
  | @cons a _ parts _ first _ ih =>
    rcases List.mem_cons.mp mem with rfl | mem
    · exact ⟨a, List.mem_cons_self, first⟩
    · obtain ⟨a, a_mem, read⟩ := ih mem
      exact ⟨a, List.mem_cons_of_mem _ a_mem, read⟩

/-- What the parts of a list of values are read as, if each one is read as its value. -/
theorem mapM_map_eq_some {α β : Type} {read : α → Option β} {write : β → α} {values : List β}
    (again : ∀ b ∈ values, read (write b) = some b) :
    (values.map write).mapM read = some values := by
  rw [mapM_eq_some_iff, List.forall₂_map_left_iff, List.forall₂_same]
  exact again

end ScriptCache.Text
