import ScriptCache.Proofs.Text.Split
import ScriptCache.Proofs.Text.Utf8
import ScriptCache.Proofs.Url.Percent
import ScriptCache.Proofs.Url.Punycode
import ScriptCache.Url.Domain

/-!
# Names of hosts are read back

A name that was read has its ASCII form, and is read from it again: its labels are the same ones.
-/

namespace ScriptCache.Domain

variable {c : Char} {s label name : List Char} {l : Label} {labels : List Label}

/-- The characters of labels as they are written. -/
structure IsPlain (c : Char) : Prop where
  ascii : c.toNat < 0x80
  lower : c.toLower = c
  no_dot : c ≠ '.'

theorem isPlain_digit {n : Nat} (small : n < 36) : IsPlain (Punycode.digit n) := by
  have all : ∀ n < 36, (Punycode.digit n).toNat < 0x80 ∧
      (Punycode.digit n).toLower = Punycode.digit n ∧ Punycode.digit n ≠ '.' := by decide
  obtain ⟨ascii, lower, no_dot⟩ := all n small
  exact ⟨ascii, lower, no_dot⟩

theorem isAscii_iff : isAscii s ↔ ∀ c ∈ s, c.toNat < 0x80 := by
  simp [isAscii]

theorem mapAll?_of_ascii (ascii : isAscii s) : mapAll? s = some (s.map Char.toLower) := by
  have each (c : Char) (mem : c ∈ s) : mapped? c = some [c.toLower] :=
    if_pos (isAscii_iff.mp ascii c mem)
  have all : s.mapM mapped? = some (s.map fun c ↦ [c.toLower]) := by
    rw [Text.mapM_eq_some_iff, List.forall₂_map_right_iff, List.forall₂_same]
    exact each
  rw [mapAll?, all, Option.map_some, ← List.flatMap_def, ← List.map_eq_flatMap]

/-! ## Labels -/

theorem isPlain_of_mem_encode (plain : ∀ c ∈ label, c.toLower = c ∧ c ≠ '.') :
    ∀ c ∈ Punycode.encode label, IsPlain c := by
  have front : ∀ c ∈ label.filter (·.toNat < 128), IsPlain c := by
    intro c mem
    obtain ⟨mem, ascii⟩ := List.mem_filter.mp mem
    exact ⟨of_decide_eq_true ascii, (plain c mem).1, (plain c mem).2⟩
  intro c mem
  rw [Punycode.encode_eq] at mem
  rcases List.mem_append.mp mem with mem | mem
  · split at mem
    · cases mem
    · rcases List.mem_append.mp mem with mem | mem
      · exact front c mem
      · rw [List.mem_singleton.mp mem]
        constructor <;> decide
  · obtain ⟨d, small, rfl⟩ := Punycode.exists_value_of_mem_extension c mem
    exact isPlain_digit small

/-- A label that comes in its ASCII form keeps it. Only another one is encoded. -/
theorem Label.cases_of? (h : Label.of? label = some l) :
    (l.written = label ∧ isAscii label) ∨
      (l = ⟨label, punycodeMark ++ Punycode.encode label⟩ ∧ ¬isAscii label ∧ isSettled label) := by
  rw [Label.of?] at h
  split at h
  · simp only [Option.bind_eq_bind, Option.bind_eq_some_iff] at h
    obtain ⟨meant, -, h⟩ := h
    split at h
    · rename_i kept
      cases h
      exact .inl ⟨rfl, kept.1⟩
    · cases h
  · split at h
    · rename_i ascii
      cases h
      exact .inl ⟨rfl, ascii⟩
    · rename_i beyond
      split at h
      · rename_i settled
        cases h
        exact .inr ⟨rfl, beyond, settled⟩
      · cases h

theorem Label.isPlain_of_of? (h : Label.of? label = some l)
    (plain : ∀ c ∈ label, c.toLower = c ∧ c ≠ '.') : ∀ c ∈ l.written, IsPlain c := by
  rcases Label.cases_of? h with ⟨same, ascii⟩ | ⟨rfl, -⟩
  · rw [same]
    exact fun c mem ↦ ⟨isAscii_iff.mp ascii c mem, (plain c mem).1, (plain c mem).2⟩
  · intro c mem
    rcases List.mem_append.mp mem with mem | mem
    · have mark : ∀ c ∈ punycodeMark, c.toNat < 0x80 ∧ c.toLower = c ∧ c ≠ '.' := by
        simp [punycodeMark]
      obtain ⟨ascii, lower, no_dot⟩ := mark c mem
      exact ⟨ascii, lower, no_dot⟩
    · exact isPlain_of_mem_encode plain c mem

/-- A label is read again from its ASCII form. -/
theorem Label.of?_written (h : Label.of? label = some l)
    (plain : ∀ c ∈ label, c.toLower = c ∧ c ≠ '.') : Label.of? l.written = some l := by
  have written := Label.isPlain_of_of? h plain
  rcases Label.cases_of? h with ⟨same, -⟩ | ⟨rfl, beyond, settled⟩
  · rwa [same]
  · have marked : punycodeMark.isPrefixOf (punycodeMark ++ Punycode.encode label) := by
      rw [List.isPrefixOf_iff_prefix]
      exact List.prefix_append _ _
    have behind : (punycodeMark ++ Punycode.encode label).drop 4 = Punycode.encode label := rfl
    have ascii : isAscii (punycodeMark ++ Punycode.encode label) :=
      isAscii_iff.mpr fun c mem ↦ (written c mem).ascii
    rw [Label.of?, if_pos marked, behind, Punycode.decode?_encode, Option.bind_eq_bind,
      Option.bind_some, if_pos ⟨ascii, beyond, settled⟩]

/-! ## Names -/

/-- A name is spelled by labels as they are written. -/
structure Spelled (labels : List Label) (name : List Char) : Prop where
  eq : name = ['.'].intercalate (labels.map (·.written))
  full : name ≠ []
  permitted : ∀ c ∈ name, isForbidden c = false
  directions : directionsFit labels
  again : ∀ l ∈ labels, Label.of? l.written = some l
  plain : ∀ l ∈ labels, ∀ c ∈ l.written, IsPlain c

theorem exists_spelled_of_ofBytes? {bytes : List UInt8} (h : ofBytes? bytes = some name) :
    ∃ labels, Spelled labels name := by
  simp only [ofBytes?, Option.bind_eq_bind, Option.bind_eq_some_iff] at h
  obtain ⟨text, -, mapped, -, labels, read, h⟩ := h
  have part (l : Label) (mem : l ∈ labels) : ∃ label, Label.of? label = some l ∧
      ∀ c ∈ label, c.toLower = c ∧ c ≠ '.' := by
    obtain ⟨label, label_mem, of⟩ := Text.exists_of_mem_mapM read mem
    refine ⟨label, of, fun c c_mem ↦ ?_⟩
    obtain ⟨c_mem, no_dot⟩ := Text.of_mem_splitOn label_mem c_mem
    obtain ⟨d, -, rfl⟩ := List.mem_map.mp c_mem
    exact ⟨Char.toLower_toLower_eq_toLower d, no_dot⟩
  split at h
  · cases h
  · rename_i fit
    cases h
    simp only [Bool.or_eq_true, not_or, Bool.not_eq_true, Bool.not_eq_false', List.any_eq_false]
      at fit
    obtain ⟨⟨full, permitted⟩, directions⟩ := fit
    refine ⟨labels, rfl, by simpa using full, permitted, directions, ?_, ?_⟩
    · intro l mem
      obtain ⟨label, of, plain⟩ := part l mem
      exact Label.of?_written of plain
    · intro l mem
      obtain ⟨label, of, plain⟩ := part l mem
      exact Label.isPlain_of_of? of plain

namespace Spelled

theorem splitOn (h : Spelled labels name) : name.splitOn '.' = labels.map (·.written) := by
  have full : labels.map (·.written) ≠ [] := by
    rintro none
    refine h.full ?_
    rw [h.eq, none]
    rfl
  rw [h.eq]
  refine List.splitOn_intercalate '.' ?_ full
  intro label mem dot
  obtain ⟨l, l_mem, rfl⟩ := List.mem_map.mp mem
  exact (h.plain l l_mem _ dot).no_dot rfl

theorem char {c : Char} (h : Spelled labels name) (mem : c ∈ name) :
    c.toNat < 0x80 ∧ c.toLower = c := by
  rw [h.eq] at mem
  rcases Text.mem_of_mem_intercalate mem with dot | ⟨label, label_mem, mem⟩
  · rw [List.mem_singleton.mp dot]
    decide
  · obtain ⟨l, l_mem, rfl⟩ := List.mem_map.mp label_mem
    exact ⟨(h.plain l l_mem c mem).ascii, (h.plain l l_mem c mem).lower⟩

/-- A name in its ASCII form is read as it is. -/
theorem ofBytes?_decode (h : Spelled labels name) :
    ofBytes? (Percent.decode name) = some name := by
  have ascii : isAscii name := isAscii_iff.mpr fun c mem ↦ (h.char mem).1
  have lower : name.map Char.toLower = name :=
    (List.map_congr_left fun c mem ↦ (h.char mem).2).trans (List.map_id name)
  have no_percent : ∀ c ∈ name, c ≠ '%' := by
    rintro c mem rfl
    exact absurd (h.permitted _ mem) (by decide)
  have labelled : (labels.map (·.written)).mapM Label.of? = some labels :=
    Text.mapM_map_eq_some h.again
  have passed : (name.isEmpty || name.any isForbidden || !directionsFit labels) = false := by
    simpa [h.directions, h.full] using h.permitted
  rw [ofBytes?, Percent.decode_of_no_percent no_percent, Utf8.decode?_encode]
  simp only [Option.bind_eq_bind, Option.bind_some, String.toList_ofList, mapAll?_of_ascii ascii,
    lower, ascii, if_true, h.splitOn, labelled]
  rw [← h.eq, passed]
  rfl

end Spelled

end ScriptCache.Domain
