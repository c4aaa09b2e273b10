import ScriptCache.Proofs.Preload.Counts
import ScriptCache.Proofs.Preload.Verbatim

/-!
# Spellings of an excluded name

The names of a set of exclusions are in normal form, and a declared name is brought to its normal
form twice before it is looked up there: once for the manifest, once for the set. A name in normal
form can begin with a blank, which is the one that stood behind the backslashes in front. The second
time takes this blank away, so that such a type is judged by another name than its own.
-/

namespace ScriptCache

open Source (DeclaredType)

namespace Text

variable {text : List Char}

theorem trimEnd_trimEnd (text : List Char) : trimEnd (trimEnd text) = trimEnd text := by
  rw [trimEnd, trimEnd, List.reverse_reverse, List.dropWhile_idempotent]

theorem trimEnd_of_suffix {rest : List Char} (same : trimEnd text = text) (suffix : rest <:+ text) :
    trimEnd rest = rest := by
  rw [trimEnd_eq_self_iff] at same ⊢
  rintro ⟨front, c, rfl, blank⟩
  obtain ⟨before, rfl⟩ := suffix
  exact same ⟨before ++ front, c, (List.append_assoc ..).symm, blank⟩

theorem trimEnd_append_blank {back : List Char} (blank : ∀ c ∈ back, isBlank c) (text : List Char) :
    trimEnd (text ++ back) = trimEnd text := by
  rw [trimEnd, trimEnd, List.reverse_append,
    List.dropWhile_append_of_pos fun c mem ↦ blank c (List.mem_reverse.mp mem)]

/-- Blanks around a text are trimmed away. -/
theorem trim_blank {front back : List Char} (blank : ∀ c ∈ front, isBlank c)
    (blank' : ∀ c ∈ back, isBlank c) (text : List Char) :
    trim (front ++ (text ++ back)) = trim text := by
  rw [trim, trim, trimStart, List.dropWhile_append_of_pos blank, List.dropWhile_append]
  split
  · rename_i empty
    rw [List.isEmpty_iff] at empty
    rw [trimStart, empty, List.dropWhile_eq_nil_iff.mpr blank']
  · exact trimEnd_append_blank blank' _

/-- What stands behind other characters is trimmed at its end. -/
theorem trimEnd_append {c : Char} (dark : isBlank c = false) (front rest : List Char) :
    trimEnd (front ++ c :: rest) = front ++ trimEnd (c :: rest) := by
  have more : ((c :: rest).reverse.dropWhile isBlank).isEmpty = false := by
    rw [List.isEmpty_eq_false_iff, ne_eq, List.dropWhile_eq_nil_iff]
    intro all
    rw [all c (by simp)] at dark
    cases dark
  rw [trimEnd, List.reverse_append, List.dropWhile_append, more]
  simp [trimEnd]

end Text

/-! ## Normal forms -/

theorem toList_normalName (name : String) :
    (normalName name).toList = (Text.trim name.toList).dropWhile (· = '\\') := by
  rw [normalName, String.toList_ofList]

/-- A blank stands in the name right behind the backslashes in front. -/
def HidesBlank (name : String) : Prop :=
  ∃ c rest, (normalName name).toList = c :: rest ∧ Text.isBlank c

/-- A normal form is its own normal form unless it begins with a blank. -/
theorem normalName_normalName_iff (name : String) :
    normalName (normalName name) = normalName name ↔ ¬HidesBlank name := by
  constructor
  · rintro same ⟨c, rest, eq, blank⟩
    have chars := congrArg String.toList same
    rw [toList_normalName, eq] at chars
    have longer := (List.dropWhile_suffix (· = '\\') (l := Text.trim (c :: rest))).length_le
    rw [chars] at longer
    have trimmed := (Text.trim_infix (c :: rest)).eq_of_length_le longer
    exact Text.trim_eq_self_iff.mp trimmed (.inl ⟨c, rest, rfl, blank⟩)
  · intro plain
    have ended : Text.trimEnd (normalName name).toList = (normalName name).toList := by
      rw [toList_normalName]
      exact Text.trimEnd_of_suffix (Text.trimEnd_trimEnd _) (List.dropWhile_suffix _)
    have started : Text.trimStart (normalName name).toList = (normalName name).toList :=
      Text.trimStart_eq_self_iff.mpr plain
    rw [← String.toList_inj, toList_normalName, Text.trim, started, ended, toList_normalName,
      List.dropWhile_idempotent]

theorem normalName_blank {front back : String} (blank : ∀ c ∈ front.toList, Text.isBlank c)
    (blank' : ∀ c ∈ back.toList, Text.isBlank c) (name : String) :
    normalName (front ++ name ++ back) = normalName name := by
  rw [← String.toList_inj, toList_normalName, toList_normalName, String.toList_append,
    String.toList_append, List.append_assoc, Text.trim_blank blank blank']

/-- Backslashes in front of a name do not count, unless the name begins with a blank. -/
theorem normalName_backslashes {slashes name : String} (all : ∀ c ∈ slashes.toList, c = '\\')
    (plain : ∀ c ∈ name.toList.head?, Text.isBlank c = false) :
    normalName (slashes ++ name) = normalName name := by
  have dark (c : Char) (mem : c ∈ slashes.toList) : Text.isBlank c = false := by
    rw [all c mem]
    decide
  have started : Text.trimStart (slashes ++ name).toList = (slashes ++ name).toList := by
    rw [Text.trimStart_eq_self_iff, String.toList_append]
    rintro ⟨c, rest, eq, blank⟩
    have head : (slashes.toList ++ name.toList).head? = some c := by rw [eq]; rfl
    rw [List.head?_append] at head
    cases first : slashes.toList.head? with
    | none =>
      rw [first] at head
      rw [plain c head] at blank
      cases blank
    | some d =>
      rw [first] at head
      cases head
      rw [dark c (List.mem_of_mem_head? first)] at blank
      cases blank
  have ended : Text.trimEnd slashes.toList = slashes.toList := by
    rw [Text.trimEnd_eq_self_iff]
    rintro ⟨front, c, eq, blank⟩
    rw [dark c (by rw [eq]; simp)] at blank
    cases blank
  have own : Text.trimStart name.toList = name.toList := by
    rw [Text.trimStart_eq_self_iff]
    rintro ⟨c, rest, eq, blank⟩
    rw [plain c (by rw [eq]; rfl)] at blank
    cases blank
  have apart : Text.trimEnd (slashes.toList ++ name.toList) =
      slashes.toList ++ Text.trimEnd name.toList := by
    cases chars : name.toList with
    | nil => simpa [Text.trimEnd] using ended
    | cons c rest => exact Text.trimEnd_append (plain c (by rw [chars]; rfl)) _ _
  rw [← String.toList_inj, toList_normalName, toList_normalName, Text.trim, Text.trim, started, own,
    String.toList_append, apart, List.dropWhile_append_of_pos (by simpa using all)]

/-! ## Judging a type -/

namespace Manifest

variable {raw : List String} {exclusions : Exclusions} {before : List DeclaredType}
  {type : DeclaredType}

/-- Behind the types `before`, the type is left out as an excluded one. -/
def DropsAsExcluded (exclusions : Exclusions) (before : List DeclaredType) (type : DeclaredType) :
    Prop :=
  (ofNames ((before ++ [type]).map (·.name)) exclusions).stats.excluded =
    (ofNames (before.map (·.name)) exclusions).stats.excluded + 1

theorem dropsAsExcluded_iff :
    DropsAsExcluded exclusions before type ↔ exclusions.contains (normalName type.name) := by
  rw [DropsAsExcluded, List.map_append, List.map_singleton, ofNames_concat]
  rcases cases_add (ofNames (before.map (·.name)) exclusions) exclusions type.name with
    ⟨excluded, own⟩ | ⟨listed, -, own⟩ | ⟨listed, -, own⟩
  · simp [own, excluded]
  · simp [own, listed]
  · simp [own, listed]

theorem contains_self (listed : type.name ∈ raw) (full : normalName type.name ≠ "") :
    (Exclusions.ofNames raw).contains type.name :=
  Exclusions.contains_iff.mpr (Exclusions.mem_ofNames.mpr ⟨full, _, listed, rfl⟩)

theorem dropsAsExcluded_iff_contains (plain : ¬HidesBlank type.name) :
    DropsAsExcluded exclusions before type ↔ exclusions.contains type.name := by
  rw [dropsAsExcluded_iff, Exclusions.contains_iff, Exclusions.contains_iff,
    (normalName_normalName_iff _).mpr plain]

/-- A name is listed only if its normal form is not judged to be excluded. -/
theorem notMem_names_of_drops {declared : List String}
    (drops : DropsAsExcluded exclusions before type) :
    normalName type.name ∉ (ofNames declared exclusions).names := by
  intro mem
  have kept := (mem_names_ofNames.mp mem).2
  rw [dropsAsExcluded_iff.mp drops] at kept
  cases kept

end Manifest

end ScriptCache
