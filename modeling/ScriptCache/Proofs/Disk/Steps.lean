import ScriptCache.Disk.Change
import ScriptCache.Proofs.Text.Split

/-!
# The steps of paths

What a path is made of decides where it leads. The names of entries are put together to paths whose
steps are these names again.
-/

namespace ScriptCache

/-- A name that an entry of a directory can have. -/
structure Path.IsName (name : String) : Prop where
  ne_empty : name ≠ ""
  ne_dot : name ≠ "."
  ne_dots : name ≠ ".."
  no_slash : '/' ∉ name.toList

namespace Path

theorem isName_iff {name : String} :
    IsName name ↔ name ≠ "" ∧ name ≠ "." ∧ name ≠ ".." ∧ '/' ∉ name.toList :=
  ⟨fun ⟨a, b, c, d⟩ ↦ ⟨a, b, c, d⟩, fun ⟨a, b, c, d⟩ ↦ ⟨a, b, c, d⟩⟩

instance (name : String) : Decidable (IsName name) := decidable_of_iff' _ isName_iff

/-- The segments that are not empty. -/
def parts (p : Path) : List String := p.segments.filter (!·.isEmpty)

theorem segments_append (p q : String) : segments (p ++ "/" ++ q) = segments p ++ segments q :=
  Text.cut_append rfl p q

theorem no_slash_of_mem_splitOn {text part : List Char} (h : part ∈ text.splitOn '/') :
    '/' ∉ part :=
  fun mem ↦ (Text.of_mem_splitOn h mem).2 rfl

theorem no_slash_of_mem_parts {p : Path} {part : String} (h : part ∈ p.parts) :
    part ≠ "" ∧ '/' ∉ part.toList := by
  obtain ⟨mem, full⟩ := List.mem_filter.mp h
  obtain ⟨text, text_mem, rfl⟩ := List.mem_map.mp mem
  refine ⟨by simpa using full, ?_⟩
  rw [String.toList_ofList]
  exact no_slash_of_mem_splitOn text_mem

theorem no_slash_of_fileName? {p : Path} {name : String} (h : p.fileName? = some name) :
    '/' ∉ name.toList := by
  rw [fileName?] at h
  cases split : p.segments.reverse.dropWhile isTrivial with
  | nil =>
    rw [split] at h
    cases h
  | cons last before =>
    simp only [split, Option.ite_none_left_eq_some, Option.some.injEq] at h
    obtain ⟨-, rfl⟩ := h
    have mem : last ∈ p.segments :=
      List.mem_reverse.mp ((List.dropWhile_suffix isTrivial).subset (split ▸ List.mem_cons_self))
    obtain ⟨text, text_mem, rfl⟩ := List.mem_map.mp mem
    rw [String.toList_ofList]
    exact no_slash_of_mem_splitOn text_mem

theorem segments_of_isName {name : String} (h : IsName name) : segments name = [name] :=
  Text.cut_of_notMem h.no_slash

theorem parts_append (p q : String) : parts (p ++ "/" ++ q) = parts p ++ parts q := by
  rw [parts, segments_append, List.filter_append]
  rfl

theorem parts_of_isName {name : String} (h : IsName name) : parts name = [name] := by
  rw [parts, segments_of_isName h]
  simp [h.ne_empty]

theorem parts_intercalate {names : List String} (h : ∀ name ∈ names, IsName name) :
    parts ("/".intercalate names) = names := by
  induction names with
  | nil => rfl
  | cons name names ih =>
    have first := parts_of_isName (h name List.mem_cons_self)
    have others := ih fun n hn ↦ h n (List.mem_cons_of_mem _ hn)
    cases names with
    | nil => rw [String.intercalate_singleton, first]
    | cons second names =>
      rw [String.intercalate_cons_cons, parts_append, first, others]
      rfl

theorem isAbsolute_iff {p : Path} : p.isAbsolute ↔ p.toList.head? = some '/' :=
  Text.startsWith_slash_iff

theorem endsWith_slash_iff {p : Path} : p.endsWith "/" ↔ p.toList.getLast? = some '/' := by
  rw [String.endsWith, String.Slice.endsWith_string_iff, String.copy_toSlice]
  exact List.singleton_suffix_iff_getLast?_eq_some

theorem endsWith_slash_append {name : String} (h : IsName name) (p : String) :
    (p ++ name).endsWith "/" = false := by
  refine Bool.eq_false_iff.mpr fun ends ↦ ?_
  have full : name.toList ≠ [] := by simpa using h.ne_empty
  rw [endsWith_slash_iff, String.toList_append, List.getLast?_append,
    List.getLast?_eq_some_getLast full, Option.some_or] at ends
  exact h.no_slash (Option.some.inj ends ▸ List.getLast_mem full)

theorem exists_eq_of_endsWith_slash {p : Path} (h : p.endsWith "/") : ∃ q : String, p = q ++ "/" := by
  obtain ⟨text, eq⟩ := List.getLast?_eq_some_iff.mp (endsWith_slash_iff.mp h)
  exact ⟨String.ofList text, by rw [← String.toList_inj, eq]; simp⟩

theorem isAbsolute_of_isName {name : String} (h : IsName name) : isAbsolute name = false :=
  Bool.eq_false_iff.mpr fun absolute ↦ h.no_slash (List.mem_of_head? (isAbsolute_iff.mp absolute))

theorem ancestorsOf_eq (anchor : String) (reversed : List String) :
    ancestorsOf anchor reversed =
      match reversed.dropWhile isTrivial with
      | [] => if anchor == "." then [""] else []
      | _ :: before =>
        (anchor ++ "/".intercalate (before.dropWhile isTrivial).reverse) ::
          ancestorsOf anchor (before.dropWhile isTrivial) := by
  rw [ancestorsOf]
  split <;> rename_i rest <;> rw [rest]

section Join

variable {p : Path} {name : String} (p_full : p ≠ "") (h : IsName name)
include p_full h

theorem join_eq : p.join name = if p.endsWith "/" then p ++ name else p ++ "/" ++ name := by
  simp [join, isAbsolute_of_isName h, p_full]

theorem parts_join : (p.join name).parts = p.parts ++ [name] := by
  rw [join_eq p_full h, ← parts_of_isName h]
  split
  · rename_i ends
    obtain ⟨q, rfl⟩ := exists_eq_of_endsWith_slash ends
    have bare := parts_append q ""
    rw [String.append_empty] at bare
    rw [parts_append, bare]
    simp [parts, segments]
  · exact parts_append p name

theorem endsWith_slash_join : (p.join name).endsWith "/" = false := by
  rw [join_eq p_full h]
  split <;> exact endsWith_slash_append h _

theorem join_ne_empty : p.join name ≠ "" := by
  rw [join_eq p_full h]
  split <;> simp [p_full]

theorem isAbsolute_join : (p.join name).isAbsolute = p.isAbsolute := by
  have full : p.toList ≠ [] := by simpa using p_full
  rw [Bool.eq_iff_iff, isAbsolute_iff, isAbsolute_iff, join_eq p_full h]
  split <;> simp [List.head?_append, List.head?_eq_some_head full]

end Join

end Path

namespace Disk

open ScriptCache.Path (IsName)

theorem steps_eq (p : Path) : steps p = p.parts ++ if p.endsWith "/" then ["."] else [] := rfl

theorem steps_join {p : Path} {name : String} (p_full : p ≠ "") (h : IsName name) :
    steps (p.join name) = p.parts ++ [name] := by
  rw [steps_eq, Path.parts_join p_full h, Path.endsWith_slash_join p_full h]
  simp

theorem of_mem_steps {p : Path} {step : String} (h : step ∈ steps p) :
    step ≠ "" ∧ '/' ∉ step.toList := by
  rw [steps_eq] at h
  rcases List.mem_append.mp h with h | h
  · exact Path.no_slash_of_mem_parts h
  · split at h <;> simp_all

/-- A text that does not end with a slash has a last part. -/
theorem exists_splitOn_eq_concat {text : List Char} (full : text ≠ [])
    (last : text.getLast? ≠ some '/') :
    ∃ parts part, text.splitOn '/' = parts ++ [part] ∧ part ≠ [] := by
  induction text with
  | nil => contradiction
  | cons c text ih =>
    rw [List.splitOn_cons_eq_if_modifyHead]
    by_cases rest : text = []
    · subst rest
      have plain : (c == '/') = false := by simpa using last
      exact ⟨[], [c], by simp [plain], by simp⟩
    · rw [List.getLast?_cons_of_ne_nil rest] at last
      obtain ⟨parts, part, split, part_full⟩ := ih rest last
      rw [split]
      by_cases slash : c == '/'
      · exact ⟨[] :: parts, part, by simp [slash], part_full⟩
      · cases parts with
        | nil => exact ⟨[], c :: part, by simp [slash], by simp⟩
        | cons first parts => exact ⟨(c :: first) :: parts, part, by simp [slash], part_full⟩

theorem exists_segments_eq_concat {p : Path} (full : p ≠ "") (plain : p.endsWith "/" = false) :
    ∃ segments part, p.segments = segments ++ [part] ∧ part ≠ "" := by
  have last : p.toList.getLast? ≠ some '/' := fun ends ↦ by
    rw [Path.endsWith_slash_iff.mpr ends] at plain
    cases plain
  obtain ⟨parts, part, split, part_full⟩ := exists_splitOn_eq_concat (by simpa using full) last
  exact ⟨parts.map String.ofList, String.ofList part, by simp [Path.segments, split],
    by simpa using part_full⟩

theorem steps_ne_nil {p : Path} (full : p ≠ "") : steps p ≠ [] := by
  rw [steps_eq]
  cases ends : p.endsWith "/" with
  | true => simp
  | false =>
    obtain ⟨segments, part, split, part_full⟩ := exists_segments_eq_concat full ends
    simp [Path.parts, split, part_full]

/-- The path ends with a proper name. -/
def EndsIn (p : Path) (init : List String) (name : String) : Prop :=
  steps p = init ++ [name] ∧ IsName name

namespace EndsIn

variable {p : Path} {init : List String} {name : String}

theorem endsWith_slash (h : EndsIn p init name) : p.endsWith "/" = false := by
  refine Bool.eq_false_iff.mpr fun ends ↦ h.2.ne_dot ?_
  have steps := h.1
  rw [steps_eq, if_pos ends] at steps
  exact (List.append_inj_right' steps rfl |> List.singleton_inj.mp).symm

theorem exists_segments (h : EndsIn p init name) :
    ∃ segments, p.segments = segments ++ [name] ∧ segments.filter (!·.isEmpty) = init := by
  have plain := h.endsWith_slash
  have full : p ≠ "" := by
    rintro rfl
    have steps := h.1
    simp [steps_eq, Path.parts, Path.segments, plain] at steps
  obtain ⟨segments, part, split, part_full⟩ := exists_segments_eq_concat full plain
  have steps := h.1
  rw [steps_eq, plain, Path.parts, split, List.filter_append] at steps
  simp only [Bool.false_eq_true, if_false, List.append_nil] at steps
  have last : [part].filter (!·.isEmpty) = [part] := by simp [part_full]
  rw [last] at steps
  cases List.append_inj_right' steps rfl
  exact ⟨segments, split, List.append_inj_left' steps rfl⟩

theorem fileName?_eq (h : EndsIn p init name) : p.fileName? = some name := by
  obtain ⟨segments, split, -⟩ := h.exists_segments
  have proper : Path.isTrivial name = false := by
    simp [Path.isTrivial, h.2.ne_empty, h.2.ne_dot]
  simp [Path.fileName?, split, proper, h.2.ne_dots]

theorem endsInDots_eq (h : EndsIn p init name) : endsInDots p = false := by
  obtain ⟨segments, split, -⟩ := h.exists_segments
  simp [endsInDots, split, h.2.ne_dot, h.2.ne_dots]

end EndsIn

/-- A path that does not end like a directory ends with a name. -/
theorem exists_endsIn {p : Path} (full : p ≠ "") (plain : p.endsWith "/" = false)
    (dots : endsInDots p = false) : ∃ init name, EndsIn p init name := by
  obtain ⟨segments, part, split, part_full⟩ := exists_segments_eq_concat full plain
  have mem : part ∈ p.parts := by simp [Path.parts, split, part_full]
  have proper : IsName part := by
    simp only [endsInDots, split, List.getLast?_concat, Option.any_some, Bool.or_eq_false_iff,
      beq_eq_false_iff_ne] at dots
    exact ⟨part_full, dots.1, dots.2, (Path.no_slash_of_mem_parts mem).2⟩
  exact ⟨segments.filter (!·.isEmpty), part, by simp [steps_eq, Path.parts, split, plain, part_full],
    proper⟩

theorem parts_append_slashes (q : Path) (count : Nat) :
    Path.parts (q ++ String.ofList (List.replicate count '/')) = q.parts := by
  induction count generalizing q with
  | zero => simp
  | succ count ih =>
    have bare := Path.parts_append q ""
    rw [String.append_empty] at bare
    rw [List.replicate_succ, ← List.singleton_append, String.ofList_append, ← String.append_assoc,
      ih]
    exact bare.trans (List.append_nil _)

/-- Only slashes are trimmed. -/
theorem exists_eq_trimSlashes_append (p : Path) :
    ∃ count, p = trimSlashes p ++ String.ofList (List.replicate count '/') := by
  unfold trimSlashes
  split
  · exact ⟨0, by simp⟩
  · have slashes : p.toList.reverse.takeWhile (· = '/') =
        List.replicate (p.toList.reverse.takeWhile (· = '/')).length '/' := by
      refine List.eq_replicate_of_mem fun c mem ↦ ?_
      simpa using List.all_eq_true.mp List.all_takeWhile c mem
    refine ⟨(p.toList.reverse.takeWhile (· = '/')).length, ?_⟩
    rw [← String.toList_inj, String.toList_append, String.toList_ofList, String.toList_ofList,
      ← List.reverse_replicate, ← slashes, ← List.reverse_append, List.takeWhile_append_dropWhile,
      List.reverse_reverse]

theorem parts_trimSlashes (p : Path) : (trimSlashes p).parts = p.parts := by
  obtain ⟨count, eq⟩ := exists_eq_trimSlashes_append p
  calc (trimSlashes p).parts
      = Path.parts (trimSlashes p ++ String.ofList (List.replicate count '/')) :=
        (parts_append_slashes _ count).symm
    _ = p.parts := by rw [← eq]

theorem trimSlashes_of_endsWith {p : Path} (plain : p.endsWith "/" = false) : trimSlashes p = p := by
  obtain ⟨count, eq⟩ := exists_eq_trimSlashes_append p
  cases count with
  | zero => simpa using eq.symm
  | succ count =>
    have ends : p.endsWith "/" := by
      rw [Path.endsWith_slash_iff, eq, List.replicate_succ']
      simp
    rw [ends] at plain
    cases plain

theorem isAbsolute_absolute (names : List String) : (absolute names).isAbsolute := by
  rw [Path.isAbsolute_iff, absolute]
  simp

theorem absolute_ne_empty (names : List String) : absolute names ≠ "" := by
  simp [absolute]

theorem steps_absolute_nil : steps (absolute []) = ["."] := by
  cbv

theorem parts_absolute {names : List String} (h : ∀ name ∈ names, IsName name) :
    (absolute names).parts = names := by
  have parts := Path.parts_append "" ("/".intercalate names)
  rw [String.empty_append, Path.parts_intercalate h] at parts
  exact parts

theorem endsWith_slash_absolute {names : List String} {name : String} (h : IsName name) :
    (absolute (names ++ [name])).endsWith "/" = false := by
  by_cases empty : names = []
  · subst empty
    exact Path.endsWith_slash_append h "/"
  · rw [absolute, String.intercalate_append_of_ne_nil empty (by simp), String.intercalate_singleton,
      ← String.append_assoc]
    exact Path.endsWith_slash_append h _

theorem steps_absolute {names : List String} (full : names ≠ [])
    (h : ∀ name ∈ names, IsName name) : steps (absolute names) = names := by
  have plain : (absolute names).endsWith "/" = false := by
    rw [← List.dropLast_concat_getLast full]
    exact endsWith_slash_absolute (h _ (List.getLast_mem full))
  rw [steps_eq, parts_absolute h, plain]
  simp

theorem absolute_concat {names : List String} {name : String} (isName : IsName name)
    (names_names : ∀ n ∈ names, IsName n) :
    absolute (names ++ [name]) = (absolute names).join name := by
  rw [Path.join_eq (absolute_ne_empty names) isName]
  rcases List.eq_nil_or_concat' names with rfl | ⟨above, last, rfl⟩
  · rw [if_pos (by cbv)]
    rfl
  · rw [endsWith_slash_absolute (names_names last (by simp)), if_neg Bool.false_ne_true, absolute,
      absolute, String.intercalate_append_of_ne_nil (by simp) (by simp),
      String.intercalate_singleton, ← String.append_assoc, ← String.append_assoc]

end Disk

end ScriptCache
