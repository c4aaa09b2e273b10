import ScriptCache.Proofs.Disk.Place

/-!
# The directory of a path

A path that ends with a name is its parent path, a separator and the name, with any number of dots
between them. Where the path has a place, the parent leads to the directory of this place.
-/

namespace ScriptCache

namespace Path

variable {p : Path} {first : String} {segs : List String}

theorem intercalate_segments (p : Path) : "/".intercalate p.segments = p :=
  Text.intercalate_cut rfl p

theorem parts_intercalate_eq_filter (plain : ∀ s ∈ segs, '/' ∉ s.toList) :
    parts ("/".intercalate segs) = segs.filter (!·.isEmpty) := by
  have single {s : String} (h : '/' ∉ s.toList) : parts s = [s].filter (!·.isEmpty) := by
    rw [parts, segments, List.splitOn_eq_singleton h]
    simp
  induction segs with
  | nil => rfl
  | cons s segs ih =>
    obtain ⟨first, others⟩ := List.forall_mem_cons.mp plain
    cases segs with
    | nil => rw [String.intercalate_singleton, single first]
    | cons second segs =>
      rw [String.intercalate_cons_cons, parts_append, single first, ih others,
        ← List.filter_append]
      rfl

theorem exists_intercalate_append (xs ys : List String) :
    ∃ s : String, "/".intercalate (xs ++ ys) = "/".intercalate xs ++ s := by
  by_cases none : ys = []
  · exact ⟨"", by simp [none]⟩
  · by_cases top : xs = []
    · exact ⟨"/".intercalate ys, by simp [top]⟩
    · refine ⟨"/" ++ "/".intercalate ys, ?_⟩
      rw [String.intercalate_append_of_ne_nil top none, String.append_assoc]

theorem exists_eq_slash_append (absolute : p.isAbsolute) : ∃ rest : String, p = "/" ++ rest := by
  obtain ⟨t, text⟩ := List.head?_eq_some_iff.mp (isAbsolute_iff.mp absolute)
  exact ⟨String.ofList t, by rw [← String.toList_inj, text]; simp⟩

theorem isAbsolute_append (full : p ≠ "") (s : String) : isAbsolute (p ++ s) = p.isAbsolute := by
  have full : p.toList ≠ [] := by simpa using full
  rw [Bool.eq_iff_iff, isAbsolute_iff, isAbsolute_iff, String.toList_append, List.head?_append,
    List.head?_eq_some_head full, Option.some_or]

/-- A path is its anchor and a rest. Behind a dot there is a slash, or nothing. -/
structure Anchored (p : Path) (rest : String) : Prop where
  eq : p = p.anchor ++ rest
  apart : p.anchor = "." → rest = "" ∨ isAbsolute rest

theorem exists_anchored (p : Path) : ∃ rest, p.Anchored rest := by
  by_cases absolute : p.isAbsolute
  · have anchor : p.anchor = "/" := if_pos absolute
    obtain ⟨rest, eq⟩ := exists_eq_slash_append absolute
    exact ⟨rest, by rw [anchor, ← eq], fun dot ↦ absurd (anchor.symm.trans dot) (by decide)⟩
  · by_cases dot : p == "." || p.startsWith "./"
    · have anchor : p.anchor = "." := by rw [Path.anchor, if_neg absolute, if_pos dot]
      rw [Bool.or_eq_true, beq_iff_eq, String.startsWith_string_iff] at dot
      rcases dot with rfl | ⟨t, text⟩
      · exact ⟨"", by cbv, fun _ ↦ .inl rfl⟩
      · refine ⟨String.ofList ('/' :: t), ?_, fun _ ↦ .inr ?_⟩
        · rw [anchor, ← String.toList_inj, ← text]
          simp
        · rw [isAbsolute_iff, String.toList_ofList, List.head?_cons]
    · have anchor : p.anchor = "" := by rw [Path.anchor, if_neg absolute, if_neg dot]
      exact ⟨p, by rw [anchor, String.empty_append],
        fun dot ↦ absurd (anchor.symm.trans dot) (by decide)⟩

theorem Anchored.dropped {rest : String} (h : p.Anchored rest) :
    String.ofList (p.toList.drop p.anchor.length) = rest := by
  have text : p.toList = p.anchor.toList ++ rest.toList := by
    rw [← String.toList_append, ← h.eq]
  rw [text, ← String.length_toList, List.drop_left, String.ofList_toList]

theorem parts_slash_append (q : String) : parts ("/" ++ q) = parts q := by
  have split := parts_append "" q
  rwa [String.empty_append] at split

theorem anchor_cases (p : Path) : p.anchor = "/" ∨ p.anchor = "." ∨ p.anchor = "" := by
  unfold anchor
  split
  · exact .inl rfl
  · split
    · exact .inr (.inl rfl)
    · exact .inr (.inr rfl)

theorem parts_anchor_append {rest : String} (apart : p.anchor = "." → rest = "" ∨ isAbsolute rest) :
    parts (p.anchor ++ rest) = parts p.anchor ++ parts rest := by
  rcases p.anchor_cases with anchor | anchor | anchor <;> rw [anchor] at apart ⊢
  · exact parts_slash_append rest
  · rcases apart rfl with rfl | absolute
    · cbv
    · obtain ⟨q, rfl⟩ := exists_eq_slash_append absolute
      rw [← String.append_assoc, parts_append, parts_slash_append]
  · rw [String.empty_append]
    rfl

/-- The parent of a path whose rest behind the anchor ends with a proper segment. -/
theorem parent?_of_anchored {rest : String} (h : p.Anchored rest) {before : List String}
    {name : String} (segments_eq : segments rest = before ++ [name])
    (proper : isTrivial name = false) :
    p.parent? = some (p.anchor ++ "/".intercalate (before.rdropWhile isTrivial)) := by
  rw [parent?, ancestors, h.dropped, segments_eq, List.reverse_concat, ancestorsOf_eq,
    List.dropWhile_cons_of_neg]
  · rfl
  · rw [proper]
    exact Bool.false_ne_true

/-- A relative path that does not start with a dot starts with a proper segment. -/
theorem not_isTrivial_head (anchor : p.anchor = "") (segments : p.segments = first :: segs)
    (more : segs ≠ []) : isTrivial first = false := by
  obtain ⟨second, others, rfl⟩ := List.exists_cons_of_ne_nil more
  have text : p = first ++ "/" ++ "/".intercalate (second :: others) := by
    rw [← String.intercalate_cons_cons, ← segments, intercalate_segments]
  have relative : ¬p.isAbsolute := by
    intro absolute
    rw [Path.anchor, if_pos absolute] at anchor
    exact absurd anchor (by decide)
  by_contra trivial
  rw [Bool.not_eq_false, isTrivial, Bool.or_eq_true, beq_iff_eq, beq_iff_eq] at trivial
  rcases trivial with rfl | rfl
  · apply relative
    rw [isAbsolute_iff, text]
    simp
  · have dot : p.startsWith "./" := by
      rw [String.startsWith_string_iff, text]
      simp
    rw [Path.anchor, if_neg relative, if_pos (by simp [dot])] at anchor
    exact absurd anchor (by decide)

theorem intercalate_rdropWhile_ne_empty (proper : isTrivial first = false) :
    "/".intercalate ((first :: segs).rdropWhile isTrivial) ≠ "" := by
  have kept : (first :: segs).rdropWhile isTrivial ≠ [] := by
    rw [Ne, List.rdropWhile_eq_nil_iff, List.forall_mem_cons, proper]
    simp
  obtain ⟨head, tail, eq⟩ := List.exists_cons_of_ne_nil kept
  have start := List.rdropWhile_prefix isTrivial (l := first :: segs)
  rw [eq, List.cons_prefix_cons] at start
  obtain ⟨rfl, -⟩ := start
  obtain ⟨s, text⟩ := exists_intercalate_append [head] tail
  intro empty
  rw [eq, ← List.singleton_append, text, String.intercalate_singleton,
    String.append_eq_empty_iff] at empty
  rw [empty.1] at proper
  cases proper

/-- A mere name has no anchor. -/
theorem Anchored.anchor_eq_empty {rest : String} (h : p.Anchored rest) (ne : p ≠ p.anchor)
    (plain : '/' ∉ p.toList) : p.anchor = "" := by
  rcases p.anchor_cases with anchor | anchor | anchor
  · refine absurd ?_ plain
    rw [h.eq, anchor]
    simp
  · rcases h.apart anchor with none | absolute
    · refine absurd ?_ ne
      conv_lhs => rw [h.eq, none, String.append_empty]
    · obtain ⟨t, eq⟩ := exists_eq_slash_append absolute
      refine absurd ?_ plain
      rw [h.eq, eq]
      simp
  · exact anchor

end Path

namespace Disk

open ScriptCache.Path (IsName)

variable {d e : Disk} {p parent : Path} {init dir : List String} {name : String}

/-- The parent of a path that ends with a name, with what stands before the name. -/
structure IsParent (p parent : Path) (init : List String) : Prop where
  before : ∃ rest : String, p = parent ++ rest
  steps : ∃ dots, (∀ s ∈ dots, s = ".") ∧ init = parent.parts ++ dots

theorem EndsIn.ne_anchor (h : EndsIn p init name) : p ≠ p.anchor := by
  intro eq
  have dot : steps "." = ["."] := by cbv
  have none : steps "" = [] := by cbv
  have last := congrArg List.getLast? h.1
  rw [List.getLast?_concat, eq] at last
  rcases p.anchor_cases with anchor | anchor | anchor <;> rw [anchor] at last
  · exact h.2.ne_dot (Option.some.inj (last.symm.trans (congrArg List.getLast? steps_absolute_nil)))
  · exact h.2.ne_dot (Option.some.inj (last.symm.trans (congrArg List.getLast? dot)))
  · rw [none] at last
    cases last

theorem EndsIn.parts_eq (h : EndsIn p init name) : p.parts = init ++ [name] := by
  rw [← h.1, steps_eq, h.endsWith_slash, if_neg Bool.false_ne_true, List.append_nil]

theorem EndsIn.exists_segments_rest (h : EndsIn p init name) {rest : String}
    (anchored : p.Anchored rest) :
    ∃ before, Path.segments rest = before ++ [name] ∧
      init = Path.parts p.anchor ++ before.filter (!·.isEmpty) := by
  have full : rest ≠ "" := by
    rintro rfl
    exact h.ne_anchor (anchored.eq.trans String.append_empty)
  have plain : rest.endsWith "/" = false := by
    refine Bool.eq_false_iff.mpr fun ends ↦ Bool.eq_false_iff.mp h.endsWith_slash ?_
    obtain ⟨q, eq⟩ := Path.exists_eq_of_endsWith_slash ends
    rw [Path.endsWith_slash_iff, anchored.eq, eq]
    simp
  obtain ⟨before, part, split, part_full⟩ := exists_segments_eq_concat full plain
  have last : Path.parts rest = before.filter (!·.isEmpty) ++ [part] := by
    simp [Path.parts, split, part_full]
  have parts := h.parts_eq
  rw [anchored.eq, Path.parts_anchor_append anchored.apart, last, ← List.append_assoc] at parts
  cases List.append_inj_right' parts rfl
  exact ⟨before, split, (List.append_inj_left' parts rfl).symm⟩

theorem EndsIn.exists_parent (h : EndsIn p init name) :
    ∃ parent, p.parent? = some parent ∧ IsParent p parent init := by
  obtain ⟨rest, anchored⟩ := p.exists_anchored
  obtain ⟨before, split, init_eq⟩ := h.exists_segments_rest anchored
  have proper : Path.isTrivial name = false := by
    simp [Path.isTrivial, h.2.ne_empty, h.2.ne_dot]
  refine ⟨_, Path.parent?_of_anchored anchored split proper, ?_⟩
  have cut : before.rdropWhile Path.isTrivial ++ before.rtakeWhile Path.isTrivial = before :=
    List.rdropWhile_append_rtakeWhile
  obtain ⟨s, more⟩ := Path.exists_intercalate_append (before.rdropWhile Path.isTrivial)
    (before.rtakeWhile Path.isTrivial ++ [name])
  rw [← List.append_assoc, cut, ← split, Path.intercalate_segments] at more
  have apart : p.anchor = "." →
      "/".intercalate (before.rdropWhile Path.isTrivial) = "" ∨
        Path.isAbsolute ("/".intercalate (before.rdropWhile Path.isTrivial)) := by
    refine fun anchor ↦ or_iff_not_imp_left.mpr fun full ↦ ?_
    rw [← Path.isAbsolute_append full s, ← more]
    refine (anchored.apart anchor).resolve_left fun none ↦ full ?_
    rw [none] at more
    exact (String.append_eq_empty_iff.mp more.symm).1
  have plain : ∀ segment ∈ before.rdropWhile Path.isTrivial, '/' ∉ segment.toList := by
    intro segment mem
    have mem : segment ∈ Path.segments rest := by
      rw [split]
      exact List.mem_append_left _ ((List.rdropWhile_prefix _ _).subset mem)
    obtain ⟨part, part_mem, rfl⟩ := List.mem_map.mp mem
    rw [String.toList_ofList]
    exact Path.no_slash_of_mem_splitOn part_mem
  refine ⟨⟨s, ?_⟩, (before.rtakeWhile Path.isTrivial).filter (!·.isEmpty), ?_, ?_⟩
  · rw [String.append_assoc, ← more]
    exact anchored.eq
  · intro dot mem
    obtain ⟨mem, full⟩ := List.mem_filter.mp mem
    have trivial := List.mem_rtakeWhile_imp mem
    simpa [Path.isTrivial, String.isEmpty_iff.not.mp (by simpa using full)] using trivial
  · rw [Path.parts_anchor_append apart, Path.parts_intercalate_eq_filter plain, init_eq,
      List.append_assoc, ← List.filter_append, cut]

/-- The parent of a path is empty if the path is a mere name. -/
theorem EndsIn.parent?_eq_empty_iff (h : EndsIn p init name) :
    p.parent? = some "" ↔ '/' ∉ p.toList := by
  obtain ⟨rest, anchored⟩ := p.exists_anchored
  obtain ⟨before, split, -⟩ := h.exists_segments_rest anchored
  have proper : Path.isTrivial name = false := by
    simp [Path.isTrivial, h.2.ne_empty, h.2.ne_dot]
  rw [Path.parent?_of_anchored anchored split proper, Option.some.injEq, String.append_eq_empty_iff]
  constructor
  · rintro ⟨anchor, above⟩
    have same : p = rest := by
      have eq := anchored.eq
      rwa [anchor, String.empty_append] at eq
    rw [← same] at split
    cases before with
    | nil =>
      have mere : p = name := by rw [← Path.intercalate_segments p, split]; rfl
      rw [mere]
      exact h.2.no_slash
    | cons first others =>
      have proper := Path.not_isTrivial_head anchor split (by simp)
      exact absurd above (Path.intercalate_rdropWhile_ne_empty proper)
  · intro plain
    have anchor := anchored.anchor_eq_empty h.ne_anchor plain
    have same : rest = p := by
      have eq := anchored.eq
      rw [anchor, String.empty_append] at eq
      exact eq.symm
    have single : Path.segments rest = [rest] := by
      rw [Path.segments, same, List.splitOn_eq_singleton plain, List.map_singleton,
        String.ofList_toList]
    rw [single] at split
    have none : before = [] := by
      have length := congrArg List.length split
      rw [List.length_append] at length
      exact List.length_eq_zero_iff.mp (by simpa using length)
    refine ⟨anchor, ?_⟩
    rw [none]
    rfl

/-- Dots lead nowhere else. -/
theorem Reaches.eq_of_dots {here dots : List String} {count : Nat} (all : ∀ s ∈ dots, s = ".")
    (h : d.Reaches true here dots (.node dir) count) : here = dir := by
  induction dots with
  | nil =>
    cases h
    rfl
  | cons dot dots ih =>
    obtain ⟨rfl, others⟩ := List.forall_mem_cons.mp all
    exact ih others h.of_stay

theorem Reaches.of_dots {here xs dots : List String} {count : Nat} (all : ∀ s ∈ dots, s = ".")
    (h : d.Reaches true here (xs ++ dots) (.node dir) count) :
    ∃ first ≤ count, d.Reaches true here xs (.node dir) first := by
  by_cases none : dots = []
  · exact ⟨count, le_rfl, by simpa [none] using h⟩
  · obtain ⟨middle, first, second, before, after, sum⟩ := h.split none
    exact ⟨first, by omega, after.eq_of_dots all ▸ before⟩

namespace Places

/-- The parent of a path leads to the directory where the path has its place. -/
theorem locate_parent (h : d.Places p dir name) (parent_eq : p.parent? = some parent)
    (full : parent ≠ "") : d.locate true parent = .ok dir := by
  obtain ⟨init, ends, count, enough, reaches⟩ := h.ends
  obtain ⟨other, same, ⟨rest, eq⟩, dots, all, init_eq⟩ := ends.exists_parent
  cases parent_eq.symm.trans same
  have legal : Legal parent := (eq ▸ h.legal).of_append full
  have start : d.start p = d.start parent := by
    rw [Disk.start, Disk.start, eq, Path.isAbsolute_append full]
  rw [start, init_eq] at reaches
  obtain ⟨first, le, reaches⟩ := reaches.of_dots all
  refine locate_eq_ok_iff.mpr ⟨legal, first, le.trans enough, ?_⟩
  rw [steps_eq]
  split
  · exact reaches.append (.stay h.isDir (.here _)) (by simp)
  · rwa [List.append_nil]

theorem missingName_eq (h : d.Places p dir name) (settled : d.Settled)
    (full : p.parent? ≠ some "") : d.missingName p = absolute (dir ++ [name]) := by
  obtain ⟨init, ends, -⟩ := h.ends
  obtain ⟨parent, parent_eq, -⟩ := ends.exists_parent
  have located : d.locate true parent = .ok dir :=
    h.locate_parent parent_eq fun empty ↦ full (by rw [parent_eq, empty])
  rw [missingName, parent_eq, ends.fileName?_eq]
  dsimp only
  rw [canonicalize, located, Except.map]
  exact (absolute_concat h.isName (isName_of_locate settled located)).symm

end Places

end Disk

end ScriptCache
