import ScriptCache.Proofs.Url.Path

/-!
# Paths that go on

More segments behind a path that is read are more segments behind what is read, when nothing in
them has to be encoded or resolved. Between the two stands one slash, and if dots at the end of the
path left a slash there, it is this one.
-/

namespace ScriptCache.UrlPath

variable {kind : SchemeKind} {start more path segment : List Char} {p : Progress}
  {dirs back : List (List Char)} {c : Char}

/-- The path with a slash at its end. -/
def close (path : List Char) : List Char := if endsWithSlash path then path else path ++ ['/']

theorem close_of_slash (h : endsWithSlash path) : close path = path := if_pos h

theorem close_of_not_slash (h : endsWithSlash path = false) : close path = path ++ ['/'] :=
  if_neg (by simp [h])

theorem endsWithSlash_concat (path : List Char) (c : Char) :
    endsWithSlash (path ++ [c]) = decide (c = '/') := by
  rw [endsWithSlash, List.getLast?_concat]
  simp

theorem close_eq_slash_iff : close path = ['/'] ↔ path = [] ∨ path = ['/'] := by
  constructor
  · intro eq
    by_cases slash : endsWithSlash path
    · right
      rwa [close_of_slash slash] at eq
    · left
      rw [close_of_not_slash (by simpa using slash)] at eq
      simpa using eq
  · rintro (rfl | rfl) <;> rfl

theorem exists_of_endsWithSlash (h : endsWithSlash path) : ∃ front, path = front ++ ['/'] :=
  List.getLast?_eq_some_iff.mp (by simpa [endsWithSlash] using h)

/-- Characters and segments that are read as they are, under every scheme. -/
structure Verbatim (more : List Char) : Prop where
  kept : ∀ c ∈ more, Percent.path c = false
  plain : ∀ c ∈ more, c ≠ '\\' ∧ c.toNat ≠ 0x27
  noDots : ∀ s ∈ more.splitOn '/', NoDots s

theorem verbatim_nil : Verbatim [] := ⟨by simp, by simp, by simpa using noDots_nil⟩

/-! ## Segments -/

/-- Whether a character stands between segments. -/
def isSeparator (kind : SchemeKind) (c : Char) : Bool := c = '/' || (kind.isSpecial && c = '\\')

theorem segments_ne_nil (kind : SchemeKind) (s : List Char) : segments kind s ≠ [] :=
  List.splitOnP_ne_nil _ s

theorem segments_append_slash (w more : List Char) :
    segments kind (w ++ '/' :: more) = segments kind w ++ segments kind more :=
  List.splitOnP_append_cons w more (by simp)

/-- The last segment ends as the text does. -/
theorem exists_segments {w : List Char} (last : w.getLast? = some c)
    (inside : isSeparator kind c = false) :
    ∃ dirs l, segments kind w = dirs ++ [l] ∧ l.getLast? = some c := by
  have unsplit (x : Char) (w : List Char) : segments kind (x :: w) =
      if isSeparator kind x then [] :: segments kind w else (segments kind w).modifyHead (x :: ·) :=
    List.splitOnP_cons_eq_if_modifyHead x w
  induction w with
  | nil => cases last
  | cons x w ih =>
    rw [unsplit]
    cases w with
    | nil =>
      obtain rfl : x = c := Option.some.inj last
      rw [if_neg (by simp [inside])]
      exact ⟨[], [x], rfl, rfl⟩
    | cons y w =>
      rw [List.getLast?_cons_cons] at last
      obtain ⟨dirs, l, split, last⟩ := ih last
      rw [split]
      split
      · exact ⟨[] :: dirs, l, rfl, last⟩
      · cases dirs with
        | nil =>
          refine ⟨[], x :: l, rfl, ?_⟩
          rw [List.getLast?_cons, last]
          rfl
        | cons d dirs => exact ⟨(x :: d) :: dirs, l, rfl, last⟩

/-- Adds directories. -/
def Progress.enter (kind : SchemeKind) (p : Progress) (dirs : List (List Char)) : Progress :=
  dirs.foldl (fun p d ↦ p.add kind d true) p

theorem addAll_append (dirs : List (List Char)) (full : back ≠ []) :
    p.addAll kind (dirs ++ back) = (p.enter kind dirs).addAll kind back := by
  induction dirs generalizing p with
  | nil => rfl
  | cons d dirs ih =>
    have behind : dirs ++ back ≠ [] := by simp [full]
    obtain ⟨next, others, eq⟩ := List.exists_cons_of_ne_nil behind
    have step : p.addAll kind (d :: (dirs ++ back)) =
        (p.add kind d true).addAll kind (dirs ++ back) := by
      rw [eq]
      rfl
    exact step.trans ih

/-! ## Directories -/

section Add

variable (no_file : kind ≠ .file)
include no_file

/-- A slash behind a segment is one at the end of the path. -/
theorem add_closed (full : segment ≠ []) (no_slash : '/' ∉ segment) (p : Progress) :
    p.add kind segment true = ⟨close (p.add kind segment false).path, p.drive⟩ := by
  have off : decide (kind = .file) = false := decide_eq_false no_file
  have encoded_full := Percent.encode_ne_nil Percent.path full
  have encoded_slash : '/' ∉ Percent.encode Percent.path segment := by
    intro mem
    rcases Percent.mem_encode mem with ⟨mem, -⟩ | sign
    · exact no_slash mem
    · rw [Percent.signs_eq] at sign
      exact absurd sign (by decide)
  rw [Progress.add, Progress.add]
  generalize Percent.encode Percent.path segment = encoded at encoded_full encoded_slash
  by_cases double : isDoubleDot encoded
  · by_cases slash : endsWithSlash (leave false p.path)
    · simp [off, double, slash, close]
    · simp [off, double, slash, close]
  · by_cases single : isSingleDot encoded
    · by_cases slash : endsWithSlash p.path
      · simp [double, single, slash, close]
      · have ends : endsWithSlash (p.path ++ ['/']) := by simp [endsWithSlash_concat]
        simp [double, single, slash, close, ends]
    · have open' : endsWithSlash (p.path ++ encoded) = false := by
        obtain ⟨front, d, rfl⟩ := (List.eq_nil_or_concat' encoded).resolve_left encoded_full
        have other : d ≠ '/' := fun eq ↦ encoded_slash (by simp [eq])
        rw [← List.append_assoc, endsWithSlash_concat]
        simp [other]
      simp [off, double, single, close, open']

theorem endsWithSlash_add (segment : List Char) (p : Progress) :
    endsWithSlash (p.add kind segment true).path := by
  have off : decide (kind = .file) = false := decide_eq_false no_file
  rw [Progress.add]
  generalize Percent.encode Percent.path segment = encoded
  by_cases double : isDoubleDot encoded
  · by_cases slash : endsWithSlash (leave false p.path)
    · simp [off, double, slash]
    · simp [off, double, slash, endsWithSlash_concat]
  · by_cases single : isSingleDot encoded
    · by_cases slash : endsWithSlash p.path
      · simp [double, single, slash]
      · simp [double, single, slash, endsWithSlash_concat]
    · have closed := endsWithSlash_concat (p.path ++ encoded) '/'
      rw [List.append_assoc] at closed
      simp [off, double, single, closed]

theorem endsWithSlash_enter (full : dirs ≠ []) (p : Progress) :
    endsWithSlash (p.enter kind dirs).path := by
  obtain ⟨front, d, rfl⟩ := (List.eq_nil_or_concat' dirs).resolve_left full
  rw [Progress.enter, List.foldl_append]
  exact endsWithSlash_add no_file d _

/-- A path ends with a slash, or as the segment does that was added last. -/
theorem getLast?_add (last : segment.getLast? = some c) (no_backslash : c ≠ '\\') (p : Progress) :
    (p.add kind segment false).path.getLast? ≠ some '\\' := by
  have off : decide (kind = .file) = false := decide_eq_false no_file
  have of_slash {path : List Char} (h : endsWithSlash path) : path.getLast? ≠ some '\\' := by
    obtain ⟨front, rfl⟩ := exists_of_endsWithSlash h
    simp
  have of_directory (path : List Char) : (directory path).getLast? ≠ some '\\' := by
    intro backslash
    have stops := List.head?_dropWhile_not (fun c ↦ decide (c ≠ '/')) path.reverse
    rw [directory, List.getLast?_reverse] at backslash
    rw [backslash] at stops
    exact absurd stops (by decide)
  have of_encoded : (Percent.encode Percent.path segment).getLast? ≠ some '\\' := by
    intro backslash
    have same := Percent.getLast?_of_encode backslash (by simp [Percent.signs_eq])
    rw [last] at same
    cases same
    contradiction
  have full := List.ne_nil_of_mem (List.mem_of_getLast? last)
  have encoded_full := Percent.encode_ne_nil Percent.path full
  rw [Progress.add]
  generalize Percent.encode Percent.path segment = encoded at of_encoded encoded_full
  by_cases double : isDoubleDot encoded
  · simpa [off, double, leave] using of_directory _
  · by_cases single : isSingleDot encoded
    · by_cases slash : endsWithSlash p.path
      · simpa [double, single, slash] using of_slash slash
      · simp [double, single, slash]
    · simpa [off, double, single, List.getLast?_append_of_ne_nil _ encoded_full] using of_encoded

/-! ## Reading -/

theorem read_path (start s : List Char) :
    (read kind start s).path = (Progress.addAll kind ⟨start, false⟩ (segments kind s)).path := by
  rw [read, if_neg no_file]

/-- The segment that is read last ends as the text does. -/
theorem exists_read {w : List Char} (last : w.getLast? = some c)
    (inside : isSeparator kind c = false) (start : List Char) :
    ∃ dirs l, segments kind w = dirs ++ [l] ∧ l.getLast? = some c ∧
      (read kind start w).path =
        ((Progress.enter kind ⟨start, false⟩ dirs).add kind l false).path := by
  obtain ⟨dirs, l, split, l_last⟩ := exists_segments last inside
  refine ⟨dirs, l, split, l_last, ?_⟩
  rw [read_path no_file, split, addAll_append dirs (List.cons_ne_nil l [])]
  rfl

section Verbatim

variable (verbatim : Verbatim more)
include verbatim

/-- Behind a slash, more is read as it is. -/
theorem read_append_slash (start w : List Char) :
    (read kind start (w ++ '/' :: more)).path =
      (Progress.enter kind ⟨start, false⟩ (segments kind w)).path ++ more := by
  have closed := endsWithSlash_enter no_file (segments_ne_nil kind w) ⟨start, false⟩
  obtain ⟨front, eq⟩ := exists_of_endsWithSlash closed
  have parts : segments kind more = more.splitOn '/' :=
    segments_eq_splitOn fun _ mem ↦ (verbatim.plain _ mem).1 rfl
  have kept (s : List Char) (part : s ∈ more.splitOn '/') (c : Char) (mem : c ∈ s) :
      Percent.path c = false := verbatim.kept c (Text.of_mem_splitOn part mem).1
  have whole : ['/'].intercalate (more.splitOn '/') = more := List.intercalate_splitOn '/'
  rw [read_path no_file, segments_append_slash, parts, addAll_append _ (List.splitOn_ne_nil '/' more),
    addAll_plain (List.splitOn_ne_nil '/' more) (by simp [eq]) kept verbatim.noDots
      fun file ↦ absurd file no_file, whole]

/-- A text that is read, and more behind a slash. -/
theorem read_close {w : List Char} (full : w ≠ [])
    (last : ∀ c ∈ w.getLast?, isSeparator kind c → c = '/') (start : List Char) :
    (read kind start (close w ++ more)).path = close (read kind start w).path ++ more := by
  obtain ⟨front, c, rfl⟩ := (List.eq_nil_or_concat' w).resolve_left full
  by_cases slash : c = '/'
  · subst slash
    have bare := read_append_slash no_file verbatim_nil start front
    have closed := endsWithSlash_enter no_file (segments_ne_nil kind front) ⟨start, false⟩
    rw [List.append_nil] at bare
    rw [close_of_slash (by simp [endsWithSlash_concat]), List.append_assoc, List.singleton_append,
      read_append_slash no_file verbatim, bare, close_of_slash closed]
  · have inside : isSeparator kind c = false := by
      by_contra separator
      exact slash (last c List.getLast?_concat (by simpa using separator))
    obtain ⟨dirs, l, split, l_last⟩ := exists_segments List.getLast?_concat inside
    have l_full : l ≠ [] := by
      rintro rfl
      cases l_last
    have l_slash : '/' ∉ l := (not_mem_of_mem_segments (split ▸ List.mem_concat_self)).1
    have behind : (Progress.enter kind ⟨start, false⟩ (dirs ++ [l])) =
        (Progress.enter kind ⟨start, false⟩ dirs).add kind l true := List.foldl_append ..
    have read : (read kind start (front ++ [c])).path =
        ((Progress.enter kind ⟨start, false⟩ dirs).add kind l false).path := by
      rw [read_path no_file, split, addAll_append dirs (List.cons_ne_nil l [])]
      rfl
    rw [close_of_not_slash (by simp [endsWithSlash_concat, slash]), List.append_assoc,
      List.singleton_append, read_append_slash no_file verbatim, split, behind,
      add_closed no_file l_full l_slash, read]

end Verbatim

theorem getLast?_read {w : List Char} (last : w.getLast? ≠ some '\\') :
    (read kind ['/'] w).path.getLast? ≠ some '\\' := by
  rcases List.eq_nil_or_concat' w with rfl | ⟨front, c, rfl⟩
  · rw [read_path no_file]
    cases kind <;> decide
  · rw [List.getLast?_concat, ne_eq, Option.some_inj] at last
    by_cases slash : c = '/'
    · subst slash
      have closed := endsWithSlash_enter no_file (segments_ne_nil kind front) ⟨['/'], false⟩
      obtain ⟨path, eq⟩ := exists_of_endsWithSlash closed
      rw [read_append_slash no_file verbatim_nil, List.append_nil, eq, List.getLast?_concat]
      decide
    · have inside : isSeparator kind c = false := by simp [isSeparator, slash, last]
      obtain ⟨dirs, l, -, l_last, read⟩ := exists_read no_file List.getLast?_concat inside ['/']
      rw [read]
      exact getLast?_add no_file l_last last _

end Add

/-! ## Behind a host -/

/-- A text behind a host is read behind one slash, its own or another. -/
theorem readBehindHost_cons (c : Char) (rest : List Char) :
    readBehindHost kind (c :: rest) =
      if isSeparator kind c then read kind ['/'] rest else read kind ['/'] (c :: rest) := by
  cases kind with
  | other =>
    by_cases slash : c = '/'
    · rw [readBehindHost, if_pos slash, read_slash (.inl slash)]
      simp [isSeparator, slash]
    · rw [readBehindHost, if_neg slash]
      simp [isSeparator, slash, SchemeKind.isSpecial]
  | special | file => simp [readBehindHost, isSeparator, SchemeKind.isSpecial]

theorem close_cons (c : Char) {w : List Char} (full : w ≠ []) : close (c :: w) = c :: close w := by
  have same : endsWithSlash (c :: w) = endsWithSlash w := by
    rw [endsWithSlash, endsWithSlash, List.getLast?_cons_of_ne_nil full]
  rw [close, close, same]
  split <;> rfl

section Host

variable (no_file : kind ≠ .file)
include no_file

theorem readBehindHost_close (verbatim : Verbatim more) {w : List Char}
    (last : ∀ c ∈ w.getLast?, isSeparator kind c → c = '/') :
    (readBehindHost kind (close w ++ more)).path = close (readBehindHost kind w).path ++ more := by
  have slash : isSeparator kind '/' := by simp [isSeparator]
  have bare {rest : List Char} (verbatim : Verbatim rest) :
      (read kind ['/'] rest).path = '/' :: rest :=
    congrArg Progress.path (read_plain verbatim.kept verbatim.noDots
      (fun _ mem ↦ (verbatim.plain _ mem).1 rfl) fun file ↦ absurd file no_file)
  cases w with
  | nil =>
    have front : close [] ++ more = '/' :: more := rfl
    have root : close (readBehindHost kind []).path = ['/'] := by
      cases kind with
      | file => contradiction
      | other => rfl
      | special =>
        have read : (readBehindHost .special []).path = ['/'] := bare verbatim_nil
        rw [read]
        rfl
    rw [front, root, readBehindHost_cons, if_pos slash, bare verbatim]
    rfl
  | cons c w =>
    by_cases separator : isSeparator kind c
    · rw [readBehindHost_cons c w, if_pos separator]
      rcases List.eq_nil_or_concat' w with rfl | ⟨init, d, rfl⟩
      · obtain rfl := last c rfl separator
        have front : close ['/'] ++ more = '/' :: more := rfl
        rw [front, readBehindHost_cons, if_pos slash, bare verbatim, bare verbatim_nil]
        rfl
      · have full : init ++ [d] ≠ [] := by simp
        rw [List.getLast?_cons_of_ne_nil full] at last
        rw [close_cons c full, List.cons_append, readBehindHost_cons, if_pos separator]
        exact read_close no_file verbatim full last ['/']
    · obtain ⟨rest, eq⟩ : ∃ rest, close (c :: w) = c :: rest := by
        by_cases slash : endsWithSlash (c :: w)
        · exact ⟨w, close_of_slash slash⟩
        · exact ⟨w ++ ['/'], close_of_not_slash (by simpa using slash)⟩
      have closed := read_close no_file verbatim (List.cons_ne_nil c w) last ['/']
      rw [eq, List.cons_append] at closed
      rw [eq, List.cons_append, readBehindHost_cons, readBehindHost_cons, if_neg separator,
        if_neg separator, closed]

theorem getLast?_readBehindHost {w : List Char} (last : w.getLast? ≠ some '\\') :
    (readBehindHost kind w).path.getLast? ≠ some '\\' := by
  cases w with
  | nil =>
    cases kind with
    | file => contradiction
    | _ => decide
  | cons c w =>
    rw [readBehindHost_cons]
    split
    · refine getLast?_read no_file fun backslash ↦ last ?_
      have full := List.ne_nil_of_mem (List.mem_of_getLast? backslash)
      rwa [List.getLast?_cons_of_ne_nil full]
    · exact getLast?_read no_file last

end Host

end ScriptCache.UrlPath
