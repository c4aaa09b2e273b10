import ScriptCache.Proofs.Url.Below

/-!
# Reading a URL with more behind it

Every reader of URLs goes on over a slash and more segments as if they were read by themselves: the
scheme, the user, the host and the port are the same, and so is the refusal of what is no URL.
-/

namespace ScriptCache.Url

open UrlPath (Verbatim close isSeparator readBehindHost)

variable {kind : SchemeKind} {s front : List Char} {more scheme : String} {u : Url}

/-! ## Authorities -/

theorem splitHost_suffix (bracketed : Bool) (s : List Char) : (splitHost bracketed s).2 <:+ s := by
  induction s generalizing bracketed with
  | nil => exact List.suffix_refl _
  | cons c s ih =>
    rw [splitHost]
    split
    · exact List.suffix_refl _
    · exact (ih _).trans (List.suffix_cons ..)

theorem splitUser_eq {user host : List Char} (h : splitUser s = some (user, host)) :
    s = user ++ '@' :: host := by
  rw [splitUser, List.span_eq_takeWhile_dropWhile] at h
  have joined := List.takeWhile_append_dropWhile (p := fun c ↦ decide (c ≠ '@')) (l := s.reverse)
  have stops := List.head?_dropWhile_not (fun c ↦ decide (c ≠ '@')) s.reverse
  cases behind : s.reverse.dropWhile (fun c ↦ decide (c ≠ '@')) with
  | nil =>
    rw [behind] at h
    cases h
  | cons at' rest =>
    rw [behind] at h joined stops
    cases h
    obtain rfl : at' = '@' := by simpa using stops
    simpa using (congrArg List.reverse joined).symm

/-- What stands behind the user. -/
def hostPort (front : List Char) : List Char := ((splitUser front).getD ([], front)).2

/-- What stands behind the port: a backslash, if any. -/
def behindPort (front : List Char) : List Char :=
  (splitHost false (hostPort front)).2.dropWhile (· ≠ '\\')

theorem behindPort_suffix (front : List Char) : behindPort front <:+ front := by
  have user : hostPort front <:+ front := by
    rw [hostPort]
    cases known : splitUser front with
    | none => exact List.suffix_refl _
    | some parts =>
      obtain ⟨user, host⟩ := parts
      rw [splitUser_eq known]
      exact (List.suffix_cons ..).trans (List.suffix_append ..)
  exact ((List.dropWhile_suffix _).trans (splitHost_suffix ..)).trans user

/-- The authority that is written in front of `rest`. -/
def frontAuthority? (scheme : String) (kind : SchemeKind) (front rest : List Char) :
    Option Authority :=
  let user := ((splitUser front).getD ([], front)).1
  let (host, port) := splitHost false (hostPort front)
  if (splitUser front).isSome ∧ user.isEmpty ∧ (hostPort front).isEmpty ∧ ¬rest.isEmpty then none
  else authority? scheme kind user host (port.takeWhile (· ≠ '\\'))

/-- A URL with an authority, read from its parts. -/
def ofParts (scheme : String) (kind : SchemeKind) (a : Authority) (s : List Char) : Url :=
  ⟨scheme, some a, String.ofList (readBehindHost kind (splitTail s).1).path,
    (readTail kind (splitTail s).2).1, (readTail kind (splitTail s).2).2⟩

theorem readAuthority_parts (scheme : String) (kind : SchemeKind) (s : List Char) :
    readAuthority scheme kind s =
      (frontAuthority? scheme kind (s.takeWhile (!endsAuthority kind ·))
          (s.dropWhile (!endsAuthority kind ·))).map fun a ↦
        ofParts scheme kind a (behindPort (s.takeWhile (!endsAuthority kind ·)) ++
          s.dropWhile (!endsAuthority kind ·)) := by
  rw [readAuthority]
  simp only [List.span_eq_takeWhile_dropWhile, frontAuthority?, hostPort, behindPort, ofParts]
  symm
  apply apply_ite

/-- Only behind an `@` it matters whether something follows. -/
theorem frontAuthority?_congr (ends : OpenEnded front) (rest rest' : List Char) :
    frontAuthority? scheme kind front rest = frontAuthority? scheme kind front rest' := by
  have somebody : ¬((splitUser front).isSome ∧ (hostPort front).isEmpty) := by
    rintro ⟨marked, host⟩
    obtain ⟨⟨user, host'⟩, known⟩ := Option.isSome_iff_exists.mp marked
    obtain rfl : host' = [] := by simpa [hostPort, known] using host
    have last : front.getLast? = some '@' := by
      rw [splitUser_eq known]
      exact List.getLast?_concat
    exact ends.getLast?_ne (by simp) last
  rw [frontAuthority?, frontAuthority?]
  dsimp only
  rw [if_neg fun h ↦ somebody ⟨h.1, h.2.2.1⟩, if_neg fun h ↦ somebody ⟨h.1, h.2.2.1⟩]

/-- What is read of a text with more behind it. -/
structure Continues (more : String) (before after : Option Url) : Prop where
  none : before = none → after = none
  below : ∀ u, before = some u → u.scheme ≠ "file" →
    after = some (u.below more) ∧ (u.below more).isOpaque = u.isOpaque
  /-- No backslash ends a path that is lengthened. -/
  path : ∀ u, before = some u → u.scheme ≠ "file" → u.isOpaque = false → u.query = Option.none →
    u.fragment = Option.none → u.path.toList.getLast? ≠ some '\\'

theorem continues_none : Continues more none none where
  none _ := rfl
  below _ read := by cases read
  path _ read := by cases read

theorem continues_some {v : Url} (lengthened : v = u.below more) (same : v.isOpaque = u.isOpaque)
    (last : u.isOpaque = false → u.query = none → u.fragment = none →
      u.path.toList.getLast? ≠ some '\\') : Continues more (some u) (some v) where
  none read := by cases read
  below := by
    rintro _ ⟨⟩ -
    rw [← lengthened]
    exact ⟨rfl, same⟩
  path := by
    rintro _ ⟨⟩ -
    exact last

section Verbatim

variable (verbatim : Verbatim more.toList)
include verbatim

omit verbatim in
/-- The path ends the text where there is neither query nor fragment. -/
theorem splitTail_of_none (query : (readTail kind (splitTail s).2).1 = none)
    (fragment : (readTail kind (splitTail s).2).2 = none) : splitTail s = (s, []) := by
  rcases splitTail_cases s with whole | ⟨c, rest, tail, rfl | rfl⟩
  · exact whole
  · rw [tail] at query
    cases query
  · rw [tail] at fragment
    cases fragment

theorem ofParts_append (no_file : kind ≠ .file) (ends : OpenEnded s) (a : Authority) :
    ofParts scheme kind a (s ++ '/' :: more.toList) = (ofParts scheme kind a s).below more := by
  apply lengthened_eq verbatim fun s ↦ (readBehindHost kind s).path
  have last : ∀ c ∈ s.getLast?, isSeparator kind c → c = '/' := by
    intro c last separator
    have outside := (ends c last).2
    simp_all [isSeparator]
  have closed := UrlPath.readBehindHost_close no_file verbatim last
  rwa [ends.close, List.append_assoc] at closed

theorem readAuthority_continues (no_file : kind ≠ .file) (ends : OpenEnded s) :
    Continues more (readAuthority scheme kind s)
      (readAuthority scheme kind (s ++ '/' :: more.toList)) := by
  obtain ⟨front, behind⟩ := takeWhile_append_slash (p := (!endsAuthority kind ·))
    (by simp [endsAuthority]) s more.toList
  generalize name_eq : s.takeWhile (!endsAuthority kind ·) = name at front
  generalize rest_eq : s.dropWhile (!endsAuthority kind ·) = rest at behind
  have whole : name ++ rest = s := by
    rw [← name_eq, ← rest_eq]
    exact List.takeWhile_append_dropWhile
  have inner : OpenEnded (behindPort name ++ rest) := by
    apply ends.suffix
    obtain ⟨taken, eq⟩ := behindPort_suffix name
    exact ⟨taken, by rw [← List.append_assoc, eq, whole]⟩
  have authority : frontAuthority? scheme kind name (rest ++ '/' :: more.toList) =
      frontAuthority? scheme kind name rest := by
    cases rest with
    | nil =>
      rw [List.append_nil] at whole
      rw [whole]
      exact frontAuthority?_congr ends _ _
    | cons c rest => rfl
  have parts := readAuthority_parts scheme kind s
  have parts' := readAuthority_parts scheme kind (s ++ '/' :: more.toList)
  rw [name_eq, rest_eq] at parts
  rw [front, behind, authority, ← List.append_assoc] at parts'
  rw [parts, parts']
  cases frontAuthority? scheme kind name rest with
  | none => exact continues_none
  | some a =>
    apply continues_some (ofParts_append verbatim no_file inner a)
    · simp [isOpaque, ofParts]
    · intro _ query fragment
      have path := splitTail_of_none query fragment
      dsimp only [ofParts]
      rw [path, String.toList_ofList]
      exact UrlPath.getLast?_readBehindHost no_file (inner.getLast?_ne (by simp))

/-! ## Plain URLs and files -/

omit verbatim in
/-- The path of a URL without an authority. -/
def plainPath (s : List Char) : List Char :=
  match s with
  | '/' :: rest => (UrlPath.read .other ['/'] rest).path
  | _ => Percent.encode Percent.controls s

omit verbatim in
theorem readPlain_parts (scheme : String) (s : List Char) :
    readPlain scheme s = ⟨scheme, none, String.ofList (plainPath (splitTail s).1),
      (readTail .other (splitTail s).2).1, (readTail .other (splitTail s).2).2⟩ := rfl

theorem plainPath_append (full : s ≠ []) (ends : OpenEnded s) :
    plainPath (s ++ '/' :: more.toList) = close (plainPath s) ++ more.toList := by
  obtain ⟨c, rest, rfl⟩ := List.exists_cons_of_ne_nil full
  by_cases slash : c = '/'
  · subst slash
    have rest_full : rest ≠ [] := by
      rintro rfl
      exact ends.getLast?_ne (by simp) rfl
    have inner := ends.suffix (List.suffix_cons '/' rest)
    have other : SchemeKind.other ≠ .file := by decide
    have closed := UrlPath.read_close other verbatim rest_full
      (fun c last separator ↦ by simpa [isSeparator, SchemeKind.isSpecial] using separator) ['/']
    rwa [inner.close, List.append_assoc] at closed
  · have plain (rest : List Char) :
        plainPath (c :: rest) = Percent.encode Percent.controls (c :: rest) := by
      rw [plainPath]
      simpa using slash
    have open' : UrlPath.endsWithSlash (Percent.encode Percent.controls (c :: rest)) = false := by
      rw [UrlPath.endsWithSlash, decide_eq_false_iff_not]
      intro last
      have same := Percent.getLast?_of_encode last (by simp [Percent.signs_eq])
      exact ends.getLast?_ne (by simp) same
    have split : Percent.encode Percent.controls (c :: rest ++ '/' :: more.toList) =
        Percent.encode Percent.controls (c :: rest) ++
          Percent.encode Percent.controls ('/' :: more.toList) := List.flatMap_append
    rw [List.cons_append, plain, plain, ← List.cons_append, split,
      Percent.encode_of_not_set fun c mem ↦ (off_of_verbatim verbatim .other mem).2.2,
      UrlPath.close_of_not_slash open', List.append_assoc]
    rfl

omit verbatim in
theorem head?_plainPath (s : List Char) : (plainPath s).head? = some '/' ↔ s.head? = some '/' := by
  unfold plainPath
  split
  · rename_i rest
    obtain ⟨path, eq, -⟩ := UrlPath.exists_settled_of_read .other rest
    rw [eq]
    exact Iff.rfl
  · rename_i plain
    constructor
    · intro first
      exact Percent.head?_of_encode first (by simp [Percent.signs_eq])
    · intro first
      obtain ⟨rest, eq⟩ := List.head?_eq_some_iff.mp first
      exact (plain rest eq).elim

omit verbatim in
theorem isOpaque_readPlain (scheme : String) (s : List Char) :
    (readPlain scheme s).isOpaque = decide (s.head? ≠ some '/') := by
  have first : (splitTail s).1.head? = some '/' ↔ s.head? = some '/' := by
    rw [splitTail_eq, List.head?_takeWhile, Option.filter_eq_some_iff]
    simp
  rw [readPlain_parts, isOpaque, Bool.eq_iff_iff, Bool.and_eq_true, Bool.not_eq_true',
    ← Bool.not_eq_true, Text.startsWith_slash_iff, String.toList_ofList, head?_plainPath, first]
  simp

theorem readPlain_continues (full : s ≠ []) (ends : OpenEnded s) :
    Continues more (some (readPlain scheme s))
      (some (readPlain scheme (s ++ '/' :: more.toList))) := by
  apply continues_some
  · rw [readPlain_parts, readPlain_parts]
    exact lengthened_eq verbatim plainPath (plainPath_append verbatim full ends)
  · rw [isOpaque_readPlain, isOpaque_readPlain, List.head?_append_of_ne_nil _ full]
  · intro hierarchical query fragment
    have slash : s.head? = some '/' := by simpa [isOpaque_readPlain] using hierarchical
    obtain ⟨rest, rfl⟩ := List.head?_eq_some_iff.mp slash
    rw [readPlain_parts] at query fragment ⊢
    have path := splitTail_of_none query fragment
    have other : SchemeKind.other ≠ .file := by decide
    rw [path, String.toList_ofList]
    apply UrlPath.getLast?_read other
    exact (ends.suffix (List.suffix_cons ..)).getLast?_ne (by simp)

omit verbatim in
theorem scheme_of_readFile (h : readFile s = some u) : u.scheme = "file" := by
  unfold readFile at h
  split at h
  · split at h
    · dsimp only at h
      split at h
      · cases h
        rfl
      · obtain ⟨host, -, rfl⟩ := Option.map_eq_some_iff.mp h
        rfl
    · cases h
      rfl
  · cases h
    rfl

omit verbatim in
/-- A file is refused for its host, in front of a slash. -/
theorem readFile_continues (s : List Char) :
    Continues more (readFile s) (readFile (s ++ '/' :: more.toList)) := by
  refine ⟨?_, ?_, ?_⟩
  · intro refused
    unfold readFile at refused
    split at refused
    · rename_i a b rest
      split at refused
      · rename_i slashes
        obtain ⟨front, behind⟩ := takeWhile_append_slash (p := fun c ↦ !endsAuthority .file c)
          (by decide) rest more.toList
        rw [List.span_eq_takeWhile_dropWhile] at refused
        rw [List.cons_append, List.cons_append, readFile, if_pos slashes,
          List.span_eq_takeWhile_dropWhile, front, behind]
        dsimp only at refused ⊢
        split at refused
        · cases refused
        · rename_i no_drive
          rw [if_neg no_drive, Option.map_eq_none_iff.mp refused]
          rfl
      · cases refused
    · cases refused
  · intro u read no_file
    exact absurd (scheme_of_readFile read) no_file
  · intro u read no_file
    exact absurd (scheme_of_readFile read) no_file

/-! ## Whole URLs -/

omit verbatim in
theorem dropWhile_isSlash_append (full : s ≠ []) (ends : OpenEnded s) (more : List Char) :
    (s ++ more).dropWhile isSlash = s.dropWhile isSlash ++ more := by
  have left : s.dropWhile isSlash ≠ [] := by
    intro none
    obtain ⟨init, c, rfl⟩ := (List.eq_nil_or_concat' s).resolve_left full
    have slash := List.dropWhile_eq_nil_iff.mp none c (by simp)
    apply (ends c List.getLast?_concat).2
    rcases (by simpa [isSlash] using slash : c = '/' ∨ c = '\\') with rfl | rfl <;> simp
  rw [List.dropWhile_append, if_neg (by simpa using left)]

omit verbatim in
/-- A URL of a scheme that is not special. -/
def readOther (scheme : String) (s : List Char) : Option Url :=
  match s with
  | '/' :: '/' :: rest => readAuthority scheme .other rest
  | rest => some (readPlain scheme rest)

theorem readOther_continues (full : s ≠ []) (ends : OpenEnded s) :
    Continues more (readOther scheme s) (readOther scheme (s ++ '/' :: more.toList)) := by
  have other : SchemeKind.other ≠ .file := by decide
  by_cases slashes : ∃ rest, s = '/' :: '/' :: rest
  · obtain ⟨rest, rfl⟩ := slashes
    exact readAuthority_continues verbatim other (ends.suffix (List.suffix_append ['/', '/'] rest))
  · have plain {t : List Char} (h : ¬∃ rest, t = '/' :: '/' :: rest) :
        readOther scheme t = some (readPlain scheme t) := by
      unfold readOther
      split
      · exact absurd ⟨_, rfl⟩ h
      · rfl
    have plain' : ¬∃ rest, s ++ '/' :: more.toList = '/' :: '/' :: rest := by
      rintro ⟨rest, eq⟩
      match s, full with
      | [c], _ =>
        cases eq
        exact ends.getLast?_ne (by simp) rfl
      | c :: d :: t, _ =>
        cases eq
        exact slashes ⟨t, rfl⟩
    rw [plain slashes, plain plain']
    exact readPlain_continues verbatim full ends

/-- A text that is read as a URL, with a slash and more behind it. -/
theorem parse?_continues {base : String} (ends : OpenEnded base.toList) :
    Continues more (parse? base) (parse? (base ++ "/" ++ more)) := by
  have text : (base ++ "/" ++ more).toList = base.toList ++ '/' :: more.toList := by simp
  rw [parse?, parse?, text, significant_append verbatim ends, splitScheme?_append_slash]
  have significant_ends := ends.significant
  cases split : splitScheme? (significant base.toList) with
  | none => exact continues_none
  | some parts =>
    obtain ⟨name, rest⟩ := parts
    obtain ⟨full, rest_ends⟩ := significant_ends.splitScheme? split
    have special : SchemeKind.special ≠ .file := by decide
    simp only [Option.map_some, Option.bind_eq_bind, Option.bind_some]
    cases SchemeKind.of (String.ofList name) with
    | file => exact readFile_continues rest
    | special =>
      dsimp only
      rw [dropWhile_isSlash_append full rest_ends]
      exact readAuthority_continues verbatim special
        (rest_ends.suffix (List.dropWhile_suffix isSlash))
    | other => exact readOther_continues verbatim full rest_ends

end Verbatim

end ScriptCache.Url
