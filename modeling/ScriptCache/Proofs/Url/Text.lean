import ScriptCache.Proofs.Url.Authority

/-!
# URLs are read back

The text of a URL with a host is read as this URL, if its parts are as they are when they were
read. Only the drive letter of a file may be read in another way.
-/

namespace ScriptCache.Url

open UrlPath (Driveless Rooted Settled)

variable {kind : SchemeKind} {s name rest : List Char} {c : Char} {u : Url} {a : Authority}
  {host : Host}

/-! ## Schemes -/

/-- A scheme in lower case. -/
structure IsScheme (name : List Char) : Prop where
  first : name.head?.any Char.isAlpha
  chars : ∀ c ∈ name, isSchemeChar c ∧ c.toLower = c

theorem isSchemeChar_toLower (char : isSchemeChar c) : isSchemeChar c.toLower := by
  by_cases upper : c.isUpper
  · have letter : c.toLower.isAlpha := by
      rw [Char.isAlpha_toLower_eq_isAlpha, Char.isAlpha, upper, Bool.true_or]
    simp [isSchemeChar, Char.isAlphanum, letter]
  · rwa [Char.toLower_eq_of_not_isUpper upper]

theorem visible_of_isSchemeChar (char : isSchemeChar c) : 0x20 < c.toNat := by
  have blank : ∀ n ≤ 0x20, isSchemeChar (Char.ofNat n) = false := by decide
  by_contra low
  have out := blank c.toNat (Nat.not_lt.mp low)
  rw [Char.ofNat_toNat] at out
  exact Bool.eq_false_iff.mp out char

theorem isScheme_of_splitScheme? (h : splitScheme? s = some (name, rest)) : IsScheme name := by
  rw [splitScheme?] at h
  split at h
  · split at h
    · rename_i first
      cases h
      constructor
      · rw [List.head?_map]
        cases front : (s.takeWhile isSchemeChar).head? with
        | none => simp [front] at first
        | some c =>
          rw [front] at first
          simpa [Char.isAlpha_toLower_eq_isAlpha] using first
      · intro c mem
        obtain ⟨d, d_mem, rfl⟩ := List.mem_map.mp mem
        have char : isSchemeChar d := List.mem_takeWhile_imp d_mem
        exact ⟨isSchemeChar_toLower char, Char.toLower_toLower_eq_toLower d⟩
    · cases h
  · cases h

theorem splitScheme?_append (scheme : IsScheme name) (rest : List Char) :
    splitScheme? (name ++ ':' :: rest) = some (name, rest) := by
  have ends : ∀ c ∈ (':' :: rest).head?, isSchemeChar c = false := by simp [isSchemeChar]
  obtain ⟨front, behind⟩ := Text.takeWhile_run (fun c mem ↦ (scheme.chars c mem).1) ends
  have lower : name.map Char.toLower = name :=
    (List.map_congr_left fun c mem ↦ (scheme.chars c mem).2).trans (List.map_id name)
  rw [splitScheme?, front, behind, lower]
  exact if_pos scheme.first

theorem significant_of_visible (visible : ∀ c ∈ s, 0x20 < c.toNat) : significant s = s := by
  have inner (c : Char) (mem : c ∈ s) : isEdge c = false := by
    have := visible c mem
    simp [isEdge, this]
  have front : s.dropWhile isEdge = s := by
    cases s with
    | nil => rfl
    | cons c s => rw [List.dropWhile_cons_of_neg (by simp [inner c])]
  have back : s.reverse.dropWhile isEdge = s.reverse := by
    cases turned : s.reverse with
    | nil => rfl
    | cons c t =>
      have mem : c ∈ s := by
        rw [← List.mem_reverse, turned]
        exact List.mem_cons_self
      rw [List.dropWhile_cons_of_neg (by simp [inner c mem])]
  rw [significant, front, back, List.reverse_reverse, List.filter_eq_self]
  intro c mem
  have := visible c mem
  have other (d : Char) (small : d.toNat ≤ 0x20) : c ≠ d := by
    rintro rfl
    omega
  simp [other '\t' (by decide), other '\n' (by decide), other '\r' (by decide)]

/-! ## The query and the fragment -/

/-- A query and a fragment as they are written. -/
def tailChars (query fragment : Option String) : List Char :=
  query.elim [] ('?' :: ·.toList) ++ fragment.elim [] ('#' :: ·.toList)

theorem readTail_tailChars {query fragment : Option String} (tail : Tail kind query fragment) :
    readTail kind (tailChars query fragment) = (query, fragment) := by
  have marked (f : String) (some_f : fragment = some f) :
      encodeText Percent.fragment f.toList = f := encodeText_of_not_set (tail.fragment f some_f)
  cases query with
  | none =>
    cases fragment with
    | none => rfl
    | some f => exact congrArg (Option.none, some ·) (marked f rfl)
  | some q =>
    have kept := encodeText_of_not_set (tail.query q rfl)
    have plain : ∀ c ∈ q.toList, decide (c ≠ '#') = true := fun c mem ↦
      decide_eq_true (Percent.ne_of_query (query_of_querySet (tail.query q rfl c mem))).2
    have ends : ∀ c ∈ (fragment.elim [] ('#' :: ·.toList)).head?, decide (c ≠ '#') = false := by
      cases fragment <;> simp
    obtain ⟨front, behind⟩ := Text.takeWhile_run plain ends
    have text : tailChars (some q) fragment =
        '?' :: (q.toList ++ fragment.elim [] ('#' :: ·.toList)) := rfl
    rw [text, readTail, List.span_eq_takeWhile_dropWhile, front, behind]
    cases fragment with
    | none => exact congrArg (some ·, Option.none) kept
    | some f => exact congrArg₂ (some ·, some ·) kept (marked f rfl)

theorem splitTail_tailChars {path : List Char} (rooted : Rooted kind path)
    (query fragment : Option String) :
    splitTail (path ++ tailChars query fragment) = (path, tailChars query fragment) := by
  have plain : ∀ c ∈ path, c ≠ '?' && c ≠ '#' := by
    intro c mem
    obtain ⟨-, no_fragment, no_query⟩ := Percent.ne_of_path (rooted.kept c mem)
    simp [no_fragment, no_query]
  have ends : ∀ c ∈ (tailChars query fragment).head?, (c ≠ '?' && c ≠ '#' : Bool) = false := by
    cases query <;> cases fragment <;> simp [tailChars]
  obtain ⟨front, behind⟩ := Text.takeWhile_run plain ends
  rw [splitTail_eq, front, behind]

/-! ## The whole -/

/-- The host of a file is read as that of a special scheme. -/
def hostKind : SchemeKind → SchemeKind
  | .file => .special
  | kind => kind

/-- The scheme and the authority of a URL with a host, as they are when they were read. -/
structure Anchored (u : Url) (a : Authority) (host : Host) : Prop where
  scheme : IsScheme u.scheme.toList
  authority : u.authority = some a
  seated : Seated u.scheme (hostKind u.kind) a host
  file : u.kind = .file → a = ⟨"", none, some host, none⟩ ∧ host ≠ .domain "localhost"

/-- A URL with a host, as it is when it was read. -/
structure Hosted (u : Url) (a : Authority) (host : Host) : Prop extends Anchored u a host where
  path : Rooted u.kind u.path.toList
  tail : Tail u.kind u.query u.fragment

theorem scheme_of_file (file : u.kind = .file) : u.scheme = "file" := by
  rw [Url.kind, SchemeKind.of] at file
  split at file
  · assumption
  · split at file <;> cases file

namespace Hosted

/-- What stands behind the authority. -/
def behind (u : Url) : List Char := u.path.toList ++ tailChars u.query u.fragment

theorem toList_text (h : Hosted u a host) :
    u.text.toList = u.scheme.toList ++ ':' :: '/' :: '/' :: (a.text.toList ++ behind u) := by
  have query : (u.query.elim "" ("?" ++ ·)).toList = u.query.elim [] ('?' :: ·.toList) := by
    cases u.query <;> simp
  have fragment :
      (u.fragment.elim "" ("#" ++ ·)).toList = u.fragment.elim [] ('#' :: ·.toList) := by
    cases u.fragment <;> simp
  rw [text, textToPath, h.authority]
  simp [query, fragment, behind, tailChars]

theorem visible (h : Hosted u a host) : ∀ c ∈ u.text.toList, 0x20 < c.toNat := by
  intro c mem
  rw [h.toList_text, List.mem_append, List.mem_cons, List.mem_cons, List.mem_cons, List.mem_append,
    behind, List.mem_append, tailChars, List.mem_append] at mem
  rcases mem with mem | rfl | rfl | rfl | mem | mem | mem | mem
  · exact visible_of_isSchemeChar (h.scheme.chars c mem).1
  · decide
  · decide
  · decide
  · exact (h.seated.text_chars c mem).1
  · have out := h.path.kept c mem
    exact Percent.visible_of_controls (Percent.controls_of_fragment (Percent.fragment_of_path out))
      (Percent.ne_of_path out).1
  · cases known : u.query with
    | none => simp [known] at mem
    | some q =>
      rw [known, Option.elim_some, List.mem_cons] at mem
      rcases mem with rfl | mem
      · decide
      · have out := query_of_querySet (h.tail.query q known c mem)
        exact Percent.visible_of_controls (Percent.controls_of_query out)
          (Percent.ne_of_query out).1
  · cases known : u.fragment with
    | none => simp [known] at mem
    | some f =>
      rw [known, Option.elim_some, List.mem_cons] at mem
      rcases mem with rfl | mem
      · decide
      · have out := h.tail.fragment f known c mem
        exact Percent.visible_of_controls (Percent.controls_of_fragment out)
          (Percent.ne_of_fragment out)

/-- The authority ends where the path, the query or the fragment begins. -/
theorem endsAuthority_behind (h : Hosted u a host) (kind : SchemeKind) :
    ∀ c ∈ (behind u).head?, endsAuthority kind c := by
  have marks : ∀ c ∈ ['/', '?', '#'], endsAuthority kind c := by simp [endsAuthority]
  refine fun c mem ↦ marks c ?_
  rcases h.path.eq_nil_or_head? with ⟨empty, -⟩ | slash
  · rw [behind, empty, List.nil_append, tailChars] at mem
    revert mem
    cases u.query <;> cases u.fragment <;> simp +contextual [eq_comm]
  · rw [behind, List.head?_append, slash, Option.some_or, Option.mem_some_iff] at mem
    simp [← mem]

theorem text_ne_nil (h : Hosted u a host) : a.text.toList ≠ [] := by
  rw [Url.toList_text h.seated.seat]
  simp [h.seated.text.full]

theorem readBehindHost_eq (h : Hosted u a host)
    (driveless : u.kind = .file → Driveless u.path.toList.tail) :
    (UrlPath.readBehindHost u.kind u.path.toList).path = u.path.toList :=
  (UrlPath.readBehindHost_eq_self_iff h.path driveless).mpr (h.path.fitting driveless)

theorem readAuthority_eq (h : Hosted u a host) (no_file : hostKind u.kind = u.kind)
    (fits : (UrlPath.readBehindHost u.kind u.path.toList).path = u.path.toList) :
    readAuthority u.scheme u.kind (a.text.toList ++ behind u) = some u := by
  have seated := h.seated
  rw [no_file] at seated
  rw [seated.readAuthority_text (h.endsAuthority_behind u.kind), behind, splitTail_tailChars h.path]
  dsimp only
  rw [fits, readTail_tailChars h.tail, String.ofList_toList, ← h.authority]

theorem readFile_eq (h : Hosted u a host) (file : u.kind = .file)
    (driveless : Driveless u.path.toList.tail) :
    readFile ('/' :: '/' :: (a.text.toList ++ behind u)) = some u := by
  obtain ⟨bare, far⟩ := h.file file
  have text : a.text.toList = host.text.toList := by
    rw [Url.toList_text h.seated.seat, bare]
    simp [userChars, portChars]
  have inside : ∀ c ∈ host.text.toList, !endsAuthority .file c := by
    intro c mem
    rw [endsAuthority_eq_false .file (h.seated.text.chars c mem).no_mark]
    rfl
  have ends : ∀ c ∈ (behind u).head?, (!endsAuthority .file c) = false := by
    intro c mem
    rw [h.endsAuthority_behind .file c mem]
    rfl
  obtain ⟨front, rest⟩ := Text.takeWhile_run inside ends
  have path := h.path
  have tail := h.tail
  have again := h.seated.again
  rw [file] at path tail again
  have read : readFileHost host.text.toList = some (some host) := by
    obtain ⟨_, read, eq⟩ := Option.map_eq_some_iff.mp again
    cases eq
    rw [readFileHost, if_neg (by simpa using h.seated.text.full), read, Option.map_some, if_neg far]
  rw [text, readFile]
  simp only [List.span_eq_takeWhile_dropWhile, front, rest]
  rw [if_pos (by decide), if_neg h.seated.text.no_drive, behind, splitTail_tailChars path]
  dsimp only
  rw [read, path.read_file driveless, Option.map_some, ofFile, readTail_tailChars tail]
  dsimp only
  rw [if_neg Bool.false_ne_true, ← bare, ← h.authority, ← scheme_of_file file,
    String.ofList_toList]

/-- The text of a URL with a host is read as this URL. -/
theorem parse?_text (h : Hosted u a host)
    (driveless : u.kind = .file → Driveless u.path.toList.tail) : parse? u.text = some u := by
  have fits := h.readBehindHost_eq driveless
  rw [parse?, significant_of_visible h.visible, h.toList_text, splitScheme?_append h.scheme]
  simp only [Option.bind_eq_bind, Option.bind_some, String.ofList_toList]
  split
  · rename_i file
    exact h.readFile_eq file (driveless file)
  · rename_i special
    have kind : u.kind = .special := special
    -- an authority is not empty, so that no slash of the path is dropped
    have start : ('/' :: '/' :: (a.text.toList ++ behind u)).dropWhile isSlash =
        a.text.toList ++ behind u := by
      obtain ⟨c, text, eq⟩ := List.exists_cons_of_ne_nil h.text_ne_nil
      have no_end := (h.seated.text_chars c (eq ▸ List.mem_cons_self)).2
      have other : isSlash c = false := by
        simp only [List.mem_cons, List.not_mem_nil, or_false, not_or] at no_end
        simp [isSlash, no_end]
      rw [eq, List.cons_append, List.dropWhile_cons_of_pos rfl, List.dropWhile_cons_of_pos rfl,
        List.dropWhile_cons_of_neg (by simp [other])]
    rw [start, ← kind]
    exact h.readAuthority_eq (by rw [kind]; rfl) fits
  · rename_i other
    have kind : u.kind = .other := other
    rw [← kind]
    exact h.readAuthority_eq (by rw [kind]; rfl) fits

/-- Its own path, query and fragment are kept. -/
theorem withTailOf_self (h : Hosted u a host)
    (driveless : u.kind = .file → Driveless u.path.toList.tail) : u.withTailOf u = u := by
  have query := map_encode_eq_self_iff.mpr h.tail.query
  have fragment := map_encode_eq_self_iff.mpr h.tail.fragment
  rw [withTailOf, h.readBehindHost_eq driveless, String.ofList_toList, ← querySet, query, fragment]

end Hosted

/-! ## URLs that were read -/

theorem Anchored.withTailOf (h : Anchored u a host) (other : Url) :
    Hosted (u.withTailOf other) a host where
  scheme := h.scheme
  authority := h.authority
  seated := h.seated
  file := h.file
  path := by
    rw [Url.withTailOf, String.toList_ofList]
    exact UrlPath.rooted_of_readBehindHost u.kind _
  tail := by
    have tail := tail_of_encoded u.kind (other.query.map String.toList)
      (other.fragment.map String.toList)
    rw [Option.map_map, Option.map_map] at tail
    exact tail

theorem exists_anchored_of_readAuthority {scheme : String} (is_scheme : IsScheme scheme.toList)
    (kind_eq : SchemeKind.of scheme = kind) (no_file : hostKind kind = kind)
    (h : readAuthority scheme kind s = some u) (some_host : u.host = some host) :
    ∃ a, Anchored u a host := by
  obtain ⟨user, hostText, portText, a, pathText, tail, read, rfl⟩ := exists_of_readAuthority h
  subst kind_eq
  refine ⟨a, is_scheme, rfl, ?_, fun file ↦ ?_⟩
  · rw [kind, no_file]
    exact seated_of_authority? read some_host
  · have file : SchemeKind.of scheme = .file := file
    rw [file] at no_file
    cases no_file

theorem anchored_ofFile {found : Option Host} {p : UrlPath.Progress} {tail : List Char}
    (read : readFileHost s = some found) (some_host : (ofFile found p tail).host = some host) :
    Anchored (ofFile found p tail) ⟨"", none, some host, none⟩ host := by
  have kept : (if p.drive then none else found) = some host := some_host
  have on : p.drive = false := by
    by_contra drive
    rw [Bool.not_eq_false] at drive
    rw [if_pos drive] at kept
    cases kept
  rw [on, if_neg Bool.false_ne_true] at kept
  subst kept
  rw [readFileHost] at read
  split at read
  · cases read
  · obtain ⟨_, read, eq⟩ := Option.map_eq_some_iff.mp read
    split at eq
    · cases eq
    · rename_i far
      cases eq
      obtain ⟨again, text⟩ := readDomainHost_text read
      have seated : Seated "file" .special ⟨"", none, some host, none⟩ host := by
        refine ⟨rfl, ?_, text, by simp, nofun, nofun⟩
        rw [readHost, if_pos rfl, again]
        rfl
      have scheme : IsScheme "file".toList := by
        constructor <;> simp [isSchemeChar]
      refine ⟨scheme, ?_, seated, fun _ ↦ ⟨rfl, far⟩⟩
      rw [ofFile, on]
      rfl

theorem exists_anchored_of_readFile (h : readFile s = some u) (some_host : u.host = some host) :
    ∃ a, Anchored u a host := by
  have absent {p : UrlPath.Progress} {tail : List Char} :
      (ofFile none p tail).host ≠ some host := by
    have none : (ofFile none p tail).host = if p.drive then Option.none else Option.none := rfl
    rw [none, ite_self]
    nofun
  unfold readFile at h
  split at h
  · split at h
    · dsimp only at h
      split at h
      · cases h
        exact absurd some_host absent
      · obtain ⟨found, read, rfl⟩ := Option.map_eq_some_iff.mp h
        exact ⟨_, anchored_ofFile read some_host⟩
    · cases h
      exact absurd some_host absent
  · cases h
    exact absurd some_host absent

/-- A URL with a host has a scheme and an authority that are read again. -/
theorem exists_anchored_of_parse? {text : String} (h : parse? text = some u)
    (some_host : u.host = some host) : ∃ a, Anchored u a host := by
  simp only [parse?, Option.bind_eq_bind, Option.bind_eq_some_iff] at h
  obtain ⟨⟨scheme, rest⟩, split, h⟩ := h
  have is_scheme : IsScheme (String.ofList scheme).toList := by
    rw [String.toList_ofList]
    exact isScheme_of_splitScheme? split
  dsimp only at h
  split at h
  · exact exists_anchored_of_readFile h some_host
  · rename_i special
    exact exists_anchored_of_readAuthority is_scheme special rfl h some_host
  · rename_i other
    split at h
    · exact exists_anchored_of_readAuthority is_scheme other rfl h some_host
    · cases h
      cases some_host

end ScriptCache.Url
