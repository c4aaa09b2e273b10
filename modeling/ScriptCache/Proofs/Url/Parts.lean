import ScriptCache.Proofs.Url.Path
import ScriptCache.Url.Reader

/-!
# The parts of a URL that was read

Whatever text a URL is read from, its query and its fragment are encoded, and its path is one that
was read segment by segment, unless it is opaque.
-/

namespace ScriptCache.Url

open UrlPath (Rooted rooted_of_read rooted_of_readBehindHost read_slash)

variable {kind : SchemeKind} {s : List Char} {u : Url} {text : String}

@[simp] theorem toList_encodeText (set : Percent.EncodeSet) (s : List Char) :
    (encodeText set s).toList = Percent.encode set s :=
  String.toList_ofList

theorem encodeText_of_not_set {set : Percent.EncodeSet} {text : String}
    (out : ∀ c ∈ text.toList, set c = false) : encodeText set text.toList = text := by
  rw [encodeText, Percent.encode_of_not_set out, String.ofList_toList]

/-- A query or a fragment is kept exactly when it has nothing to encode. -/
theorem map_encode_eq_self_iff {set : Percent.EncodeSet} {text : Option String} :
    text.map (fun s ↦ encodeText set s.toList) = text ↔
      ∀ s, text = some s → ∀ c ∈ s.toList, set c = false := by
  cases text with
  | none => simp
  | some s =>
    rw [Option.map_some, Option.some.injEq, ← String.toList_inj, toList_encodeText,
      Percent.encode_eq_self_iff]
    simp

/-- The encoded characters of a query, under a scheme of this kind. -/
def querySet (kind : SchemeKind) : Percent.EncodeSet :=
  if kind.isSpecial then Percent.specialQuery else Percent.query

theorem spares_querySet (kind : SchemeKind) : Percent.Spares (querySet kind) := by
  rw [querySet]
  split
  · exact Percent.spares_specialQuery
  · exact Percent.spares_query

theorem query_of_querySet {kind : SchemeKind} {c : Char} (out : querySet kind c = false) :
    Percent.query c = false := by
  rw [querySet] at out
  split at out
  · exact Percent.query_of_specialQuery out
  · exact out

/-- The query and the fragment have nothing left to encode. -/
structure Tail (kind : SchemeKind) (query fragment : Option String) : Prop where
  query : ∀ q, query = some q → ∀ c ∈ q.toList, querySet kind c = false
  fragment : ∀ f, fragment = some f → ∀ c ∈ f.toList, Percent.fragment c = false

theorem tail_of_encoded (kind : SchemeKind) (query fragment : Option (List Char)) :
    Tail kind (query.map (encodeText (querySet kind)))
      (fragment.map (encodeText Percent.fragment)) := by
  constructor
  · intro q eq c mem
    obtain ⟨text, -, rfl⟩ := Option.map_eq_some_iff.mp eq
    rw [toList_encodeText] at mem
    exact Percent.not_set_of_mem_encode (spares_querySet kind) mem
  · intro f eq c mem
    obtain ⟨text, -, rfl⟩ := Option.map_eq_some_iff.mp eq
    rw [toList_encodeText] at mem
    exact Percent.not_set_of_mem_encode Percent.spares_fragment mem

theorem tail_readTail (kind : SchemeKind) (s : List Char) :
    Tail kind (readTail kind s).1 (readTail kind s).2 := by
  unfold readTail
  dsimp only
  split
  · exact tail_of_encoded kind none (some _)
  · rename_i rest
    by_cases empty : (rest.span (· ≠ '#')).2.isEmpty
    · rw [if_pos empty]
      exact tail_of_encoded kind (some _) none
    · rw [if_neg empty]
      exact tail_of_encoded kind (some _) (some _)
  · exact tail_of_encoded kind none none

/-- What reading leaves in the parts of a URL. -/
structure WellRead (u : Url) : Prop where
  path : u.isOpaque = false → Rooted u.kind u.path.toList
  tail : Tail u.kind u.query u.fragment

theorem exists_of_readAuthority {scheme : String} (h : readAuthority scheme kind s = some u) :
    ∃ user host port authority pathText tail,
      authority? scheme kind user host port = some authority ∧
      u = ⟨scheme, some authority, String.ofList (UrlPath.readBehindHost kind pathText).path,
        (readTail kind tail).1, (readTail kind tail).2⟩ := by
  simp only [readAuthority, Option.ite_none_left_eq_some, Option.map_eq_some_iff] at h
  obtain ⟨-, authority, read, rfl⟩ := h
  exact ⟨_, _, _, authority, _, _, read, rfl⟩

theorem WellRead.authority {scheme : String} {a : Authority} (pathText tail : List Char) :
    WellRead ⟨scheme, some a,
      String.ofList (UrlPath.readBehindHost (.of scheme) pathText).path,
      (readTail (.of scheme) tail).1, (readTail (.of scheme) tail).2⟩ where
  path _ := by
    rw [String.toList_ofList]
    exact rooted_of_readBehindHost _ pathText
  tail := tail_readTail _ tail

theorem readPlain_eq (scheme : String) (s : List Char) :
    ∃ path, readPlain scheme s = ⟨scheme, none, String.ofList path,
      (readTail .other (splitTail s).2).1, (readTail .other (splitTail s).2).2⟩ ∧
      ((∃ rest, path = (UrlPath.read .other ['/'] rest).path) ∨ path.head? ≠ some '/') := by
  rw [readPlain]
  dsimp only
  split
  · rename_i rest _
    exact ⟨_, rfl, .inl ⟨rest, rfl⟩⟩
  · rename_i plain
    refine ⟨_, rfl, .inr ?_⟩
    intro slash
    have first := Percent.head?_of_encode slash (by simp [Percent.signs_eq])
    obtain ⟨rest, eq⟩ := List.head?_eq_some_iff.mp first
    exact plain rest eq

theorem wellRead_readPlain {scheme : String} (other : SchemeKind.of scheme = .other)
    (s : List Char) : (readPlain scheme s).WellRead := by
  obtain ⟨path, eq, read⟩ := readPlain_eq scheme s
  rw [eq]
  constructor
  · intro hierarchical
    dsimp only
    rw [String.toList_ofList, kind, other]
    rcases read with ⟨rest, rfl⟩ | plain
    · exact rooted_of_read .other rest
    · refine absurd ?_ plain
      have begins : (String.ofList path).startsWith "/" := by
        simpa [isOpaque] using hierarchical
      rwa [Text.startsWith_slash_iff, String.toList_ofList] at begins
  · rw [kind, other]
    exact tail_readTail .other _

theorem rooted_of_read_file {start pathText : List Char}
    (begins : start = ['/'] ∨ start = [] ∧ ∀ c ∈ pathText.head?, isSlash c) :
    Rooted .file (UrlPath.read .file start pathText).path := by
  rcases begins with rfl | ⟨rfl, slash⟩
  · exact rooted_of_read .file pathText
  · cases pathText with
    | nil => exact rooted_of_read .file []
    | cons c pathText =>
      rw [read_slash (by simpa [isSlash, SchemeKind.isSpecial] using slash c rfl)]
      exact rooted_of_read .file pathText

theorem wellRead_ofFile (host : Option Host) {p : UrlPath.Progress} (tail : List Char)
    (rooted : Rooted .file p.path) : (ofFile host p tail).WellRead where
  path _ := by
    rw [ofFile, String.toList_ofList]
    exact rooted
  tail := tail_readTail .file tail

theorem splitTail_eq (s : List Char) :
    splitTail s =
      (s.takeWhile fun c ↦ c ≠ '?' && c ≠ '#', s.dropWhile fun c ↦ c ≠ '?' && c ≠ '#') :=
  List.span_eq_takeWhile_dropWhile ..

theorem head?_splitTail {c : Char} (first : (splitTail s).1.head? = some c) :
    s.head? = some c ∧ c ≠ '?' ∧ c ≠ '#' := by
  rw [splitTail_eq, List.head?_takeWhile, Option.filter_eq_some_iff] at first
  simpa using first

theorem wellRead_readFilePath (s : List Char) : (readFilePath s).WellRead := by
  refine wellRead_ofFile none _ (rooted_of_read_file ?_)
  by_cases slash : s.head?.any isSlash
  · refine .inr ⟨if_pos slash, fun c first ↦ ?_⟩
    simpa [(head?_splitTail first).1] using slash
  · exact .inl (if_neg slash)

theorem wellRead_of_readFile (h : readFile s = some u) : u.WellRead := by
  unfold readFile at h
  split at h
  · rename_i a b rest
    split at h
    · dsimp only at h
      split at h
      · cases h
        exact wellRead_ofFile none _ (rooted_of_read_file (.inl rfl))
      · obtain ⟨host, -, rfl⟩ := Option.map_eq_some_iff.mp h
        refine wellRead_ofFile host _ (rooted_of_read_file (.inr ⟨rfl, fun c first ↦ ?_⟩))
        obtain ⟨first, query, fragment⟩ := head?_splitTail first
        rw [List.span_eq_takeWhile_dropWhile] at first
        have ends := List.head?_dropWhile_not (fun c ↦ !endsAuthority .file c) rest
        rw [first] at ends
        simpa [endsAuthority, query, fragment, isSlash, SchemeKind.isSpecial,
          or_iff_not_imp_left] using ends
    · cases h
      exact wellRead_readFilePath _
  · cases h
    exact wellRead_readFilePath _

theorem wellRead_of_parse? (h : parse? text = some u) : u.WellRead := by
  simp only [parse?, Option.bind_eq_bind, Option.bind_eq_some_iff] at h
  obtain ⟨⟨scheme, rest⟩, split, h⟩ := h
  dsimp only at h
  split at h
  · exact wellRead_of_readFile h
  · rename_i special
    obtain ⟨user, host, port, authority, pathText, tail, -, rfl⟩ := exists_of_readAuthority h
    rw [← special]
    exact .authority pathText tail
  · rename_i other
    split at h
    · obtain ⟨user, host, port, authority, pathText, tail, -, rfl⟩ := exists_of_readAuthority h
      rw [← other]
      exact .authority pathText tail
    · cases h
      exact wellRead_readPlain other rest

end ScriptCache.Url
