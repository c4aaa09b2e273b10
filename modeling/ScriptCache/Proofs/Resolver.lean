import ScriptCache.Proofs.Url.Text
import ScriptCache.Resolver

/-!
# Where addresses are moved to

An address that is moved to the canonical host keeps its fragment. Its query and its path are
written as the scheme of the canonical URL demands, and this is not always what they were.
-/

namespace ScriptCache

open UrlPath (Driveless Fitting NoDots Rooted)

variable {u k : Url} {r : Resolver} {candidate : String}

namespace Url

theorem fragment_withTailOf (read : u.WellRead) (k : Url) :
    (k.withTailOf u).fragment = u.fragment :=
  map_encode_eq_self_iff.mpr read.tail.fragment

/-- An apostrophe in a query is encoded under a special scheme only. -/
theorem query_withTailOf_iff (read : u.WellRead) (k : Url) :
    (k.withTailOf u).query = u.query ↔
      (k.kind.isSpecial → ∀ q, u.query = some q → ∀ c ∈ q.toList, c.toNat ≠ 0x27) := by
  have kept (q : String) (some_q : u.query = some q) (c : Char) (mem : c ∈ q.toList) :
      Percent.query c = false := query_of_querySet (read.tail.query q some_q c mem)
  refine map_encode_eq_self_iff.trans ?_
  by_cases special : k.kind.isSpecial
  · simp only [special, if_true, true_implies]
    refine forall_congr' fun q ↦ forall_congr' fun some_q ↦ forall_congr' fun c ↦
      forall_congr' fun mem ↦ ?_
    rw [Percent.specialQuery_eq_false_iff]
    exact and_iff_right (kept q some_q c mem)
  · simp only [special, Bool.false_eq_true, if_false, false_implies, iff_true]
    exact kept

theorem path_withTailOf_iff (read : u.WellRead) (hierarchical : u.isOpaque = false)
    (driveless : k.kind = .file → Driveless u.path.toList.tail) :
    (k.withTailOf u).path = u.path ↔ Fitting k.kind u.path.toList := by
  rw [← UrlPath.readBehindHost_eq_self_iff (read.path hierarchical) driveless, withTailOf,
    ← String.toList_inj, String.toList_ofList]

/-- Only behind the drive letter of a file can there be dots. -/
theorem WellRead.noDots (read : u.WellRead) (hierarchical : u.isOpaque = false)
    (no_file : u.scheme ≠ "file") : ∀ s ∈ u.path.toList.splitOn '/', NoDots s := by
  have kind : u.kind ≠ .file := by
    rw [kind, SchemeKind.of, if_neg no_file]
    split <;> simp
  exact ((read.path hierarchical).fitting fun file ↦ absurd file kind).noDots

theorem withTailOf_congr {other : Url} (k : Url) (path : other.path = u.path)
    (query : other.query = u.query) (fragment : other.fragment = u.fragment) :
    k.withTailOf other = k.withTailOf u := by
  rw [withTailOf, withTailOf, path, query, fragment]

theorem isOpaque_of_host (host : u.host.isSome) : u.isOpaque = false := by
  have some_authority : u.authority.isNone = false := by
    cases known : u.authority with
    | none => simp [Url.host, known] at host
    | some a => rfl
  rw [isOpaque, some_authority, Bool.false_and]

theorem isOpaque_withTailOf (host : k.host.isSome) (u : Url) :
    (k.withTailOf u).isOpaque = false := isOpaque_of_host host

end Url

namespace Resolver

theorem canonicalUrl?_eq_some {t : String} (configured : r.canonical = some t)
    (parsed : Url.parse? t = some k) (host : k.host.isSome) : r.canonicalUrl? = some k := by
  simp [canonicalUrl?, configured, parsed, host]

theorem isSome_host_of_canonicalUrl? (known : r.canonicalUrl? = some k) : k.host.isSome := by
  simp only [canonicalUrl?, Option.bind_eq_bind, Option.bind_eq_some_iff] at known
  obtain ⟨-, -, k', -, known⟩ := known
  split at known
  · cases known
    assumption
  · cases known

theorem canonicalUrl?_eq_none
    (h : ∀ t, r.canonical = some t → ∀ k, Url.parse? t = some k → k.host = none) :
    r.canonicalUrl? = none := by
  cases configured : r.canonical with
  | none => simp [canonicalUrl?, configured]
  | some t =>
    cases parsed : Url.parse? t with
    | none => simp [canonicalUrl?, configured, parsed]
    | some k => simp [canonicalUrl?, configured, parsed, h t configured k parsed]

theorem resolve_eq (r : Resolver) (candidate : String) (useCanonicalHost : Bool) :
    r.resolve candidate useCanonicalHost = (Url.parse? candidate).map fun u ↦
      if !useCanonicalHost || u.isOpaque then u
      else (r.canonicalUrl?.map (·.withTailOf u)).getD u := by
  rw [resolve]
  cases Url.parse? candidate with
  | none => rfl
  | some u =>
    simp only [Option.bind_eq_bind, Option.bind_some, Option.map_some]
    split
    · rfl
    · cases r.canonicalUrl? <;> rfl

theorem resolve_moved (parsed : Url.parse? candidate = some u) (hierarchical : u.isOpaque = false)
    (canonical : r.canonicalUrl? = some k) : r.resolve candidate true = some (k.withTailOf u) := by
  rw [resolve_eq, parsed, canonical]
  simp [hierarchical]

/-- What is kept of a candidate, for every text of it and of the canonical URL. -/
theorem resolve_keeps (r : Resolver) (candidate : String) (useCanonicalHost : Bool) :
    (r.resolve candidate useCanonicalHost = none ↔ Url.parse? candidate = none) ∧
    ∀ u, Url.parse? candidate = some u →
      ((useCanonicalHost = false ∨ u.isOpaque ∨
          ∀ t, r.canonical = some t → ∀ k, Url.parse? t = some k → k.host = none) →
        r.resolve candidate useCanonicalHost = some u) ∧
      (u.isOpaque = false → u.scheme ≠ "file" → ∀ s ∈ u.path.toList.splitOn '/', NoDots s) ∧
      ∀ t k, r.canonical = some t → Url.parse? t = some k → k.host.isSome →
        useCanonicalHost → u.isOpaque = false →
        ∃ v, r.resolve candidate useCanonicalHost = some v ∧ v.fragment = u.fragment ∧
          (v.query = u.query ↔
            (k.kind.isSpecial → ∀ q, u.query = some q → ∀ c ∈ q.toList, c.toNat ≠ 0x27)) ∧
          ((k.kind = .file → Driveless u.path.toList.tail) →
            (v.path = u.path ↔ Fitting k.kind u.path.toList)) := by
  constructor
  · rw [resolve_eq, Option.map_eq_none_iff]
  · intro u parsed
    have read := Url.wellRead_of_parse? parsed
    refine ⟨?_, read.noDots, ?_⟩
    · intro unmoved
      rw [resolve_eq, parsed, Option.map_some]
      rcases unmoved with off | opaque_path | unset
      · simp [off]
      · simp [opaque_path]
      · simp [canonicalUrl?_eq_none unset]
    · intro t k configured canonical host use hierarchical
      refine ⟨k.withTailOf u, ?_, Url.fragment_withTailOf read k, Url.query_withTailOf_iff read k,
        Url.path_withTailOf_iff read hierarchical⟩
      rw [use]
      exact resolve_moved parsed hierarchical (canonicalUrl?_eq_some configured canonical host)

theorem resolve_keeps_sample :
    ∃ v, (⟨some "http://c.test"⟩ : Resolver).resolve "foo://h//p?a'b#c'd" true = some v ∧
      v.fragment = some "c'd" ∧ v.query ≠ some "a'b" ∧ v.path = "//p" := by
  have candidate : Url.parse? "foo://h//p?a'b#c'd" = some
      ⟨"foo", some ⟨"", none, some (.domain "h"), none⟩, "//p", some "a'b", some "c'd"⟩ := by cbv
  have canonical : Url.parse? "http://c.test" = some
      ⟨"http", some ⟨"", none, some (.domain "c.test"), none⟩, "/", none, none⟩ := by cbv
  obtain ⟨v, moved, fragment, query, path⟩ :=
    ((resolve_keeps ⟨some "http://c.test"⟩ "foo://h//p?a'b#c'd" true).2 _ candidate).2.2 _ _ rfl
      canonical rfl rfl (by decide)
  refine ⟨v, moved, fragment, fun same ↦ ?_, (path (by decide)).mpr ?_⟩
  · have mem : Char.ofNat 0x27 ∈ "a'b".toList := by decide
    exact absurd rfl (query.mp same rfl _ rfl _ mem)
  · exact ⟨by unfold NoDots; decide, by decide, by decide, by decide⟩

/-- What is not kept: an apostrophe in a query, no path, a second slash in front of a file. -/
theorem moving_rewrites :
    (Url.parse? "foo://h/p?a'b" = some
        ⟨"foo", some ⟨"", none, some (.domain "h"), none⟩, "/p", some "a'b", none⟩ ∧
      (⟨some "http://c.test"⟩ : Resolver).resolve "foo://h/p?a'b" true = some
        ⟨"http", some ⟨"", none, some (.domain "c.test"), none⟩, "/p", some "a%27b", none⟩) ∧
    (Url.parse? "foo://h" = some
        ⟨"foo", some ⟨"", none, some (.domain "h"), none⟩, "", none, none⟩ ∧
      (⟨some "http://c.test"⟩ : Resolver).resolve "foo://h" true = some
        ⟨"http", some ⟨"", none, some (.domain "c.test"), none⟩, "/", none, none⟩) ∧
    (Url.parse? "http://h//p" = some
        ⟨"http", some ⟨"", none, some (.domain "h"), none⟩, "//p", none, none⟩ ∧
      (⟨some "file://c.test"⟩ : Resolver).resolve "http://h//p" true = some
        ⟨"file", some ⟨"", none, some (.domain "c.test"), none⟩, "/p", none, none⟩) := by
  refine ⟨⟨?_, ?_⟩, ⟨?_, ?_⟩, ?_, ?_⟩ <;> cbv

/-! ## Resolving again -/

/-- Resolving goes to the canonical authority, for every candidate, and stays there. -/
theorem resolve_projects {t : String} (canonical : Url.parse? t = some k) (host : k.host.isSome)
    (parsed : Url.parse? candidate = some u) (hierarchical : u.isOpaque = false) :
    (∀ (r : Resolver) (before : List (Option String)) (last : Option String) useCanonicalHost,
      ((before.foldl setCanonicalUrl r).setCanonicalUrl last).resolve candidate useCanonicalHost =
        (⟨last⟩ : Resolver).resolve candidate useCanonicalHost) ∧
    ∃ v, (⟨some t⟩ : Resolver).resolve candidate true = some v ∧
      v.scheme = k.scheme ∧ v.authority = k.authority ∧ v.host = k.host ∧ v.port? = k.port? ∧
      (∀ other u', Url.parse? other = some u' → u'.isOpaque = false → u'.path = u.path →
        u'.query = u.query → u'.fragment = u.fragment →
        (⟨some t⟩ : Resolver).resolve other true = some v) ∧
      ((k.scheme = "file" → Driveless v.path.toList.tail) →
        (⟨some t⟩ : Resolver).resolve v.text true = some v) := by
  have known : canonicalUrl? ⟨some t⟩ = some k := canonicalUrl?_eq_some rfl canonical host
  refine ⟨fun r before last useCanonicalHost ↦ rfl, k.withTailOf u,
    resolve_moved parsed hierarchical known, rfl, rfl, rfl, rfl, ?_, ?_⟩
  · intro other u' parsed' hierarchical' path query fragment
    rw [resolve_moved parsed' hierarchical' known, Url.withTailOf_congr k path query fragment]
  · intro driveless
    obtain ⟨h, some_host⟩ := Option.isSome_iff_exists.mp host
    obtain ⟨a, anchored⟩ := Url.exists_anchored_of_parse? canonical some_host
    have hosted := anchored.withTailOf u
    have plain (file : (k.withTailOf u).kind = .file) :
        Driveless (k.withTailOf u).path.toList.tail := driveless (Url.scheme_of_file file)
    have again := hosted.parse?_text plain
    rw [resolve_moved again (Url.isOpaque_withTailOf host u) known]
    exact congrArg some (hosted.withTailOf_self plain)

theorem resolve_projects_sample :
    ∃ v, (⟨some "https://c.test:8080"⟩ : Resolver).resolve "foo://me@h:9/p?a'b" true = some v ∧
      v.scheme = "https" ∧ v.port? = some 8080 ∧
      (⟨some "https://c.test:8080"⟩ : Resolver).resolve v.text true = some v := by
  have canonical : Url.parse? "https://c.test:8080" = some
      ⟨"https", some ⟨"", none, some (.domain "c.test"), some 8080⟩, "/", none, none⟩ := by cbv
  have parsed : Url.parse? "foo://me@h:9/p?a'b" = some
      ⟨"foo", some ⟨"me", none, some (.domain "h"), some 9⟩, "/p", some "a'b", none⟩ := by cbv
  obtain ⟨-, v, moved, scheme, -, -, port, -, again⟩ := resolve_projects canonical rfl parsed rfl
  exact ⟨v, moved, scheme, port, again fun file ↦ absurd file (by decide)⟩

/-- What is not the same when it is resolved again: a drive letter with a bar, in the path of a
file. -/
theorem drive_letter_drifts :
    Url.parse? "file://h/" = some
        ⟨"file", some ⟨"", none, some (.domain "h"), none⟩, "/", none, none⟩ ∧
      Url.parse? "http://x//C|/a" = some
        ⟨"http", some ⟨"", none, some (.domain "x"), none⟩, "//C|/a", none, none⟩ ∧
      (⟨some "file://h/"⟩ : Resolver).resolve "http://x//C|/a" true = some
        ⟨"file", some ⟨"", none, some (.domain "h"), none⟩, "/C|/a", none, none⟩ ∧
      Url.text ⟨"file", some ⟨"", none, some (.domain "h"), none⟩, "/C|/a", none, none⟩ =
        "file://h/C|/a" ∧
      (⟨some "file://h/"⟩ : Resolver).resolve "file://h/C|/a" true = some
        ⟨"file", some ⟨"", none, some (.domain "h"), none⟩, "/C:/a", none, none⟩ := by
  refine ⟨?_, ?_, ?_, ?_, ?_⟩ <;> cbv

end Resolver

end ScriptCache
