import ScriptCache.Control
import ScriptCache.Proofs.Resolver
import ScriptCache.Proofs.Url.Continued

/-!
# The own registry, as a watch and the command line find it

Without a peer, a fleet watch polls the registry below the own URL: it writes the path of the
registry behind the text of the URL and resolves the whole. The command line resolves the own URL
and puts the path of the registry in place of its path. They agree on a URL that ends with its host
or port.
-/

namespace ScriptCache

open UrlPath (NoDots Verbatim close)

variable {u v : Url} {base more : String}

namespace Url

theorem kind_ne_file (no_file : u.scheme ≠ "file") : u.kind ≠ .file :=
  fun file ↦ no_file (scheme_of_file file)

theorem withPath?_eq_none (h : u.isOpaque) (path : String) : u.withPath? path = none := if_pos h

theorem withPath?_eq (hierarchical : u.isOpaque = false) (no_file : u.scheme ≠ "file")
    (path : String) :
    u.withPath? path = some { u with path := path, query := none, fragment := none } := by
  have off := kind_ne_file no_file
  simp [withPath?, hierarchical, off]

/-- What is behind a URL is lost with its path. -/
theorem withPath?_below (same : (u.below more).isOpaque = u.isOpaque) (no_file : u.scheme ≠ "file")
    (path : String) : (u.below more).withPath? path = u.withPath? path := by
  by_cases hierarchical : u.isOpaque
  · rw [withPath?_eq_none hierarchical, withPath?_eq_none (same.trans hierarchical)]
  · rw [Bool.not_eq_true] at hierarchical
    rw [withPath?_eq hierarchical no_file,
      withPath?_eq (same.trans hierarchical) (by simpa using no_file), scheme_below,
      authority_below]

/-- More behind a URL is all of its path where there was none before. -/
theorem below_eq_iff (u : Url) (more : String) :
    u.below more = { u with path := "/" ++ more, query := none, fragment := none } ↔
      (u.path = "" ∨ u.path = "/") ∧ u.query = none ∧ u.fragment = none := by
  obtain ⟨scheme, authority, path, query, fragment⟩ := u
  cases fragment with
  | some f => simp [below]
  | none =>
    cases query with
    | some q => simp [below]
    | none =>
      have root : close path.toList = ['/'] ↔ path = "" ∨ path = "/" := by
        rw [UrlPath.close_eq_slash_iff, ← String.toList_inj, ← String.toList_inj]
        rfl
      have text : String.ofList (close path.toList) ++ more = "/" ++ more ↔
          close path.toList = ['/'] := by
        rw [← String.toList_inj, String.toList_append, String.toList_append, String.toList_ofList]
        exact List.append_left_inj more.toList
      simp only [below, mk.injEq, true_and, and_true]
      rw [← root, text]

end Url

namespace Resolver

variable {r : Resolver} {useCanonicalHost : Bool}

/-- A candidate with more behind it is resolved to the same URL with more behind it, unless files
have to do with it. -/
theorem resolve_below (verbatim : Verbatim more.toList) (ends : Url.OpenEnded base.toList)
    (parsed : Url.parse? base = some u) (no_file : u.scheme ≠ "file") (r : Resolver)
    (useCanonicalHost : Bool) :
    ∃ v, r.resolve base useCanonicalHost = some v ∧ v.isOpaque = u.isOpaque ∧
      (u.isOpaque → v = u) ∧ (v.below more).isOpaque = v.isOpaque ∧
      (v.scheme ≠ "file" →
        r.resolve (base ++ "/" ++ more) useCanonicalHost = some (v.below more)) := by
  have continues := Url.parse?_continues verbatim ends
  obtain ⟨parsed', same⟩ := continues.below u parsed no_file
  rw [resolve_eq, resolve_eq, parsed, parsed', Option.map_some, Option.map_some, same]
  cases moves : !useCanonicalHost || u.isOpaque with
  | true => exact ⟨u, rfl, rfl, fun _ ↦ rfl, same, fun _ ↦ rfl⟩
  | false =>
    cases canonical : r.canonicalUrl? with
    | none => exact ⟨u, rfl, rfl, fun _ ↦ rfl, same, fun _ ↦ rfl⟩
    | some k =>
      have hierarchical : u.isOpaque = false := (Bool.or_eq_false_iff.mp moves).2
      have host := isSome_host_of_canonicalUrl? canonical
      have moved := Url.isOpaque_withTailOf host
      have last := continues.path u parsed no_file hierarchical
      refine ⟨k.withTailOf u, rfl, ?_, ?_, ?_, ?_⟩
      · rw [moved, hierarchical]
      · simp [hierarchical]
      · rw [moved]
        apply Url.isOpaque_of_host
        rwa [Url.host, Url.authority_below]
      · intro no_file'
        have kind : k.kind ≠ .file := Url.kind_ne_file no_file'
        exact congrArg some (Url.withTailOf_below verbatim kind last)

theorem resolve_eq_none (h : Url.parse? base = none) : r.resolve base useCanonicalHost = none := by
  rw [resolve_eq, h]
  rfl

end Resolver

/-- The own URL without the slashes at its end. -/
def ServerSettings.ownBase (s : ServerSettings) : String :=
  String.ofList (s.ownUrl.toList.reverse.dropWhile (· = '/')).reverse

theorem ServerSettings.ownUrl_cases (s : ServerSettings) :
    s.ownUrl = s.ownBase ∨ ∃ n, s.ownUrl = s.ownBase ++ "/" ++ String.ofList (.replicate n '/') := by
  obtain ⟨n, slashes⟩ : ∃ n, s.ownUrl.toList.reverse.takeWhile (· = '/') = .replicate n '/' :=
    ⟨_, List.eq_replicate_iff.mpr ⟨rfl, fun c mem ↦ by simpa using List.mem_takeWhile_imp mem⟩⟩
  have joined := List.takeWhile_append_dropWhile (p := (· = '/')) (l := s.ownUrl.toList.reverse)
  rw [slashes] at joined
  have text : s.ownUrl.toList = s.ownBase.toList ++ .replicate n '/' := by
    rw [← List.reverse_reverse s.ownUrl.toList, ← joined, List.reverse_append,
      List.reverse_replicate, ownBase, String.toList_ofList]
  cases n with
  | zero =>
    left
    rw [← String.toList_inj, text]
    exact List.append_nil _
  | succ n =>
    right
    use n
    rw [← String.toList_inj, text]
    simp [List.replicate_succ]

theorem verbatim_registry : Verbatim "v1/registry".toList := by
  have text : "v1/registry".toList = ['v', '1', '/', 'r', 'e', 'g', 'i', 's', 't', 'r', 'y'] := rfl
  rw [text]
  refine ⟨fun c mem ↦ ?_, fun c mem ↦ ?_, by unfold NoDots; decide⟩
  · fin_cases mem <;> decide
  · fin_cases mem <;> decide

theorem verbatim_replicate (n : Nat) : Verbatim (.replicate n '/') where
  kept c mem := by
    rw [List.eq_of_mem_replicate mem]
    decide
  plain c mem := by
    rw [List.eq_of_mem_replicate mem]
    decide
  noDots part mem := by
    have none : part = [] := by
      apply List.eq_nil_iff_forall_not_mem.mpr
      intro c inside
      obtain ⟨slash, other⟩ := Text.of_mem_splitOn mem inside
      exact other (List.eq_of_mem_replicate slash)
    rw [none]
    exact UrlPath.noDots_nil

theorem verbatim_slashes (n : Nat) : Verbatim (String.ofList (.replicate n '/')).toList := by
  rw [String.toList_ofList]
  exact verbatim_replicate n

namespace FleetWatch

variable {s : Settings}

theorem targetOf_own (peerless : s.fleet.peerUrl = none) :
    targetOf s = s.server.ownBase ++ "/" ++ "v1/registry" := by
  rw [targetOf, peerless, String.append_assoc]
  rfl

/-- Without a peer, the watch asks below the own URL. -/
theorem address?_own (peerless : s.fleet.peerUrl = none) :
    (ofSettings s).address? = Resolver.resolve ⟨s.server.canonicalUrl⟩
      (s.server.ownBase ++ "/" ++ "v1/registry") s.fleet.useCanonicalHost := by
  rw [← targetOf_own peerless]
  rfl

end FleetWatch

namespace Control

variable {s : Settings} {a : Arguments}

theorem daemonUrl_eq_none (default : a.daemon = none)
    (missing : Resolver.resolve ⟨s.server.canonicalUrl⟩ s.server.ownUrl a.canonical = none)
    (path : String) : (daemonUrl a s path).toOption = none := by
  rw [daemonUrl, default, Option.getD_none, missing]
  rfl

theorem daemonUrl_eq (default : a.daemon = none)
    (found : Resolver.resolve ⟨s.server.canonicalUrl⟩ s.server.ownUrl a.canonical = some v)
    (path : String) : (daemonUrl a s path).toOption = v.withPath? path := by
  rw [daemonUrl, default, Option.getD_none, found]
  dsimp only
  cases v.withPath? path <;> rfl

section Own

variable (default : a.daemon = none) (ends : Url.OpenEnded s.server.ownBase.toList)
include default ends

theorem daemonUrl_own_eq_none (missing : Url.parse? s.server.ownBase = none) (path : String) :
    (daemonUrl a s path).toOption = none := by
  apply daemonUrl_eq_none default
  apply Resolver.resolve_eq_none
  rcases s.server.ownUrl_cases with bare | ⟨n, closed⟩
  · rw [bare]
    exact missing
  · rw [closed]
    exact (Url.parse?_continues (verbatim_slashes n) ends).none missing

/-- Slashes at the end of the own URL do not count. -/
theorem daemonUrl_own (parsed : Url.parse? s.server.ownBase = some u) (no_file : u.scheme ≠ "file")
    (resolved : Resolver.resolve ⟨s.server.canonicalUrl⟩ s.server.ownBase a.canonical = some v)
    (moved_no_file : v.scheme ≠ "file") (path : String) :
    (daemonUrl a s path).toOption = v.withPath? path := by
  rcases s.server.ownUrl_cases with bare | ⟨n, closed⟩
  · apply daemonUrl_eq default
    rw [bare]
    exact resolved
  · obtain ⟨v', resolved', -, -, kept, behind⟩ :=
      Resolver.resolve_below (verbatim_slashes n) ends parsed no_file ⟨s.server.canonicalUrl⟩
        a.canonical
    obtain rfl : v' = v := Option.some.inj (resolved'.symm.trans resolved)
    rw [← closed] at behind
    rw [daemonUrl_eq default (behind moved_no_file) path, Url.withPath?_below kept moved_no_file]

end Own

end Control

open Control FleetWatch

namespace OwnAddressSample

/-- A daemon with a slash behind its own URL, served under another host. -/
def settings : Settings where
  server := { selfUrl := "http://localhost:8089/", canonicalUrl := "https://c.test:8443" }

def arguments : Control.Arguments := { canonical := true, command := .registry }

/-- The own URL under the canonical host. -/
def url : Url := ⟨"https", some ⟨"", none, some (.domain "c.test"), some 8443⟩, "/", none, none⟩

end OwnAddressSample

end ScriptCache
