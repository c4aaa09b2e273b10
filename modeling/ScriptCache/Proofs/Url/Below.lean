import ScriptCache.Proofs.Text.Digits
import ScriptCache.Proofs.Url.Lengthened
import ScriptCache.Proofs.Url.Parts

/-!
# URLs with more behind them

A text that is read as a URL can be lengthened by a slash and more segments. What is read then is
the same URL with a longer fragment, query or path: the last of these that it has is lengthened.
-/

namespace ScriptCache.Url

open UrlPath (Verbatim close isSeparator)

variable {kind : SchemeKind} {s z front : List Char} {more scheme : String} {u : Url}

/-- The URL with more behind its last part. -/
def below (u : Url) (more : String) : Url :=
  match u.fragment, u.query with
  | some f, _ => { u with fragment := some (f ++ "/" ++ more) }
  | none, some q => { u with query := some (q ++ "/" ++ more) }
  | none, none => { u with path := String.ofList (close u.path.toList) ++ more }

@[simp] theorem scheme_below (u : Url) (more : String) : (u.below more).scheme = u.scheme := by
  rw [below]
  split <;> rfl

@[simp] theorem authority_below (u : Url) (more : String) :
    (u.below more).authority = u.authority := by
  rw [below]
  split <;> rfl

/-- The last character means the same when more stands behind it. -/
def OpenEnded (s : List Char) : Prop :=
  ∀ c ∈ s.getLast?, isEdge c = false ∧ c ∉ ['/', '\\', ':', '@']

theorem OpenEnded.suffix (h : OpenEnded s) (suffix : z <:+ s) : OpenEnded z := by
  intro c last
  obtain ⟨front, rfl⟩ := suffix
  have full := List.ne_nil_of_mem (List.mem_of_getLast? last)
  apply h
  rwa [List.getLast?_append_of_ne_nil _ full]

theorem OpenEnded.getLast?_ne (h : OpenEnded s) {c : Char} (mem : c ∈ ['/', '\\', ':', '@']) :
    s.getLast? ≠ some c := fun last ↦ (h c last).2 mem

theorem OpenEnded.close (h : OpenEnded s) : close s = s ++ ['/'] := by
  apply UrlPath.close_of_not_slash
  simpa [UrlPath.endsWithSlash] using h.getLast?_ne (by simp)

/-! ## Characters in front of the slash -/

theorem takeWhile_append_slash {p : Char → Bool} (stops : p '/' = false) (s more : List Char) :
    (s ++ '/' :: more).takeWhile p = s.takeWhile p ∧
      (s ++ '/' :: more).dropWhile p = s.dropWhile p ++ '/' :: more := by
  induction s with
  | nil =>
    have off : ¬p '/' = true := by simp [stops]
    exact ⟨List.takeWhile_cons_of_neg off, List.dropWhile_cons_of_neg off⟩
  | cons c s ih =>
    by_cases passes : p c
    · rw [List.cons_append, List.takeWhile_cons_of_pos passes, List.takeWhile_cons_of_pos passes,
        List.dropWhile_cons_of_pos passes, List.dropWhile_cons_of_pos passes]
      exact ⟨congrArg (c :: ·) ih.1, ih.2⟩
    · rw [List.cons_append, List.takeWhile_cons_of_neg passes, List.takeWhile_cons_of_neg passes,
        List.dropWhile_cons_of_neg passes, List.dropWhile_cons_of_neg passes]
      exact ⟨rfl, rfl⟩

theorem span_append {p : Char → Bool} {more : List Char} (passes : ∀ c ∈ more, p c = true)
    (s : List Char) :
    (s ++ more).span p =
      if (s.span p).2 = [] then (s ++ more, []) else ((s.span p).1, (s.span p).2 ++ more) := by
  rw [List.span_eq_takeWhile_dropWhile, List.span_eq_takeWhile_dropWhile]
  by_cases none : s.dropWhile p = []
  · have all : ∀ c ∈ s ++ more, p c = true := by
      intro c mem
      rcases List.mem_append.mp mem with mem | mem
      · exact List.dropWhile_eq_nil_iff.mp none c mem
      · exact passes c mem
    obtain ⟨whole, nothing⟩ := Text.takeWhile_whole all
    rw [if_pos none, whole, nothing]
  · have shorter : (s.takeWhile p).length ≠ s.length := by
      intro same
      have whole := congrArg List.length (List.takeWhile_append_dropWhile (p := p) (l := s))
      rw [List.length_append, same] at whole
      exact none (List.eq_nil_of_length_eq_zero (by omega))
    rw [if_neg none, List.takeWhile_append, List.dropWhile_append, if_neg shorter,
      if_neg (by simpa using none)]

theorem span_of_nil {p : Char → Bool} (none : (s.span p).2 = []) : (s.span p).1 = s := by
  rw [List.span_eq_takeWhile_dropWhile] at none ⊢
  have joined := List.takeWhile_append_dropWhile (p := p) (l := s)
  dsimp only at none
  rwa [none, List.append_nil] at joined

theorem splitTail_cases (s : List Char) :
    splitTail s = (s, []) ∨ ∃ c rest, (splitTail s).2 = c :: rest ∧ (c = '?' ∨ c = '#') := by
  cases tail : (splitTail s).2 with
  | nil => exact .inl (Prod.ext (span_of_nil tail) tail)
  | cons c rest =>
    refine .inr ⟨c, rest, rfl, ?_⟩
    have stops := List.head?_dropWhile_not (fun c ↦ c ≠ '?' && c ≠ '#') s
    have behind : s.dropWhile (fun c ↦ c ≠ '?' && c ≠ '#') = c :: rest := by
      rwa [splitTail_eq] at tail
    rw [behind] at stops
    simpa [or_iff_not_imp_left] using stops

/-- What counts in a text, where the last character does. -/
theorem significant_of_last (last : ∀ c ∈ s.getLast?, isEdge c = false) :
    significant s = (s.dropWhile isEdge).filter fun c ↦ c ≠ '\t' && c ≠ '\n' && c ≠ '\r' := by
  have trimmed : ((s.dropWhile isEdge).reverse.dropWhile isEdge).reverse = s.dropWhile isEdge := by
    rcases List.eq_nil_or_concat' (s.dropWhile isEdge) with none | ⟨init, c, eq⟩
    · rw [none]
      rfl
    · obtain ⟨edges, whole⟩ := List.dropWhile_suffix isEdge (l := s)
      have visible : isEdge c = false := by
        apply last
        rw [← whole, eq, ← List.append_assoc, List.getLast?_concat]
        rfl
      rw [eq, List.reverse_append, List.reverse_singleton, List.singleton_append,
        List.dropWhile_cons_of_neg (by simp [visible])]
      simp
  rw [significant, trimmed]

theorem counts_of_visible {c : Char} (visible : isEdge c = false) :
    (c ≠ '\t' && c ≠ '\n' && c ≠ '\r') = true := by
  have other (d : Char) (edge : isEdge d) : c ≠ d := by
    rintro rfl
    rw [visible] at edge
    cases edge
  simp [other '\t' (by decide), other '\n' (by decide), other '\r' (by decide)]

theorem OpenEnded.significant (h : OpenEnded s) : OpenEnded (significant s) := by
  rw [significant_of_last fun c last ↦ (h c last).1]
  have inner := h.suffix (List.dropWhile_suffix isEdge)
  rcases List.eq_nil_or_concat' (s.dropWhile isEdge) with none | ⟨init, c, eq⟩
  · rw [none]
    simp [OpenEnded]
  · rw [eq] at inner ⊢
    have ends := inner c List.getLast?_concat
    have kept : [c].filter (fun c ↦ c ≠ '\t' && c ≠ '\n' && c ≠ '\r') = [c] := by
      apply List.filter_eq_self.mpr
      intro d mem
      rw [List.mem_singleton.mp mem]
      exact counts_of_visible ends.1
    intro d last
    rw [List.filter_append, kept, List.getLast?_concat] at last
    cases last
    exact ends

/-- What stands behind the scheme, and that it is not nothing. -/
theorem OpenEnded.splitScheme? (h : OpenEnded s) {name rest : List Char}
    (split : splitScheme? s = some (name, rest)) : rest ≠ [] ∧ OpenEnded rest := by
  have behind : ':' :: rest <:+ s := by
    rw [Url.splitScheme?] at split
    split at split
    · rename_i colon
      split at split
      · cases split
        rw [← colon]
        exact List.dropWhile_suffix _
      · cases split
    · cases split
  refine ⟨?_, h.suffix ((List.suffix_cons ..).trans behind)⟩
  rintro rfl
  exact (h.suffix behind).getLast?_ne (by simp) rfl

section Verbatim

variable (verbatim : Verbatim more.toList)
include verbatim

theorem visible_of_verbatim {c : Char} (mem : c ∈ '/' :: more.toList) :
    isEdge c = false ∧ c ≠ '?' ∧ c ≠ '#' := by
  rcases List.mem_cons.mp mem with rfl | mem
  · decide
  · have kept := verbatim.kept c mem
    obtain ⟨no_blank, no_fragment, no_query⟩ := Percent.ne_of_path kept
    have visible := Percent.visible_of_controls
      (Percent.controls_of_fragment (Percent.fragment_of_path kept)) no_blank
    exact ⟨by simp [isEdge, visible], no_query, no_fragment⟩

theorem significant_append (ends : OpenEnded s) :
    significant (s ++ '/' :: more.toList) = significant s ++ '/' :: more.toList := by
  have front : (s ++ '/' :: more.toList).dropWhile isEdge =
      s.dropWhile isEdge ++ '/' :: more.toList :=
    (takeWhile_append_slash (by decide) s more.toList).2
  have behind : ∀ c ∈ (s ++ '/' :: more.toList).getLast?, isEdge c = false := by
    intro c last
    rw [List.getLast?_append_of_ne_nil _ (by simp)] at last
    exact (visible_of_verbatim verbatim (List.mem_of_getLast? last)).1
  rw [significant_of_last behind, front, significant_of_last fun c last ↦ (ends c last).1,
    List.filter_append]
  congr 1
  apply List.filter_eq_self.mpr
  intro c mem
  exact counts_of_visible (visible_of_verbatim verbatim mem).1

omit verbatim in
theorem splitScheme?_append_slash (s more : List Char) :
    splitScheme? (s ++ '/' :: more) =
      (splitScheme? s).map fun (name, rest) ↦ (name, rest ++ '/' :: more) := by
  obtain ⟨front, behind⟩ := takeWhile_append_slash (p := isSchemeChar) (by decide) s more
  rw [splitScheme?, splitScheme?, front, behind]
  cases s.dropWhile isSchemeChar with
  | nil => rfl
  | cons c rest =>
    by_cases colon : c = ':'
    · by_cases first : (s.takeWhile isSchemeChar).head?.any Char.isAlpha <;> simp [colon, first]
    · simp [colon]

/-! ## Query and fragment -/

theorem splitTail_append (s : List Char) :
    splitTail (s ++ '/' :: more.toList) =
      if (splitTail s).2 = [] then (s ++ '/' :: more.toList, [])
      else ((splitTail s).1, (splitTail s).2 ++ '/' :: more.toList) := by
  apply span_append
  intro c mem
  obtain ⟨-, no_query, no_fragment⟩ := visible_of_verbatim verbatim mem
  simp [no_query, no_fragment]

theorem off_of_verbatim (kind : SchemeKind) {c : Char} (mem : c ∈ '/' :: more.toList) :
    Percent.fragment c = false ∧ querySet kind c = false ∧ Percent.controls c = false := by
  have kept : Percent.path c = false ∧ c.toNat ≠ 0x27 := by
    rcases List.mem_cons.mp mem with rfl | mem
    · decide
    · exact ⟨verbatim.kept c mem, (verbatim.plain c mem).2⟩
  have fragment := Percent.fragment_of_path kept.1
  have query := Percent.query_of_path kept.1
  refine ⟨fragment, ?_, Percent.controls_of_fragment fragment⟩
  rw [querySet]
  split
  · exact Percent.specialQuery_eq_false_iff.mpr ⟨query, kept.2⟩
  · exact query

omit verbatim in
theorem encodeText_append {set : Percent.EncodeSet} (off : ∀ c ∈ '/' :: more.toList, set c = false)
    (text : List Char) :
    encodeText set (text ++ '/' :: more.toList) = encodeText set text ++ "/" ++ more := by
  have split : Percent.encode set (text ++ '/' :: more.toList) =
      Percent.encode set text ++ Percent.encode set ('/' :: more.toList) := List.flatMap_append
  rw [← String.toList_inj, toList_encodeText, split, Percent.encode_of_not_set off]
  simp

/-- A query or a fragment is lengthened, whichever stands last. -/
theorem readTail_append {c : Char} (mark : c = '?' ∨ c = '#') (rest : List Char)
    (authority : Option Authority) (path : String) :
    (⟨scheme, authority, path, (readTail kind (c :: rest ++ '/' :: more.toList)).1,
        (readTail kind (c :: rest ++ '/' :: more.toList)).2⟩ : Url) =
      below ⟨scheme, authority, path, (readTail kind (c :: rest)).1, (readTail kind (c :: rest)).2⟩
        more := by
  have fragment (text : List Char) :=
    encodeText_append (fun c mem ↦ (off_of_verbatim verbatim kind mem).1) text
  have query (text : List Char) :=
    encodeText_append (fun c mem ↦ (off_of_verbatim verbatim kind mem).2.1) text
  rcases mark with rfl | rfl
  · have read (rest : List Char) : readTail kind ('?' :: rest) =
        (some (encodeText (querySet kind) (rest.span (· ≠ '#')).1),
          if (rest.span (· ≠ '#')).2.isEmpty then none
          else some (encodeText Percent.fragment (rest.span (· ≠ '#')).2.tail)) := rfl
    have split := span_append (p := fun c ↦ c ≠ '#')
      (fun c mem ↦ by simpa using (visible_of_verbatim verbatim mem).2.2) rest
    rw [List.cons_append, read, read, split]
    cases hash : (rest.span (· ≠ '#')).2 with
    | nil =>
      rw [span_of_nil hash, if_pos rfl, query]
      rfl
    | cons d rest =>
      rw [if_neg (by simp), List.cons_append, List.tail_cons, fragment]
      rfl
  · rw [List.cons_append, readTail, readTail, fragment]
    rfl

/-- The part that ends a text is lengthened. -/
theorem lengthened_eq (read : List Char → List Char) {authority : Option Authority}
    (path : read (s ++ '/' :: more.toList) = close (read s) ++ more.toList) :
    (⟨scheme, authority, String.ofList (read (splitTail (s ++ '/' :: more.toList)).1),
        (readTail kind (splitTail (s ++ '/' :: more.toList)).2).1,
        (readTail kind (splitTail (s ++ '/' :: more.toList)).2).2⟩ : Url) =
      below ⟨scheme, authority, String.ofList (read (splitTail s).1),
        (readTail kind (splitTail s).2).1, (readTail kind (splitTail s).2).2⟩ more := by
  rw [splitTail_append verbatim]
  rcases splitTail_cases s with whole | ⟨c, rest, tail, mark⟩
  · have text : String.ofList (close (read s) ++ more.toList) =
        String.ofList (close (String.ofList (read s)).toList) ++ more := by
      rw [← String.toList_inj]
      simp
    rw [whole, if_pos rfl, path, text]
    rfl
  · rw [tail, if_neg (by simp)]
    exact readTail_append verbatim mark rest authority _

/-- What is moved behind another host is moved with more behind it. -/
theorem withTailOf_below {k : Url} (no_file : k.kind ≠ .file)
    (ends : u.query = none → u.fragment = none → u.path.toList.getLast? ≠ some '\\') :
    k.withTailOf (u.below more) = (k.withTailOf u).below more := by
  have encoded {set : Percent.EncodeSet} (off : ∀ c ∈ '/' :: more.toList, set c = false)
      (t : String) : encodeText set (t ++ "/" ++ more).toList =
        encodeText set t.toList ++ "/" ++ more := by
    have text : (t ++ "/" ++ more).toList = t.toList ++ '/' :: more.toList := by simp
    rw [text, encodeText_append off]
  obtain ⟨scheme, authority, path, query, fragment⟩ := u
  cases fragment with
  | some f =>
    have text := encoded (fun c mem ↦ (off_of_verbatim verbatim k.kind mem).1) f
    simp only [below, withTailOf, Option.map_some, text]
  | none =>
    cases query with
    | some q =>
      have text := encoded (fun c mem ↦ (off_of_verbatim verbatim k.kind mem).2.1) q
      rw [querySet] at text
      simp only [below, withTailOf, Option.map_some, Option.map_none, text]
    | none =>
      have last : ∀ c ∈ path.toList.getLast?, isSeparator k.kind c → c = '/' := by
        rintro c last separator
        have other : c ≠ '\\' := by
          rintro rfl
          exact ends rfl rfl last
        simpa [isSeparator, other] using separator
      have closed := UrlPath.readBehindHost_close no_file verbatim last
      have text : (String.ofList (close path.toList) ++ more).toList =
          close path.toList ++ more.toList := by simp
      simp only [below, withTailOf, Option.map_none, text, closed, String.ofList_append,
        String.toList_ofList, String.ofList_toList]

end Verbatim

end ScriptCache.Url
