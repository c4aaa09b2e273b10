import ScriptCache.Proofs.Source.Accepted.Sources
import ScriptCache.Proofs.Source.NameTokens
import ScriptCache.Proofs.Text.Split
import ScriptCache.Proofs.Text.Utf8

/-!
# Names and their segments

The name of a type is made of identifiers with single backslashes between them: those of the
namespaces around the type, from the outside in, and then the type's own name. A name token has a
backslash only where an identifier follows, and decoding keeps this, however ill-formed the bytes
beyond ASCII are.
-/

namespace ScriptCache.Source

variable {name text : String} {c : Char} {chars : List Char}

/-- A character of an identifier. -/
def IsNameChar (c : Char) : Prop := c.isAlphanum ∨ c = '_' ∨ 0x80 ≤ c.toNat

/-- A character that an identifier can begin with. -/
def IsInitial (c : Char) : Prop := c.isAlpha ∨ c = '_' ∨ 0x80 ≤ c.toNat

def IsIdentifier (text : String) : Prop :=
  ∃ c chars, text.toList = c :: chars ∧ IsInitial c ∧ ∀ d ∈ chars, IsNameChar d

/-- The parts of a name between its backslashes. -/
def segments (name : String) : List String := Text.cut '\\' name

/-- The name is made of identifiers with single backslashes between them, and none at the ends. -/
structure WellFormed (name : String) : Prop where
  identifiers : ∀ segment ∈ segments name, IsIdentifier segment
  joined : "\\".intercalate (segments name) = name
  front : name.toList.head? ≠ some '\\'
  back : name.toList.getLast? ≠ some '\\'

theorem IsInitial.isNameChar (h : IsInitial c) : IsNameChar c := by
  refine h.imp_left fun letter ↦ ?_
  rw [Char.isAlphanum, letter, Bool.true_or]

theorem IsNameChar.ne_backslash (h : IsNameChar c) : c ≠ '\\' := by
  rintro rfl
  rcases h with letter | line | beyond
  · exact absurd letter (by decide)
  · exact absurd line (by decide)
  · exact absurd beyond (by decide)

namespace IsIdentifier

theorem forall_mem (h : IsIdentifier text) : ∀ d ∈ text.toList, IsNameChar d := by
  obtain ⟨c, chars, eq, initial, others⟩ := h
  rw [eq]
  exact List.forall_mem_cons.mpr ⟨initial.isNameChar, others⟩

theorem backslash_notMem (h : IsIdentifier text) : '\\' ∉ text.toList :=
  fun mem ↦ (h.forall_mem _ mem).ne_backslash rfl

end IsIdentifier

theorem not_isIdentifier_empty : ¬IsIdentifier "" := by
  rintro ⟨c, chars, eq, -⟩
  cases eq

/-! ## Names and their segments -/

theorem segments_append (front back : String) :
    segments (front ++ "\\" ++ back) = segments front ++ segments back :=
  Text.cut_append rfl front back

/-- Nothing but identifiers between the backslashes leaves none at the ends. -/
theorem wellFormed_of_identifiers (h : ∀ segment ∈ segments name, IsIdentifier segment) :
    WellFormed name := by
  have empty : segments "" = [""] := by decide
  refine ⟨h, Text.intercalate_cut rfl name, fun first ↦ ?_, fun last ↦ ?_⟩
  · obtain ⟨rest, eq⟩ := List.head?_eq_some_iff.mp first
    have cut : name = "" ++ "\\" ++ String.ofList rest := by
      rw [← String.toList_inj, eq]
      simp
    rw [cut, segments_append, empty] at h
    exact not_isIdentifier_empty (h "" (by simp))
  · obtain ⟨rest, eq⟩ := List.getLast?_eq_some_iff.mp last
    have cut : name = String.ofList rest ++ "\\" ++ "" := by
      rw [← String.toList_inj, eq]
      simp
    rw [cut, segments_append, empty] at h
    exact not_isIdentifier_empty (h "" (by simp))

theorem WellFormed.isIdentifier (h : WellFormed text) (plain : '\\' ∉ text.toList) :
    IsIdentifier text :=
  h.identifiers text (by rw [segments, Text.cut_of_notMem plain]; exact List.mem_singleton_self text)

/-- Identifiers joined by backslashes, with no backslash in front. -/
structure Qualified (name : String) : Prop where
  chars : ∀ c ∈ name.toList, IsNameChar c ∨ c = '\\'
  head : ∃ c rest, name.toList = c :: rest ∧ c ≠ '\\'

theorem WellFormed.qualified {name : String} (h : WellFormed name) : Qualified name := by
  refine ⟨fun c mem ↦ ?_, ?_⟩
  · rcases Text.eq_or_exists_mem_cut '\\' mem with rfl | ⟨segment, segment_mem, mem⟩
    · exact .inr rfl
    · exact .inl ((h.identifiers segment segment_mem).forall_mem c mem)
  · cases eq : name.toList with
    | nil =>
      rw [String.toList_eq_nil_iff] at eq
      subst eq
      exact absurd (h.identifiers "" (by decide)) not_isIdentifier_empty
    | cons c rest =>
      refine ⟨c, rest, rfl, ?_⟩
      rintro rfl
      exact h.front (by rw [eq]; rfl)

/-! ## Characters in order -/

def Begins (chars : List Char) : Prop := ∃ c ∈ chars.head?, IsInitial c

/-- Each character belongs to an identifier, or is a backslash in front of one. -/
def Continues : List Char → Prop
  | [] => True
  | c :: chars => (IsNameChar c ∨ c = '\\' ∧ Begins chars) ∧ Continues chars

theorem isIdentifier_of_begins (begins : Begins chars) (names : ∀ c ∈ chars, IsNameChar c) :
    IsIdentifier (String.ofList chars) := by
  obtain ⟨c, first, initial⟩ := begins
  obtain ⟨rest, rfl⟩ := List.head?_eq_some_iff.mp first
  exact ⟨c, rest, String.toList_ofList, initial, (List.forall_mem_cons.mp names).2⟩

theorem splitOn_cons_of_isNameChar (h : IsNameChar c) (chars : List Char) :
    (c :: chars).splitOn '\\' = (chars.splitOn '\\').modifyHead (c :: ·) := by
  rw [List.splitOn_cons_eq_if_modifyHead, if_neg (by simpa using h.ne_backslash)]

/-- What is split off in front may be the rest of an identifier; behind it come whole ones. -/
theorem splitOn_of_continues (h : Continues chars) :
    ∃ part parts, chars.splitOn '\\' = part :: parts ∧ (∀ c ∈ part, IsNameChar c) ∧
      (Begins chars → Begins part) ∧ ∀ later ∈ parts, IsIdentifier (String.ofList later) := by
  induction chars with
  | nil => exact ⟨[], [], List.splitOn_nil _, by simp, id, by simp⟩
  | cons c chars ih =>
    obtain ⟨first, others⟩ := h
    obtain ⟨part, parts, eq, names, begins, later⟩ := ih others
    rcases first with isName | ⟨rfl, more⟩
    · refine ⟨c :: part, parts, ?_, List.forall_mem_cons.mpr ⟨isName, names⟩, id, later⟩
      rw [splitOn_cons_of_isNameChar isName, eq]
      rfl
    · refine ⟨[], part :: parts, ?_, by simp, ?_, ?_⟩
      · rw [← eq]
        exact List.splitOn_append_cons_self [] chars
      · rintro ⟨_, ⟨⟩, initial⟩
        exact absurd rfl initial.isNameChar.ne_backslash
      · exact List.forall_mem_cons.mpr ⟨isIdentifier_of_begins (begins more) names, later⟩

theorem wellFormed_of_continues (begins : Begins name.toList) (continues : Continues name.toList) :
    WellFormed name := by
  obtain ⟨part, parts, eq, names, part_begins, later⟩ := splitOn_of_continues continues
  apply wellFormed_of_identifiers
  rw [segments, Text.cut, eq, List.map_cons]
  refine List.forall_mem_cons.mpr ⟨isIdentifier_of_begins (part_begins begins) names, ?_⟩
  rintro _ mem
  obtain ⟨chars, chars_mem, rfl⟩ := List.mem_map.mp mem
  exact later chars chars_mem

/-! ## Name tokens -/

theorem namespaceName_of_begins (begins : Begins text.toList) : namespaceName text = text := by
  obtain ⟨c, first, initial⟩ := begins
  obtain ⟨rest, eq⟩ := List.head?_eq_some_iff.mp first
  have other := initial.isNameChar.ne_backslash
  rw [namespaceName, eq, List.dropWhile_cons_of_neg (by simpa using other), ← eq,
    String.ofList_toList]

namespace Lexer

variable {b : UInt8} {bytes rest : List UInt8} {c start stop : Cursor} {kind : TokenKind}
  {tokens : List Token} {p : UInt8 → Bool}

theorem segmentAhead_cons : segmentAhead p (b :: rest) ↔
    p b ∨ b = Ascii.backslash ∧ ∃ d more, rest = d :: more ∧ isNameStart d := by
  cases rest <;> simp [segmentAhead]

theorem isNameChar_of_isNameByte (ascii : b < 0x80) (h : isNameByte b) :
    IsNameChar (Char.ofNat b.toNat) := by
  have all : ∀ n < 0x80, isNameByte (UInt8.ofNat n) →
      (Char.ofNat n).isAlphanum ∨ Char.ofNat n = '_' := by decide
  have found := all b.toNat (UInt8.lt_iff_toNat_lt.mp ascii)
  rw [UInt8.ofNat_toNat] at found
  exact (found h).imp_right .inl

theorem isInitial_of_isNameStart (ascii : b < 0x80) (h : isNameStart b) :
    IsInitial (Char.ofNat b.toNat) := by
  have all : ∀ n < 0x80, isNameStart (UInt8.ofNat n) →
      (Char.ofNat n).isAlpha ∨ Char.ofNat n = '_' := by decide
  have found := all b.toNat (UInt8.lt_iff_toNat_lt.mp ascii)
  rw [UInt8.ofNat_toNat] at found
  exact (found h).imp_right .inl

theorem begins_decodeLossy (starts : isNameStart b) (rest : List UInt8) :
    Begins (Utf8.decodeLossy (b :: rest)).toList := by
  by_cases ascii : b < 0x80
  · rw [Utf8.decodeLossy_ascii ascii]
    exact ⟨_, rfl, isInitial_of_isNameStart ascii starts⟩
  · obtain ⟨c, after, eq, -, beyond⟩ := Utf8.decodeLossy_beyond ascii rest
    rw [eq]
    exact ⟨c, rfl, .inr (.inr beyond)⟩

/-- The bytes continue a name, each with those behind it. -/
def NameBytes (bytes : List UInt8) : Prop := ∀ ahead, ahead <:+ bytes → ahead ≠ [] → continuesName ahead

theorem NameBytes.suffix (h : NameBytes bytes) (suffix : rest <:+ bytes) : NameBytes rest :=
  fun ahead inside ↦ h ahead (inside.trans suffix)

/-- A backslash is a piece on its own, so that the identifier behind it begins a new one. -/
theorem continues_decodeLossy (h : NameBytes bytes) : Continues (Utf8.decodeLossy bytes).toList := by
  induction bytes using induction_behind with
  | nil =>
    rw [Utf8.decodeLossy, Utf8.pieces]
    trivial
  | cons b rest ih =>
    by_cases ascii : b < 0x80
    · rw [Utf8.decodeLossy_ascii ascii]
      refine ⟨?_, ih rest le_rfl (h.suffix (List.suffix_cons b rest))⟩
      have first := h _ (List.suffix_refl _) (List.cons_ne_nil b rest)
      rw [continuesName_eq, segmentAhead_cons] at first
      rcases first with isName | ⟨rfl, d, more, rfl, starts⟩
      · exact .inl (isNameChar_of_isNameByte ascii isName)
      · exact .inr ⟨by decide, begins_decodeLossy starts more⟩
    · obtain ⟨c, after, eq, suffix, beyond⟩ := Utf8.decodeLossy_beyond ascii rest
      rw [eq]
      exact ⟨.inl (.inr (.inr beyond)),
        ih after suffix.length_le (h.suffix (suffix.trans (List.suffix_cons b rest)))⟩

/-- Only one backslash can stand in front of a name, and it is left out. -/
theorem wellFormed_namespaceName (starts : startsName bytes) (h : NameBytes bytes) :
    WellFormed (namespaceName (Utf8.decodeLossy bytes)) := by
  cases bytes with
  | nil => cases starts
  | cons b rest =>
    rw [startsName_eq, segmentAhead_cons] at starts
    rcases starts with own | ⟨rfl, d, more, rfl, own⟩
    · have begins := begins_decodeLossy own rest
      rw [namespaceName_of_begins begins]
      exact wellFormed_of_continues begins (continues_decodeLossy h)
    · have begins := begins_decodeLossy own more
      have dropped : namespaceName (Utf8.decodeLossy (Ascii.backslash :: d :: more)) =
          namespaceName (Utf8.decodeLossy (d :: more)) := by
        rw [namespaceName, Utf8.decodeLossy_ascii (by decide),
          List.dropWhile_cons_of_pos (by decide), namespaceName]
      rw [dropped, namespaceName_of_begins begins]
      exact wellFormed_of_continues begins
        (continues_decodeLossy (h.suffix (List.suffix_cons _ _)))

/-- Bytes are skipped one by one, none of them one to stop at. -/
theorem exists_passes (until' : List UInt8 → Bool) (c : Cursor) :
    ∃ bytes, c.rest = bytes ++ (c.skipUntil until').rest ∧
      Passes until' (c.skipUntil until').rest bytes := by
  obtain ⟨rest, offset, line⟩ := c
  rw [Cursor.skipUntil]
  dsimp only
  induction rest generalizing offset line with
  | nil => exact ⟨[], rfl, trivial⟩
  | cons b rest ih =>
    rw [Cursor.skipUntil.go]
    split
    · exact ⟨[], rfl, trivial⟩
    · rename_i onward
      obtain ⟨bytes, eq, passes⟩ := ih (offset + 1) (Cursor.lineAfter b line)
      refine ⟨b :: bytes, by rw [List.cons_append, ← eq], ?_, passes⟩
      rw [← eq]
      simpa using onward

/-- What follows a name does not let its last byte be a backslash. -/
theorem nameBytes_of_passes (passes : Passes (fun ahead ↦ !continuesName ahead) rest bytes)
    (ended : continuesName rest = false) : NameBytes bytes := by
  induction bytes with
  | nil => exact fun ahead suffix ne_nil ↦ absurd (List.suffix_nil.mp suffix) ne_nil
  | cons b bytes ih =>
    obtain ⟨first, others⟩ := passes
    intro ahead suffix ne_nil
    rcases List.suffix_cons_iff.mp suffix with rfl | inside
    · have onward : segmentAhead isNameByte (b :: bytes ++ rest) := by
        rw [← continuesName_eq]
        simpa using first
      have alone : segmentAhead isNameByte (b :: bytes ++ []) :=
        segmentAhead_of_post onward (.inr (startsName_eq_false_of_ended ended))
      rwa [List.append_nil, ← continuesName_eq] at alone
    · exact ih others ahead inside ne_nil

theorem singleByte_ne_name (b : UInt8) (text : String) : singleByte b ≠ .name text := by
  unfold singleByte
  repeat' split
  all_goals simp

/-- How a name is read. -/
theorem eq_of_readToken_name
    (token : readToken start b (start.skip 1) = .ok (.name text, stop)) :
    startsName start.rest ∧ stop = (start.skip 1).skipUntil (fun ahead ↦ !continuesName ahead) ∧
      text = Utf8.decodeLossy (start.bytesTo stop) := by
  have no_frame {f : Frame} {d : Cursor} {k : TokenKind} (other : k ≠ .name text)
      (h : (skipFrame f d).map (k, ·) = .ok (.name text, stop)) : False := by
    obtain ⟨_, -, eq⟩ := eq_ok_of_map_eq_ok h
    cases eq
    exact other rfl
  revert token
  fun_cases readToken start b (start.skip 1) with
  | case4 _ _ _ _ starts =>
    intro token
    simp only [Except.ok.injEq, Prod.mk.injEq, TokenKind.name.injEq] at token
    obtain ⟨rfl, rfl⟩ := token
    exact ⟨starts, rfl, rfl⟩
  | case2 | case6 | case7 => exact fun token ↦ (no_frame (by simp) token).elim
  | case3 =>
    intro token
    obtain ⟨_, -, eq⟩ := eq_ok_of_map_eq_ok token
    cases eq
  | case11 =>
    intro token
    simp only [Except.ok.injEq, Prod.mk.injEq] at token
    exact (singleByte_ne_name b text token.1).elim
  | _ => rintro ⟨⟩

/-- What is read as a name goes on to the first byte that cannot belong to it. -/
theorem wellFormed_of_readToken (first : start.rest = b :: rest)
    (token : readToken start b (start.skip 1) = .ok (.name text, stop)) :
    WellFormed (namespaceName text) := by
  obtain ⟨starts, stop_eq, rfl⟩ := eq_of_readToken_name token
  have next : (start.skip 1).rest = rest := by
    rw [Cursor.rest_skip, first]
    rfl
  obtain ⟨bytes, ahead, passes⟩ := exists_passes (fun ahead ↦ !continuesName ahead) (start.skip 1)
  have ended := continuesName_skipUntil (start.skip 1)
  rw [← stop_eq] at ahead passes ended
  rw [next] at ahead
  rw [ahead, ← List.cons_append] at first
  rw [first] at starts
  have all : Passes (fun ahead ↦ !continuesName ahead) stop.rest (b :: bytes) :=
    ⟨by simpa using continuesName_of_startsName starts, passes⟩
  have alone : startsName (b :: bytes) := by
    rw [startsName_eq] at starts ⊢
    have cut : segmentAhead isNameStart (b :: bytes ++ []) :=
      segmentAhead_of_post starts (.inr (startsName_eq_false_of_ended ended))
    rwa [List.append_nil] at cut
  rw [bytesTo_of_reaches ((Cursor.Reaches.skip 1 start).trans (reaches_readToken token)) first]
  exact wellFormed_namespaceName alone (nameBytes_of_passes all ended)

theorem spells_of_readToken {line offset : Nat} (first : start.rest = b :: rest)
    (token : readToken start b (start.skip 1) = .ok (kind, stop)) :
    (⟨kind, line, offset⟩ : Token).Spells WellFormed IsIdentifier := by
  rintro text rfl
  have wellFormed := wellFormed_of_readToken first token
  refine ⟨wellFormed, fun plain ↦ ?_⟩
  rw [namespaceName_of_notMem plain] at wellFormed
  exact wellFormed.isIdentifier plain

theorem Lexes.spells (h : Lexes c tokens) : ∀ t ∈ tokens, t.Spells WellFormed IsIdentifier := by
  induction h with
  | done => simp
  | halt _ first token => exact List.forall_mem_singleton.mpr (spells_of_readToken first token)
  | token _ first token _ _ ih =>
    exact List.forall_mem_cons.mpr ⟨spells_of_readToken first token, ih⟩

end Lexer

/-! ## Types in their namespaces -/

/-- A declared type where it stands. -/
structure Place where
  kind : TypeKind
  /-- The names of the namespaces around the type, from the outside in. -/
  spaces : List String
  own : String
  deriving DecidableEq, Repr

/-- What stands in front of a name in these namespaces. -/
def enclosing (spaces : List String) : String :=
  spaces.foldl (fun front space ↦ front ++ space ++ "\\") ""

theorem enclosing_concat (spaces : List String) (space : String) :
    enclosing (spaces ++ [space]) = enclosing spaces ++ space ++ "\\" := by
  rw [enclosing, List.foldl_append]
  rfl

theorem segments_enclosing (spaces : List String) (own : String) :
    segments (enclosing spaces ++ own) = spaces.flatMap segments ++ segments own := by
  induction spaces using List.reverseRecOn generalizing own with
  | nil => rw [enclosing, List.foldl_nil, String.empty_append, List.flatMap_nil, List.nil_append]
  | append_singleton spaces space ih =>
    rw [enclosing_concat, segments_append, ih, List.flatMap_append, List.flatMap_singleton]

namespace Place

/-- The type is reported under its own name behind the names of its namespaces. -/
def type (place : Place) : DeclaredType := ⟨place.kind, enclosing place.spaces ++ place.own⟩

def Spelled (place : Place) : Prop :=
  (∀ space ∈ place.spaces, WellFormed space) ∧ IsIdentifier place.own

variable {place : Place}

theorem Spelled.segments_name (h : place.Spelled) :
    segments place.type.name = place.spaces.flatMap segments ++ [place.own] := by
  rw [type, segments_enclosing, segments, Text.cut_of_notMem h.2.backslash_notMem]

theorem Spelled.wellFormed (h : place.Spelled) : WellFormed place.type.name := by
  apply wellFormed_of_identifiers
  intro segment mem
  rw [h.segments_name, List.mem_append, List.mem_flatMap, List.mem_singleton] at mem
  rcases mem with ⟨space, space_mem, mem⟩ | rfl
  · exact (h.1 space space_mem).identifiers segment mem
  · exact h.2

end Place

namespace Statement

mutual

/-- The types of a statement that stands in the namespaces `spaces`. -/
def places (spaces : List String) : Statement → List Place
  | .namespaceBlock name _ body => placesOfAll (spaces ++ name.toList) body
  | .declaration kind own _ => [⟨kind, spaces, own⟩]
  | .other => []

def placesOfAll (spaces : List String) : List Statement → List Place
  | [] => []
  | s :: statements => places spaces s ++ placesOfAll spaces statements

end

mutual

theorem types_eq_places (spaces : List String) :
    (s : Statement) → s.types (enclosing spaces) = (s.places spaces).map Place.type
  | .namespaceBlock none _ body => by
    rw [types, places, Option.toList_none, List.append_nil]
    exact typesOfAll_eq_places spaces body
  | .namespaceBlock (some own) _ body => by
    rw [types, places, Option.elim_some, Option.toList_some, ← enclosing_concat]
    exact typesOfAll_eq_places (spaces ++ [own]) body
  | .declaration kind own _ => by
    rw [types, places]
    rfl
  | .other => by
    rw [types, places]
    rfl

theorem typesOfAll_eq_places (spaces : List String) : (statements : List Statement) →
    typesOfAll (enclosing spaces) statements = (placesOfAll spaces statements).map Place.type
  | [] => rfl
  | s :: statements => by
    rw [typesOfAll, placesOfAll, List.map_append, types_eq_places spaces s,
      typesOfAll_eq_places spaces statements]

end

mutual

theorem Names.places {spaces : List String} (around : ∀ space ∈ spaces, WellFormed space) :
    (s : Statement) → s.Names WellFormed IsIdentifier → ∀ place ∈ s.places spaces, place.Spelled
  | .namespaceBlock name _ body => fun ⟨own, body_names⟩ ↦ by
    have within : ∀ space ∈ spaces ++ name.toList, WellFormed space :=
      List.forall_mem_append.mpr ⟨around, fun text mem ↦ own text (Option.mem_toList.mp mem)⟩
    rw [Statement.places]
    exact NamesAll.places within body body_names
  | .declaration kind own _ => fun own_identifier ↦ by
    rw [Statement.places]
    exact List.forall_mem_singleton.mpr ⟨around, own_identifier⟩
  | .other => fun _ ↦ by
    rw [Statement.places]
    simp

theorem NamesAll.places {spaces : List String} (around : ∀ space ∈ spaces, WellFormed space) :
    (statements : List Statement) → NamesAll WellFormed IsIdentifier statements →
      ∀ place ∈ placesOfAll spaces statements, place.Spelled
  | [] => fun _ ↦ by
    rw [placesOfAll]
    simp
  | s :: statements => fun ⟨first, others⟩ ↦ by
    rw [placesOfAll]
    exact List.forall_mem_append.mpr
      ⟨Names.places around s first, NamesAll.places around statements others⟩

end

end Statement

variable {source : List UInt8} {statements : List Statement}

theorem spelled_of_ofSource (h : Statement.ofSource source = .ok statements) :
    ∀ place ∈ Statement.placesOfAll [] statements, place.Spelled := by
  rw [Statement.ofSource] at h
  obtain ⟨stream, lexed, h⟩ := Parser.exists_of_bind h
  have lexes := Lexer.lexes_of_readTokens lexed
  have names := Statement.namesAll_ofTokens (Lexer.haltsLast_of_lexes lexes) lexes.spells h
  exact names.places (by simp)

theorem declaredTypes_eq_places (statements : List Statement) :
    declaredTypes statements = (Statement.placesOfAll [] statements).map Place.type :=
  Statement.typesOfAll_eq_places [] statements

/-- The names that a source declares. -/
theorem qualified_declaredTypes (h : Statement.ofSource source = .ok statements) :
    ∀ type ∈ declaredTypes statements, Qualified type.name := by
  rw [declaredTypes_eq_places]
  intro type mem
  obtain ⟨place, place_mem, rfl⟩ := List.mem_map.mp mem
  exact (spelled_of_ofSource h place place_mem).wellFormed.qualified

/-- The types of a source are those that stand in its namespaces, in order. The name of each is well
formed, and its segments are those of the namespaces around the type, from the outside in, and the
type's own name. -/
theorem declaredTypes_segments (h : Statement.ofSource source = .ok statements) :
    List.Forall₂ (fun type place ↦ type.kind = place.kind ∧ WellFormed type.name ∧
        segments type.name = place.spaces.flatMap segments ++ [place.own])
      (declaredTypes statements) (Statement.placesOfAll [] statements) := by
  rw [declaredTypes_eq_places, List.forall₂_map_left_iff, List.forall₂_same]
  intro place mem
  have spelled := spelled_of_ofSource h place mem
  exact ⟨rfl, spelled.wellFormed, spelled.segments_name⟩

namespace Lexer.Sample

/-- The name of a namespace may have a backslash in front. -/
def placed : List UInt8 := Ascii.ofString "<?php namespace \\A\\B;class C\x7b\x7d"

def placedTokens : List Token :=
  [⟨.name "namespace", 1, 6⟩, ⟨.name "\\A\\B", 1, 16⟩, ⟨.semicolon, 1, 20⟩] ++
    [⟨.name "class", 1, 21⟩, ⟨.name "C", 1, 27⟩, ⟨.opening .brace, 1, 28⟩,
      ⟨.closing .brace, 1, 29⟩]

def placedStatements : List Statement :=
  [.namespaceBlock (some "A\\B") 1 [.declaration .classType "C" 1]]

theorem ofSource_placed : TokenStream.ofSource placed = .ok ⟨placedTokens, 1⟩ := by
  have opened : skipInlineText (.ofSource placed) =
      ⟨Ascii.ofString " namespace \\A\\B;class C\x7b\x7d", 5, 1⟩ := by cbv
  have keyword : readToken ⟨Ascii.ofString "namespace \\A\\B;class C\x7b\x7d", 6, 1⟩ 0x6E
      ⟨Ascii.ofString "amespace \\A\\B;class C\x7b\x7d", 7, 1⟩ =
      .ok (.name "namespace", ⟨Ascii.ofString " \\A\\B;class C\x7b\x7d", 15, 1⟩) := by cbv
  have space : readToken ⟨Ascii.ofString "\\A\\B;class C\x7b\x7d", 16, 1⟩ 0x5C
      ⟨Ascii.ofString "A\\B;class C\x7b\x7d", 17, 1⟩ =
      .ok (.name "\\A\\B", ⟨Ascii.ofString ";class C\x7b\x7d", 20, 1⟩) := by cbv
  have semicolon : readToken ⟨Ascii.ofString ";class C\x7b\x7d", 20, 1⟩ 0x3B
      ⟨Ascii.ofString "class C\x7b\x7d", 21, 1⟩ =
      .ok (.semicolon, ⟨Ascii.ofString "class C\x7b\x7d", 21, 1⟩) := by cbv
  have declares : readToken ⟨Ascii.ofString "class C\x7b\x7d", 21, 1⟩ 0x63
      ⟨Ascii.ofString "lass C\x7b\x7d", 22, 1⟩ =
      .ok (.name "class", ⟨Ascii.ofString " C\x7b\x7d", 26, 1⟩) := by cbv
  have own : readToken ⟨Ascii.ofString "C\x7b\x7d", 27, 1⟩ 0x43
      ⟨Ascii.ofString "\x7b\x7d", 28, 1⟩ =
      .ok (.name "C", ⟨Ascii.ofString "\x7b\x7d", 28, 1⟩) := by cbv
  have opener : readToken ⟨Ascii.ofString "\x7b\x7d", 28, 1⟩ 0x7B ⟨Ascii.ofString "\x7d", 29, 1⟩ =
      .ok (.opening .brace, ⟨Ascii.ofString "\x7d", 29, 1⟩) := by cbv
  have closer : readToken ⟨Ascii.ofString "\x7d", 29, 1⟩ 0x7D ⟨[], 30, 1⟩ =
      .ok (.closing .brace, ⟨[], 30, 1⟩) := by cbv
  rw [TokenStream.ofSource, opened,
    readTokens_token (by cbv) (by rfl) keyword (by cbv),
    readTokens_token (by cbv) (by rfl) space (by cbv),
    readTokens_token (by cbv) (by rfl) semicolon rfl,
    readTokens_token (by cbv) (by rfl) declares (by cbv),
    readTokens_token (by cbv) (by rfl) own (by cbv),
    readTokens_token (by cbv) (by rfl) opener rfl,
    readTokens_token (by cbv) (by rfl) closer rfl,
    readTokens_done (skipTrivia_nil rfl) rfl]
  rfl

theorem items_placed :
    Items placedTokens [.header "A\\B" 1, .statement (.declaration .classType "C" 1)] := by
  have name : namespaceName "\\A\\B" = "A\\B" := by cbv
  have header : HeaderTokens (placedTokens.take 3) "A\\B" 1 := by
    rw [← name]
    exact .mk rfl (by cbv) rfl rfl
  have body : Group .brace (placedTokens.drop 5) := .mk rfl .nil rfl
  have declaration : DeclarationTokens (placedTokens.drop 3) .classType "C" 1 :=
    @DeclarationTokens.mk [] [] [] _ _ _ _ _ _ (by simp) (by simp) rfl (by cbv) rfl (by decide)
      .nil body
  exact .header header (.declaration declaration .nil)

theorem ofSource_placed_ok : Statement.ofSource placed = .ok placedStatements := by
  have read : Statement.ofTokens ⟨placedTokens, 1⟩ = .ok (Statement.ofItems _) :=
    Statement.ofTokens_eq items_placed
  rw [Statement.ofSource, ofSource_placed]
  exact read

end Lexer.Sample

theorem declaredTypes_segments_sample :
    Statement.ofSource Lexer.Sample.placed = .ok Lexer.Sample.placedStatements ∧
      declaredTypes Lexer.Sample.placedStatements = [⟨.classType, "A\\B\\C"⟩] ∧
      Statement.placesOfAll [] Lexer.Sample.placedStatements = [⟨.classType, ["A\\B"], "C"⟩] ∧
      List.Forall₂ (fun type place ↦ type.kind = place.kind ∧ WellFormed type.name ∧
          segments type.name = place.spaces.flatMap segments ++ [place.own])
        (declaredTypes Lexer.Sample.placedStatements)
        (Statement.placesOfAll [] Lexer.Sample.placedStatements) :=
  ⟨Lexer.Sample.ofSource_placed_ok, by decide, by decide,
    declaredTypes_segments Lexer.Sample.ofSource_placed_ok⟩

end ScriptCache.Source
