import ScriptCache.Proofs.Preload.Script

/-!
# Reading a boot script back

The strings of a boot script are the literals among its tokens. Without their quotes and their
escapes they are the path of the autoloader and the names of the manifest, so that no name ends its
string early and different names give different scripts.
-/

namespace ScriptCache

open Source (TokenKind Token TokenStream Statement declaredTypes)
open Source.Lexer (lexeme)

namespace Utf8

theorem encode_injective : Function.Injective encode := by
  intro s t same
  have not_lt {s t : String} (same : encode s = encode t) : ¬s < t := by
    intro lt
    exact List.lt_irrefl _ (same ▸ encode_lt_encode.mpr lt)
  exact String.le_antisymm (not_lt same.symm) (not_lt same)

end Utf8

/-- The value of a string in single quotes, from behind its first quote on. A backslash in front of
a backslash or a quote does not count. The string ends with its second quote that counts. -/
def unescape : List UInt8 → Option (List UInt8)
  | [] => none
  | [b] => if b = Ascii.apostrophe then some [] else none
  | b :: c :: rest =>
    if b = Ascii.apostrophe then none
    else if b = Ascii.backslash ∧ (c = Ascii.backslash ∨ c = Ascii.apostrophe) then
      (unescape rest).map (c :: ·)
    else (unescape (c :: rest)).map (b :: ·)

/-- The value of a string in single quotes. -/
def unquote : List UInt8 → Option (List UInt8)
  | [] => none
  | b :: rest => if b = Ascii.apostrophe then unescape rest else none

section Unescape

variable {b c : UInt8} {bytes rest : List UInt8}

theorem unescape_plain (backslash : b ≠ Ascii.backslash) (apostrophe : b ≠ Ascii.apostrophe)
    (rest : List UInt8) : unescape (b :: rest) = (unescape rest).map (b :: ·) := by
  cases rest with
  | nil => simp [unescape, apostrophe]
  | cons c rest => simp [unescape, apostrophe, backslash]

theorem unescape_escaped (escaped : b = Ascii.backslash ∨ b = Ascii.apostrophe)
    (rest : List UInt8) :
    unescape (Ascii.backslash :: b :: rest) = (unescape rest).map (b :: ·) := by
  have other : Ascii.backslash ≠ Ascii.apostrophe := by decide
  rw [unescape, if_neg other, if_pos ⟨rfl, escaped⟩]

theorem unescape_append (plain : ∀ b ∈ bytes, b ≠ Ascii.backslash ∧ b ≠ Ascii.apostrophe)
    (rest : List UInt8) : unescape (bytes ++ rest) = (unescape rest).map (bytes ++ ·) := by
  induction bytes with
  | nil => simp
  | cons b bytes ih =>
    obtain ⟨⟨backslash, apostrophe⟩, others⟩ := List.forall_mem_cons.mp plain
    rw [List.cons_append, unescape_plain backslash apostrophe, ih others, Option.map_map]
    rfl

end Unescape

namespace Manifest

theorem unescape_escapedBytes (chars : List Char) :
    unescape (escapedBytes chars ++ [Ascii.apostrophe]) =
      some (chars.flatMap String.utf8EncodeChar) := by
  induction chars with
  | nil => rfl
  | cons c chars ih =>
    rw [escapedBytes_cons, List.append_assoc, List.flatMap_cons]
    obtain ⟨same, plain⟩ | ⟨b, special, single, escaped⟩ := escape_cases c
    · rw [same, unescape_append plain, ih, Option.map_some]
    · rw [escaped, single, List.cons_append, List.cons_append, List.nil_append,
        unescape_escaped special, ih, Option.map_some]
      rfl

/-- A literal has the value that it was made from. -/
theorem unquote_literal (value : String) :
    unquote (Utf8.encode (literal value)) = some (Utf8.encode value) := by
  rw [encode_literal, unquote, if_pos rfl, unescape_escapedBytes]
  rfl

/-- The strings among the tokens of a source. -/
def literals (source : List UInt8) (tokens : List Token) : List (List UInt8) :=
  ((tokens.map (lexeme source)).filter (·.1 = .literal)).map (·.2)

theorem literals_of_lexemes {m : Manifest} {autoload : Path} {source : List UInt8}
    {tokens : List Token}
    (h : tokens.map (lexeme source) = headLexemes autoload ++ m.names.flatMap lineLexemes) :
    literals source tokens = (autoload :: m.names).map fun value ↦ Utf8.encode (literal value) := by
  have line (name : String) : (lineLexemes name).filter (·.1 = .literal) =
      [(.literal, Utf8.encode (literal name))] := rfl
  have head : (headLexemes autoload).filter (·.1 = .literal) =
      [(.literal, Utf8.encode (literal autoload))] := rfl
  rw [literals, h, List.filter_append, List.filter_flatMap, head]
  simp only [line, ← List.map_eq_flatMap, List.map_map, Function.comp_def, List.map_cons,
    List.cons_append, List.nil_append]

theorem values_literals {m : Manifest} {autoload : Path} {source : List UInt8}
    {tokens : List Token}
    (h : tokens.map (lexeme source) = headLexemes autoload ++ m.names.flatMap lineLexemes) :
    (literals source tokens).map unquote =
      (autoload :: m.names).map fun value ↦ some (Utf8.encode value) := by
  rw [literals_of_lexemes h, List.map_map]
  apply List.map_congr_left
  intro value _
  rw [Function.comp_apply, unquote_literal]

theorem script_inj {m other : Manifest} {autoload path : Path} :
    m.script autoload = other.script path ↔ m.names = other.names ∧ autoload = path := by
  constructor
  · intro same
    obtain ⟨s, tokens, lexemes⟩ := exists_tokens m autoload
    obtain ⟨t, tokens', lexemes'⟩ := exists_tokens other path
    rw [same, tokens'] at tokens
    cases tokens
    rw [same] at lexemes
    have values := (values_literals lexemes).symm.trans (values_literals lexemes')
    have values := (Option.some_injective _).comp Utf8.encode_injective |>.list_map values
    obtain ⟨path_eq, names_eq⟩ := List.cons.inj values
    exact ⟨names_eq, path_eq⟩
  · rintro ⟨names, rfl⟩
    rw [script, script, names]

end Manifest

end ScriptCache
