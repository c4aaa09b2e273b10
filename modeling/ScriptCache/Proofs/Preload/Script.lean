import ScriptCache.Preload.Manifest
import ScriptCache.Proofs.Scan
import ScriptCache.Proofs.Source.Document
import ScriptCache.Proofs.Source.Tokens
import ScriptCache.Proofs.Text.ByteOrder

/-!
# The boot script as a source

Whatever names stand in a boot script, it is read as a list of plain statements: one that loads the
autoloader, and one for each name. A scan finds no types in it.
-/

namespace ScriptCache

open Ascii (byte)
open Source (TokenKind Token Item Items OtherTokens BeginsOther Statement TokenStream declaredTypes
  isKeyword)
open Source.Cursor (newline)
open Source.Lexer (Reads Quoted lexeme)

namespace Utf8

theorem encode_append (s t : String) : encode (s ++ t) = encode s ++ encode t := by
  rw [encode, String.toList_append, List.flatMap_append, encode, encode]

theorem encode_between (s t u : String) : encode (s ++ t ++ u) = encode s ++ encode t ++ encode u := by
  rw [encode_append, encode_append]

theorem encode_join (texts : List String) :
    encode (String.join texts) = texts.flatMap encode := by
  rw [encode, String.toList_join, List.flatMap_assoc]
  rfl

/-- The bytes of a character other than these two are other bytes. -/
theorem plain_encodeChar {c : Char} (backslash : c ≠ '\\') (apostrophe : c.toNat ≠ 0x27) :
    ∀ b ∈ String.utf8EncodeChar c, b ≠ Ascii.backslash ∧ b ≠ Ascii.apostrophe := by
  have slash : c.val.toNat ≠ 0x5C := fun same ↦ backslash (Char.toNat_inj.mp same)
  have quote : c.val.toNat ≠ 0x27 := apostrophe
  have other {n : Nat} (small : n < 256) (slash : n ≠ 0x5C) (quote : n ≠ 0x27) :
      UInt8.ofNat n ≠ Ascii.backslash ∧ UInt8.ofNat n ≠ Ascii.apostrophe :=
    ⟨fun same ↦ slash ((ofNat_eq_ofNat small (by decide)).mp same),
      fun same ↦ quote ((ofNat_eq_ofNat small (by decide)).mp same)⟩
  simp only [String.utf8EncodeChar]
  generalize c.val.toNat = n at *
  repeat' split
  all_goals
    simp only [List.forall_mem_cons, List.not_mem_nil, false_imp_iff, implies_true, and_true]
  · exact other (by omega) slash quote
  · exact ⟨other (by omega) (by omega) (by omega), other (by omega) (by omega) (by omega)⟩
  · exact ⟨other (by omega) (by omega) (by omega), other (by omega) (by omega) (by omega),
      other (by omega) (by omega) (by omega)⟩
  · exact ⟨other (by omega) (by omega) (by omega), other (by omega) (by omega) (by omega),
      other (by omega) (by omega) (by omega), other (by omega) (by omega) (by omega)⟩

end Utf8

namespace Manifest

theorem quoted_of_plain {bytes : List UInt8}
    (h : ∀ b ∈ bytes, b ≠ Ascii.backslash ∧ b ≠ Ascii.apostrophe) : Quoted bytes := by
  induction bytes with
  | nil => exact .nil
  | cons b bytes ih =>
    obtain ⟨⟨backslash, apostrophe⟩, others⟩ := List.forall_mem_cons.mp h
    exact .plain backslash apostrophe (ih others)

/-- A character of a value, as it is written in a literal. -/
def escape (c : Char) : List Char := if c = '\\' ∨ c.toNat = 0x27 then ['\\', c] else [c]

/-- The bytes of a character are no backslash and no quote, or there is one byte behind a
backslash. -/
theorem escape_cases (c : Char) :
    ((escape c).flatMap String.utf8EncodeChar = String.utf8EncodeChar c ∧
        ∀ b ∈ String.utf8EncodeChar c, b ≠ Ascii.backslash ∧ b ≠ Ascii.apostrophe) ∨
      ∃ b, (b = Ascii.backslash ∨ b = Ascii.apostrophe) ∧ String.utf8EncodeChar c = [b] ∧
        (escape c).flatMap String.utf8EncodeChar = [Ascii.backslash, b] := by
  by_cases escaped : c = '\\' ∨ c.toNat = 0x27
  · right
    have two : (escape c).flatMap String.utf8EncodeChar =
        Ascii.backslash :: String.utf8EncodeChar c := by
      rw [escape, if_pos escaped, List.flatMap_cons, List.flatMap_singleton]
      rfl
    rw [two]
    obtain rfl | same := escaped
    · exact ⟨_, .inl rfl, rfl, rfl⟩
    · have same : c = Char.ofNat 0x27 := Char.toNat_inj.mp same
      subst same
      exact ⟨_, .inr rfl, rfl, rfl⟩
  · left
    rw [escape, if_neg escaped, List.flatMap_singleton]
    rw [not_or] at escaped
    exact ⟨rfl, Utf8.plain_encodeChar escaped.1 escaped.2⟩

/-- The bytes between the quotes of a literal. -/
def escapedBytes (chars : List Char) : List UInt8 :=
  (chars.flatMap escape).flatMap String.utf8EncodeChar

theorem escapedBytes_cons (c : Char) (chars : List Char) :
    escapedBytes (c :: chars) = (escape c).flatMap String.utf8EncodeChar ++ escapedBytes chars := by
  rw [escapedBytes, List.flatMap_cons, List.flatMap_append, escapedBytes]

theorem quoted_escapedBytes (chars : List Char) : Quoted (escapedBytes chars) := by
  induction chars with
  | nil => exact .nil
  | cons c chars ih =>
    rw [escapedBytes_cons]
    refine Quoted.append ?_ ih
    obtain ⟨same, plain⟩ | ⟨b, -, -, escaped⟩ := escape_cases c
    · rw [same]
      exact quoted_of_plain plain
    · rw [escaped]
      exact .escape .nil

/-- A literal is a string in single quotes. -/
theorem encode_literal (value : String) :
    Utf8.encode (literal value) =
      Ascii.apostrophe :: (escapedBytes value.toList ++ [Ascii.apostrophe]) := by
  have quote : Utf8.encode "'" = [Ascii.apostrophe] := by decide
  rw [literal, Utf8.encode_between, quote, Utf8.encode, String.toList_ofList]
  rfl

/-- The tokens of the statement that loads the autoloader. -/
def headLexemes (autoload : Path) : List (TokenKind × List UInt8) :=
  [(.name "require_once", Ascii.ofString "require_once"), (.literal, Utf8.encode (literal autoload)),
    (.semicolon, [byte ';'])]

/-- The tokens of the statement for a name. -/
def lineLexemes (name : String) : List (TokenKind × List UInt8) :=
  [(.name "\\class_exists", Ascii.ofString "\\class_exists"), (.opening .paren, [byte '(']),
    (.literal, Utf8.encode (literal name)), (.closing .paren, [byte ')']), (.semicolon, [byte ';'])]

/-- The kinds of the tokens of the statement that loads the autoloader. -/
def headKinds : List TokenKind := [.name "require_once", .literal, .semicolon]

/-- The kinds of the tokens of the statement for a name. -/
def lineKinds : List TokenKind :=
  [.name "\\class_exists", .opening .paren, .literal, .closing .paren, .semicolon]

variable {rest : List UInt8} {lexemes : List (TokenKind × List UInt8)}

theorem reads_literal (value : String) (h : Reads rest lexemes) :
    Reads (Utf8.encode (literal value) ++ rest) ((.literal, Utf8.encode (literal value)) :: lexemes) := by
  rw [encode_literal, List.cons_append, List.append_assoc]
  exact h.literal (quoted_escapedBytes value.toList)

theorem reads_line (name : String) (h : Reads rest lexemes) :
    Reads (Utf8.encode (scriptLine name) ++ rest) (lineLexemes name ++ lexemes) := by
  have call : Utf8.encode "\\class_exists(" =
      Ascii.backslash :: (Ascii.ofString "class_exists" ++ [byte '(']) := by decide
  have close : Utf8.encode ");\n" = [byte ')', byte ';', newline] := by decide
  have spelled : Ascii.ofString "\\class_exists" =
      Ascii.backslash :: Ascii.ofString "class_exists" := by decide
  have text : Utf8.decodeLossy (Ascii.backslash :: Ascii.ofString "class_exists") =
      "\\class_exists" := by cbv
  have line := Utf8.encode_between "\\class_exists(" (literal name) ");\n"
  rw [lineLexemes, spelled, ← text, scriptLine, line, call, close]
  simp only [List.cons_append, List.append_assoc, List.nil_append]
  refine Reads.name ?_ (by decide) (by decide) (by decide) rfl
    (Source.Lexer.passes_name (by decide))
    (Source.Lexer.continuesName_eq_false (by decide) (by decide)) (by rw [text]; cbv)
  refine Reads.sign (reads_literal name ?_) (by decide)
  exact Reads.sign (Reads.sign (h.blank (by decide)) (by decide)) (by decide)

theorem reads_lines (names : List String) :
    Reads ((names.map scriptLine).flatMap Utf8.encode) (names.flatMap lineLexemes) := by
  induction names with
  | nil => exact .nil
  | cons name names ih => exact reads_line name ih

/-- What stands between the open tag and the path of the autoloader. -/
def preamble (rest : List UInt8) : List UInt8 :=
  newline :: newline :: byte '/' ::
    (Ascii.ofString "/ Generated by opsyncctl preload. Do not edit." ++ newline :: newline ::
      byte 'r' :: (Ascii.ofString "equire_once" ++ byte ' ' :: rest))

theorem preamble_append (rest : List UInt8) : preamble [] ++ rest = preamble rest := by
  rw [preamble, preamble]
  generalize Ascii.ofString "/ Generated by opsyncctl preload. Do not edit." = comment
  generalize Ascii.ofString "equire_once" = word
  simp

theorem reads_preamble (h : Reads rest lexemes) :
    Reads (preamble rest) ((.name "require_once", Ascii.ofString "require_once") :: lexemes) := by
  have word : Reads (byte 'r' :: (Ascii.ofString "equire_once" ++ byte ' ' :: rest))
      ((.name "require_once", Ascii.ofString "require_once") :: lexemes) :=
    h.word (by decide) (by decide) (by decide) (by decide) (by decide) (by cbv) (by cbv)
  have comment : Reads (byte '/' ::
      (Ascii.ofString "/ Generated by opsyncctl preload. Do not edit." ++ newline :: newline ::
        byte 'r' :: (Ascii.ofString "equire_once" ++ byte ' ' :: rest)))
      ((.name "require_once", Ascii.ofString "require_once") :: lexemes) :=
    (word.blank (b := newline) (by decide)).blank (b := newline) (by decide) |>.comment (by decide)
      rfl (Source.Lexer.passes_comment (by decide))
  exact (comment.blank (by decide)).blank (by decide)

theorem reads_head (autoload : Path) (h : Reads rest lexemes) :
    ∃ bytes, Utf8.encode (scriptHead autoload) = Ascii.ofString "<?php" ++ bytes ∧
      Reads (bytes ++ rest) (headLexemes autoload ++ lexemes) := by
  have tag : Utf8.encode "<?php\n\n// Generated by opsyncctl preload. Do not edit.\n\nrequire_once " =
      Ascii.ofString "<?php" ++ preamble [] := by decide
  have close : Utf8.encode ";\n\n" = [byte ';', newline, newline] := by decide
  refine ⟨preamble (Utf8.encode (literal autoload) ++ Utf8.encode ";\n\n"), ?_, ?_⟩
  · rw [← preamble_append, ← List.append_assoc (Ascii.ofString _), ← tag, ← List.append_assoc]
    exact Utf8.encode_between _ (literal autoload) _
  · rw [← preamble_append, List.append_assoc, preamble_append, close, List.append_assoc]
    refine reads_preamble (reads_literal autoload ?_)
    exact Reads.sign ((h.blank (by decide)).blank (by decide)) (by decide)

/-- The tokens of a boot script. -/
theorem exists_tokens (m : Manifest) (autoload : Path) :
    ∃ s, TokenStream.ofSource (Utf8.encode (m.script autoload)) = .ok s ∧
      s.tokens.map (lexeme (Utf8.encode (m.script autoload))) =
        headLexemes autoload ++ m.names.flatMap lineLexemes := by
  obtain ⟨bytes, eq, reads⟩ := reads_head autoload (reads_lines m.names)
  have source : Utf8.encode (m.script autoload) =
      Ascii.ofString "<?php" ++ (bytes ++ (m.names.map scriptLine).flatMap Utf8.encode) := by
    rw [script, Utf8.encode_append, Utf8.encode_join, eq, List.append_assoc]
  rw [source]
  exact reads.ofSource

theorem kinds_tokens {m : Manifest} {autoload : Path} {source : List UInt8} {tokens : List Token}
    (h : tokens.map (lexeme source) = headLexemes autoload ++ m.names.flatMap lineLexemes) :
    tokens.map (·.kind) = headKinds ++ m.names.flatMap fun _ ↦ lineKinds := by
  have kinds := congrArg (List.map Prod.fst) h
  rw [List.map_map, List.map_append, List.map_flatMap] at kinds
  exact kinds

/-- A name that no declaration and no control statement begins with. -/
structure IsPlainWord (text : String) : Prop where
  ne_namespace : isKeyword text "namespace" = false
  ne_halt : isKeyword text "__halt_compiler" = false
  ne_type : ∀ kind : Source.TypeKind, isKeyword text kind.keyword = false
  not_modifier : Source.Parser.isModifier text = false
  not_control : Source.Parser.opensControl text = false

theorem IsPlainWord.begins {text : String} (h : IsPlainWord text) {t : Token}
    (t_kind : t.kind = .name text) (tokens : List Token) : BeginsOther (t :: tokens) := by
  refine ⟨by simp [t_kind], fun other same ↦ ?_⟩
  cases t_kind.symm.trans same
  have not {p : Bool} (h : p = false) : ¬p := by simp [h]
  exact ⟨not h.ne_namespace, not h.ne_halt, fun kind ↦ not (h.ne_type kind), not h.not_modifier,
    fun control ↦ absurd control (not h.not_control)⟩

theorem isPlainWord_require : IsPlainWord "require_once" :=
  ⟨by cbv, by cbv, fun kind ↦ by cases kind <;> cbv, by cbv, by cbv⟩

theorem isPlainWord_call : IsPlainWord "\\class_exists" :=
  ⟨by cbv, by cbv, fun kind ↦ by cases kind <;> cbv, by cbv, by cbv⟩

theorem otherTokens_head {tokens : List Token} (h : tokens.map (·.kind) = headKinds) :
    OtherTokens tokens := by
  obtain ⟨word, tokens, rfl, word_kind, h⟩ := List.map_eq_cons_iff.mp h
  obtain ⟨path, tokens, rfl, path_kind, h⟩ := List.map_eq_cons_iff.mp h
  obtain ⟨stop, tokens, rfl, stop_kind, h⟩ := List.map_eq_cons_iff.mp h
  cases List.map_eq_nil_iff.mp h
  have run : Source.Run [word, path] :=
    .token (by simp [word_kind, TokenKind.isBracket]) (by simp [word_kind])
      (.token (by simp [path_kind, TokenKind.isBracket]) (by simp [path_kind]) .nil)
  exact @OtherTokens.mk [] _ _ (by simp) (isPlainWord_require.begins word_kind _) run
    (.semicolon stop_kind)

theorem otherTokens_line {tokens : List Token} (h : tokens.map (·.kind) = lineKinds) :
    OtherTokens tokens := by
  obtain ⟨word, tokens, rfl, word_kind, h⟩ := List.map_eq_cons_iff.mp h
  obtain ⟨opener, tokens, rfl, opens, h⟩ := List.map_eq_cons_iff.mp h
  obtain ⟨name, tokens, rfl, name_kind, h⟩ := List.map_eq_cons_iff.mp h
  obtain ⟨closer, tokens, rfl, closes, h⟩ := List.map_eq_cons_iff.mp h
  obtain ⟨stop, tokens, rfl, stop_kind, h⟩ := List.map_eq_cons_iff.mp h
  cases List.map_eq_nil_iff.mp h
  have group : Source.Group .paren [opener, name, closer] :=
    .mk opens (.token (by simp [name_kind, TokenKind.isBracket]) .nil) closes
  have run : Source.Run (word :: ([opener, name, closer] ++ [])) :=
    .token (by simp [word_kind, TokenKind.isBracket]) (by simp [word_kind])
      (.group (by decide) group .nil)
  exact @OtherTokens.mk [] _ _ (by simp) (isPlainWord_call.begins word_kind _) run
    (.semicolon stop_kind)

theorem items_lines (names : List String) {tokens : List Token}
    (h : tokens.map (·.kind) = names.flatMap fun _ ↦ lineKinds) :
    Items tokens (names.map fun _ ↦ .statement .other) := by
  induction names generalizing tokens with
  | nil =>
    cases List.map_eq_nil_iff.mp h
    exact .nil
  | cons name names ih =>
    obtain ⟨own, others, rfl, own_kinds, others_kinds⟩ := List.map_eq_append_iff.mp h
    exact .other (otherTokens_line own_kinds) (ih others_kinds)

theorem declaredTypes_others (names : List String) :
    declaredTypes (Statement.ofItems (names.map fun _ ↦ .statement .other)) = [] := by
  induction names with
  | nil => rfl
  | cons name names ih =>
    rw [List.map_cons, Source.Grouped.ofItems_statement]
    exact ih

/-- A boot script is read as plain statements. -/
theorem exists_statements (m : Manifest) (autoload : Path) :
    ∃ statements, Statement.ofSource (Utf8.encode (m.script autoload)) = .ok statements ∧
      declaredTypes statements = [] := by
  obtain ⟨s, tokens, lexemes⟩ := exists_tokens m autoload
  obtain ⟨head, lines, eq, head_kinds, lines_kinds⟩ :=
    List.map_eq_append_iff.mp (kinds_tokens lexemes)
  have items : Items s.tokens (("" :: m.names).map fun _ ↦ .statement .other) := by
    rw [eq]
    exact .other (otherTokens_head head_kinds) (items_lines m.names lines_kinds)
  have read : Statement.ofSource (Utf8.encode (m.script autoload)) = Statement.ofTokens s := by
    rw [Statement.ofSource, tokens]
    rfl
  exact ⟨_, read.trans (Statement.ofTokens_eq items), declaredTypes_others _⟩

/-- A boot script declares nothing. -/
theorem contentTypes_script (m : Manifest) (autoload : Path) :
    contentTypes (Utf8.encode (m.script autoload)) = [] := by
  obtain ⟨statements, parsed, none⟩ := exists_statements m autoload
  rw [contentTypes, parsed]
  exact none

end Manifest

end ScriptCache
