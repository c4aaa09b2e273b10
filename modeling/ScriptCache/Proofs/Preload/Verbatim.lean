import ScriptCache.Proofs.Preload.Manifest
import ScriptCache.Proofs.Preload.ReadBack
import ScriptCache.Proofs.Source.Names

/-!
# Declared names in a manifest

A manifest lists normal forms. A declared name is its own normal form unless it begins or ends with
a blank, which for a name is a character beyond ASCII. Two classes show that such a name is listed
as another one.
-/

namespace ScriptCache

open Ascii (byte)
open Source (DeclarationTokens DeclaredType IsNameChar Items Qualified Statement TokenStream)
open Source.Lexer (Reads)

namespace Text

variable {text : List Char}

/-- A blank stands at the beginning or at the end. -/
def HasBlankEnd (text : List Char) : Prop :=
  (∃ c rest, text = c :: rest ∧ isBlank c) ∨ ∃ front c, text = front ++ [c] ∧ isBlank c

theorem trimStart_eq_self_iff :
    trimStart text = text ↔ ¬∃ c rest, text = c :: rest ∧ isBlank c := by
  cases text with
  | nil => simp [trimStart]
  | cons c rest => simp [trimStart, List.dropWhile_eq_self_iff]

theorem trimEnd_eq_self_iff :
    trimEnd text = text ↔ ¬∃ front c, text = front ++ [c] ∧ isBlank c := by
  have reversed : trimEnd text = text ↔ trimStart text.reverse = text.reverse := by
    rw [trimEnd, trimStart, ← List.reverse_inj, List.reverse_reverse]
  rw [reversed, trimStart_eq_self_iff, not_iff_not]
  constructor
  · rintro ⟨c, rest, eq, blank⟩
    exact ⟨rest.reverse, c, by simpa using congrArg List.reverse eq, blank⟩
  · rintro ⟨front, c, rfl, blank⟩
    exact ⟨c, front.reverse, by simp, blank⟩

theorem isPrefix_trimEnd (text : List Char) : trimEnd text <+: text := by
  rw [← List.reverse_suffix, trimEnd, List.reverse_reverse]
  exact List.dropWhile_suffix _

theorem trim_eq_self_iff : trim text = text ↔ ¬HasBlankEnd text := by
  rw [HasBlankEnd, not_or, ← trimStart_eq_self_iff, ← trimEnd_eq_self_iff]
  constructor
  · intro same
    have shorter := (isPrefix_trimEnd (trimStart text)).length_le
    rw [← trim, same] at shorter
    have start : trimStart text = text :=
      (List.dropWhile_suffix _).eq_of_length_le shorter
    rw [trim, start] at same
    exact ⟨start, same⟩
  · rintro ⟨start, ending⟩
    rw [trim, start, ending]

theorem trim_infix (text : List Char) : trim text <:+: text :=
  (isPrefix_trimEnd _).isInfix.trans (List.dropWhile_suffix _).isInfix

end Text

theorem normalName_eq_self_iff {name : String} (h : Qualified name) :
    normalName name = name ↔ ¬Text.HasBlankEnd name.toList := by
  obtain ⟨c, rest, eq, plain⟩ := h.head
  have stays : name.toList.dropWhile (· = '\\') = name.toList := by
    rw [eq]
    exact List.dropWhile_cons_of_neg (by simpa using plain)
  rw [← Text.trim_eq_self_iff, normalName, ← String.toList_inj, String.toList_ofList]
  constructor
  · intro same
    have longer := (List.dropWhile_suffix (· = '\\') (l := Text.trim name.toList)).length_le
    rw [same] at longer
    exact (Text.trim_infix _).eq_of_length_le longer
  · intro same
    rw [same, stays]

/-- A blank in a name is a character beyond ASCII. -/
theorem beyond_of_isBlank {c : Char} (h : IsNameChar c ∨ c = '\\') (blank : Text.isBlank c) :
    0x80 ≤ c.toNat := by
  have all : ∀ n < 0x80, Text.isBlank (Char.ofNat n) →
      ¬((Char.ofNat n).isAlphanum ∨ Char.ofNat n = '_' ∨ Char.ofNat n = '\\') := by decide
  by_contra ascii
  have none := all c.toNat (Nat.lt_of_not_le ascii)
  rw [Char.ofNat_toNat] at none
  refine none blank ?_
  rcases h with (letter | line | beyond) | slash
  · exact .inl letter
  · exact .inr (.inl line)
  · exact (ascii beyond).elim
  · exact .inr (.inr slash)

theorem qualified_contentTypes {content : List UInt8} {type : DeclaredType}
    (mem : type ∈ contentTypes content) : Qualified type.name := by
  rw [contentTypes] at mem
  split at mem
  · rename_i parsed
    exact Source.qualified_declaredTypes parsed type mem
  · cases mem

namespace Manifest

variable {m : Manifest} {exclusions : Exclusions} {declared : List String}

namespace Sample

/-- The source text of a class, behind whatever stands in front. -/
def declaration (name rest : List UInt8) : List UInt8 :=
  byte ' ' :: byte 'c' :: (Ascii.ofString "lass" ++
    byte ' ' :: byte 'A' :: (name ++ byte ' ' :: byte '{' :: byte '}' :: rest))

/-- Two classes. The name of the first one ends with a no-break space. -/
def twins : List UInt8 :=
  Ascii.ofString "<?php" ++ declaration [0xC2, 0xA0] (declaration [] [])

theorem reads_declaration {name rest : List UInt8} (text : String)
    {lexemes : List (Source.TokenKind × List UInt8)} (letters : name.all Source.Lexer.isNameByte)
    (spelled : Utf8.decodeLossy (byte 'A' :: name) = text)
    (onward : Source.Lexer.isHalt (.name text) = false) (h : Reads rest lexemes) :
    Reads (declaration name rest)
      ((.name "class", Ascii.ofString "class") :: (.name text, byte 'A' :: name) ::
        (.opening .brace, [byte '{']) :: (.closing .brace, [byte '}']) :: lexemes) := by
  have body := (h.sign (b := byte '}') (by decide)).sign (b := byte '{') (by decide)
  have named := body.word (b := byte 'A') (by decide) (by decide) (by decide) (by decide) letters
    spelled onward
  have keyword : Utf8.decodeLossy (byte 'c' :: Ascii.ofString "lass") = "class" := by cbv
  have declared := named.word (by decide) (by decide) (by decide) (by decide) (by decide) keyword
    (by cbv)
  exact declared.blank (by decide)

theorem exists_declarationTokens {tokens : List Source.Token} {text : String}
    {kinds : List Source.TokenKind} (unqualified : '\\' ∉ text.toList)
    (h : tokens.map (·.kind) =
      .name "class" :: .name text :: .opening .brace :: .closing .brace :: kinds) :
    ∃ own rest line, tokens = own ++ rest ∧ DeclarationTokens own .classType text line ∧
      rest.map (·.kind) = kinds := by
  obtain ⟨keyword, tokens, rfl, keyword_kind, h⟩ := List.map_eq_cons_iff.mp h
  obtain ⟨name, tokens, rfl, name_kind, h⟩ := List.map_eq_cons_iff.mp h
  obtain ⟨opener, tokens, rfl, opens, h⟩ := List.map_eq_cons_iff.mp h
  obtain ⟨closer, tokens, rfl, closes, h⟩ := List.map_eq_cons_iff.mp h
  have own := @DeclarationTokens.mk [] [] [] _ keyword name _ _ .classType (by simp) (by simp)
    keyword_kind (by cbv) name_kind unqualified .nil (.mk opens .nil closes)
  exact ⟨_, tokens, _, rfl, own, h⟩

theorem contentTypes_twins :
    contentTypes twins = [⟨.classType, "A\u00a0"⟩, ⟨.classType, "A"⟩] := by
  have second : Reads (declaration [] []) _ :=
    reads_declaration "A" (by decide) (by cbv) (by cbv) .nil
  have first : Reads (declaration [0xC2, 0xA0] _) _ :=
    reads_declaration "A\u00a0" (by decide) (by cbv) (by cbv) second
  obtain ⟨s, tokens, kinds⟩ := first.kinds _ (Source.Lexer.rest_skipInlineText _)
  have read : Statement.ofSource twins = Statement.ofTokens s := by
    rw [Statement.ofSource, TokenStream.ofSource, twins, tokens]
    rfl
  obtain ⟨own, rest, line, eq, declares, kinds⟩ := exists_declarationTokens (by decide) kinds
  obtain ⟨own', rest, line', rfl, declares', kinds⟩ := exists_declarationTokens (by decide) kinds
  cases List.map_eq_nil_iff.mp kinds
  have items : Items s.tokens [.statement (.declaration .classType "A\u00a0" line),
      .statement (.declaration .classType "A" line')] := by
    rw [eq]
    exact .declaration declares (.declaration declares' .nil)
  rw [contentTypes, read, Statement.ofTokens_eq items]
  rfl

end Sample

end Manifest

end ScriptCache
