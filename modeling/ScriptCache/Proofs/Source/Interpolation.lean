import ScriptCache.Proofs.Source.Enclosed

/-!
# Strings with interpolations

A string in double quotes or backticks is read as one token, which ends at its own closing quote.
Braces in it hold groups, groups hold further strings, and so on to any depth. The grammar says so
without counting brackets, and the reader accepts nothing else.
-/

namespace ScriptCache.Source.Lexer

open Ascii (byte)

variable {bytes front rest text : List UInt8} {quote : UInt8} {n m : Nat} {c stop : Cursor}
  {kind : TokenKind}

/-! ## The grammar -/

/-- What bytes stand in: a string, up to its quote, or the braces of a group. -/
inductive Enclosure where
  | string (quote : UInt8)
  | braces

inductive Content : Enclosure → List UInt8 → Prop where
  | ended {quote : UInt8} : Content (.string quote) []
  | letter {quote a : UInt8} {bytes : List UInt8} (inside : a ≠ quote) (plain : a ≠ Ascii.backslash)
      (notBrace : ¬(a = byte '{' ∧ bytes.head? = some (byte '$')))
      (notDollar : ¬(a = byte '$' ∧ bytes.head? = some (byte '{')))
      (rest : Content (.string quote) bytes) : Content (.string quote) (a :: bytes)
  | escape {quote a : UInt8} {bytes : List UInt8} (rest : Content (.string quote) bytes) :
      Content (.string quote) (Ascii.backslash :: a :: bytes)
  /-- The dollar sign behind the brace is part of what the braces hold. -/
  | braced {quote : UInt8} {inner bytes : List UInt8} (dollar : inner.head? = some (byte '$'))
      (within : Content .braces inner) (rest : Content (.string quote) bytes) :
      Content (.string quote) (byte '{' :: (inner ++ byte '}' :: bytes))
  | dollar {quote : UInt8} {inner bytes : List UInt8} (within : Content .braces inner)
      (rest : Content (.string quote) bytes) :
      Content (.string quote) (byte '$' :: byte '{' :: (inner ++ byte '}' :: bytes))
  | nothing : Content .braces []
  | other {a : UInt8} {bytes : List UInt8} (apostrophe : a ≠ Ascii.apostrophe)
      (quote : a ≠ Ascii.quote) (opener : a ≠ byte '{') (closer : a ≠ byte '}')
      (rest : Content .braces bytes) : Content .braces (a :: bytes)
  | single {inner bytes : List UInt8} (within : Quoted inner) (rest : Content .braces bytes) :
      Content .braces (Ascii.apostrophe :: (inner ++ Ascii.apostrophe :: bytes))
  | double {inner bytes : List UInt8} (within : Content (.string Ascii.quote) inner)
      (rest : Content .braces bytes) :
      Content .braces (Ascii.quote :: (inner ++ Ascii.quote :: bytes))
  | group {inner bytes : List UInt8} (within : Content .braces inner)
      (rest : Content .braces bytes) :
      Content .braces (byte '{' :: (inner ++ byte '}' :: bytes))

/-! ## Nested braces and counted braces -/

def Enclosure.place : Enclosure → Place
  | .string quote => .string quote
  | .braces => .group .brace 0 0

theorem Content.enclosed {enclosure : Enclosure} (h : Content enclosure bytes) :
    Enclosed enclosure.place bytes := by
  induction h with
  | ended => exact .ended
  | letter inside plain notBrace notDollar _ ih =>
    exact .letter inside plain notBrace notDollar ih
  | escape _ ih => exact .escape ih
  | braced dollar _ _ within rest => exact .braced dollar within rest
  | dollar _ _ within rest => exact .dollar within rest
  | nothing => exact .here
  | other apostrophe quote opener closer _ ih => exact .plain apostrophe quote opener closer ih
  | single within _ ih => exact .single within ih
  | double _ _ within rest => exact .double within rest
  | group _ _ within rest => exact within.nest rest

/-- The rest of `n` open groups and of the one around them, with a closing brace behind each but
the last. -/
def Unwound : Nat → List UInt8 → Prop
  | 0, bytes => Content .braces bytes
  | n + 1, bytes => ∃ inner rest, bytes = inner ++ byte '}' :: rest ∧ Content .braces inner ∧
      Unwound n rest

theorem Unwound.behind (front : List UInt8)
    (extend : ∀ inner, Content .braces inner → Content .braces (front ++ inner))
    (h : Unwound n bytes) : Unwound n (front ++ bytes) := by
  cases n with
  | zero => exact extend bytes h
  | succ n =>
    obtain ⟨inner, rest, rfl, content, outer⟩ := h
    exact ⟨front ++ inner, rest, (List.append_assoc ..).symm, extend inner content, outer⟩

/-- What the counting grammar says of bytes at a place, said without counting. -/
def Place.Nests : Place → List UInt8 → Prop
  | .string quote, bytes => Content (.string quote) bytes
  | .group b n m, bytes => b = .brace → m = 0 → Unwound n bytes

theorem Enclosed.nests {place : Place} (h : Enclosed place bytes) : place.Nests bytes := by
  induction h with
  | ended => exact .ended
  | letter inside plain notBrace notDollar _ ih =>
    exact .letter inside plain notBrace notDollar ih
  | escape _ ih => exact .escape ih
  | braced dollar _ _ within rest => exact .braced dollar (within rfl rfl) rest
  | dollar _ _ within rest => exact .dollar (within rfl rfl) rest
  | here =>
    rintro rfl rfl
    exact .nothing
  | @plain b n m a bytes apostrophe quote opener closer _ ih =>
    rintro rfl rfl
    exact (ih rfl rfl).behind [a] fun _ ↦ .other apostrophe quote opener closer
  | @single b n m inner bytes within _ ih =>
    rintro rfl rfl
    rw [List.append_cons, ← List.cons_append]
    refine (ih rfl rfl).behind _ fun others content ↦ ?_
    rw [List.cons_append, ← List.append_cons]
    exact .single within content
  | @double b n m inner bytes _ _ within ih =>
    rintro rfl rfl
    rw [List.append_cons, ← List.cons_append]
    refine (ih rfl rfl).behind _ fun others content ↦ ?_
    rw [List.cons_append, ← List.append_cons]
    exact .double within content
  | @opening b n m bytes _ ih =>
    rintro rfl rfl
    obtain ⟨inner, rest, rfl, content, outer⟩ := ih rfl rfl
    change Unwound n (byte '{' :: (inner ++ byte '}' :: rest))
    rw [List.append_cons, ← List.cons_append]
    refine outer.behind _ fun others content' ↦ ?_
    rw [List.cons_append, ← List.append_cons]
    exact .group content content'
  | @closing b n m bytes _ ih =>
    rintro rfl rfl
    exact ⟨[], bytes, rfl, .nothing, ih rfl rfl⟩

/-! ## Reading -/

theorem readToken_quote (isQuote : IsQuote quote) (ahead : c.rest = quote :: text) :
    readToken c quote (c.skip 1) =
      (skipFrame (.quoted quote c.line) (c.skip 1)).map (.literal, ·) := by
  have plain : startsName c.rest = false := by
    rw [ahead]
    rcases isQuote with rfl | rfl
    · exact startsName_eq_false (by decide) (by decide)
    · exact startsName_eq_false (by decide) (by decide)
  rcases isQuote with rfl | rfl <;> simp only [readToken, plain] <;> rfl

theorem skipFrame_content (isQuote : IsQuote quote) (content : Content (.string quote) bytes)
    (ahead : c.rest = bytes ++ quote :: rest) (start : Nat) :
    skipFrame (.quoted quote start) c = .ok (c.skip (bytes.length + 1)) := by
  obtain ⟨offset, line, passed⟩ := content.enclosed.passed isQuote start [] c.offset c.line rest
  have skipped : skipFrame (.quoted quote start) c = .ok ⟨rest, offset, line⟩ := by
    rw [skipFrame, ahead, List.append_cons, passed, skipNested]
  have split : c.rest = bytes ++ [quote] ++ rest := by rw [ahead, ← List.append_cons]
  rw [skipped, eq_skip_of_reaches (reaches_skipFrame skipped) split, List.length_append,
    List.length_singleton]

theorem exists_content_of_skipFrame (isQuote : IsQuote quote) {start : Nat}
    (h : skipFrame (.quoted quote start) c = .ok stop) :
    ∃ bytes rest, c.rest = bytes ++ quote :: rest ∧ Content (.string quote) bytes ∧
      stop = c.skip (bytes.length + 1) := by
  obtain ⟨bytes, rest, offset, line, ahead, holds, -⟩ :=
    closed_of_skipNested (.quoted isQuote start) h
  have content : Content (.string quote) bytes := holds.of_quoted.nests
  refine ⟨bytes, rest, ahead, content, ?_⟩
  rw [skipFrame_content isQuote content ahead] at h
  exact (Except.ok.inj h).symm

/-- A string in double quotes or backticks is one token, whatever follows it: it ends at the quote
behind its content. Nothing else that begins with such a quote is read. -/
theorem string_is_one_token (c : Cursor) (quote : UInt8) (text : List UInt8)
    (isQuote : IsQuote quote) (ahead : c.rest = quote :: text) :
    (∀ bytes rest, Content (.string quote) bytes → text = bytes ++ quote :: rest →
      readToken c quote (c.skip 1) = .ok (.literal, c.skip (bytes.length + 2)) ∧
        (c.skip (bytes.length + 2)).rest = rest ∧
        readTokens c = (readTokens (c.skip (bytes.length + 2))).map fun s ↦
          { s with tokens := ⟨.literal, c.line, c.offset⟩ :: s.tokens }) ∧
      ∀ kind stop, readToken c quote (c.skip 1) = .ok (kind, stop) → kind = .literal ∧
        ∃ bytes rest, Content (.string quote) bytes ∧ text = bytes ++ quote :: rest ∧
          stop = c.skip (bytes.length + 2) := by
  have next : (c.skip 1).rest = text := by
    rw [Cursor.rest_skip, ahead]
    rfl
  have onward (n : Nat) : (c.skip 1).skip (n + 1) = c.skip (n + 2) := by
    rw [← Cursor.skip_add, Nat.add_comm 1]
  have dark : isDark quote := by rcases isQuote with rfl | rfl <;> decide
  rw [readToken_quote isQuote ahead]
  refine ⟨fun bytes rest content split ↦ ?_, fun kind stop read ↦ ?_⟩
  · have skipped := skipFrame_content isQuote content (next.trans split) c.line
    rw [onward] at skipped
    have token : readToken c quote (c.skip 1) = .ok (.literal, c.skip (bytes.length + 2)) := by
      rw [readToken_quote isQuote ahead, skipped]
      rfl
    refine ⟨by rw [skipped]; rfl, ?_, ?_⟩
    · rw [← onward, Cursor.rest_skip, next, split, List.append_cons]
      exact List.drop_left' (by simp)
    · exact readTokens_token (skipTrivia_dark ahead dark) ahead token rfl
  · obtain ⟨d, skipped, eq⟩ := eq_ok_of_map_eq_ok read
    cases eq
    obtain ⟨bytes, rest, split, content, rfl⟩ := exists_content_of_skipFrame isQuote skipped
    exact ⟨rfl, bytes, rest, content, next.symm.trans split, onward _⟩

namespace Sample

/-- A string that holds a brace, and a dollar sign in front. -/
def held : List UInt8 := byte '$' :: byte 'b' :: Ascii.quote :: ([byte '}'] ++ [Ascii.quote])

/-- An interpolation between a letter and an escaped quote. -/
def content : List UInt8 :=
  byte 'a' :: byte '{' :: (held ++ byte '}' :: [Ascii.backslash, Ascii.quote])

theorem content_held : Content .braces held :=
  .other (by decide) (by decide) (by decide) (by decide) <|
    .other (by decide) (by decide) (by decide) (by decide) <|
      .double (.letter (by decide) (by decide) (by decide) (by decide) .ended) .nothing

theorem content_content : Content (.string Ascii.quote) content :=
  .letter (by decide) (by decide) (by decide) (by decide) <|
    .braced rfl content_held (.escape .ended)

def cursor : Cursor := ⟨Ascii.quote :: (content ++ Ascii.quote :: [byte ';']), 6, 1⟩

end Sample

theorem string_is_one_token_sample :
    IsQuote Ascii.quote ∧ Content (.string Ascii.quote) Sample.content ∧
      readToken Sample.cursor Ascii.quote (Sample.cursor.skip 1) =
        .ok (.literal, ⟨[byte ';'], 18, 1⟩) :=
  ⟨.inl rfl, Sample.content_content,
    ((string_is_one_token Sample.cursor Ascii.quote _ (.inl rfl) rfl).1 _ _ Sample.content_content
      rfl).1⟩

end ScriptCache.Source.Lexer
