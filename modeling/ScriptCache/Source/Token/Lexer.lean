import ScriptCache.Source.Cursor
import ScriptCache.Text.Ascii
import ScriptCache.Text.Utf8

/-!
# From bytes to tokens

Text outside `<?php ... ?>` is skipped, and a closing tag counts as `;`. Strings, heredocs and
attribute groups are skipped as wholes by `skipNested`, which keeps a stack of what is open at
the cursor: strings nest in groups and groups in strings to any depth.

Every reader here moves a cursor forward, which its `reaches_` lemma states.
-/

namespace ScriptCache.Source

namespace Lexer

open Ascii (byte)

abbrev Read := Except ParseError

def isNameStart (b : UInt8) : Bool :=
  Ascii.isLetter b || b == byte '_' || 0x80 ≤ b

def isNameByte (b : UInt8) : Bool :=
  Ascii.isLetter b || Ascii.isDigit b || b == byte '_' || 0x80 ≤ b

/-- Space, tab, carriage return, newline and form feed. -/
def isBlank (b : UInt8) : Bool :=
  b == 0x20 || b == 0x09 || b == 0x0D || b == 0x0A || b == 0x0C

def isIndent (b : UInt8) : Bool := b == 0x20 || b == 0x09

/-- The text of an open tag ahead, by its length in bytes. -/
def openTagLength (ahead : List UInt8) : Nat :=
  if Ascii.startsWithCaseless (Ascii.ofString "<?php") (ahead.take 5) then 5
  else if (Ascii.ofString "<?=").isPrefixOf ahead then 3
  else 2

/-- Skips text up to and including the next open tag. -/
def skipInlineText (c : Cursor) : Cursor :=
  let tag := c.skipUntil ((Ascii.ofString "<?").isPrefixOf ·)
  tag.skip (openTagLength tag.rest)

def startsLineComment : List UInt8 → Bool
  | a :: b :: _ => (a == byte '#' && b != byte '[') || (a == byte '/' && b == byte '/')
  | [a] => a == byte '#'
  | [] => false

/-- A line comment ends at a newline, or just before a closing tag. -/
def endsLineComment (ahead : List UInt8) : Bool :=
  ahead.head? == some Cursor.newline || (Ascii.ofString "?>").isPrefixOf ahead

/-- Skips blanks and comments. -/
def skipTrivia (c : Cursor) : Read Cursor :=
  match _ahead : c.rest with
  | [] => .ok c
  | b :: rest =>
    if isBlank b then skipTrivia (c.skip 1)
    else if startsLineComment (b :: rest) then
      skipTrivia ((c.skip 1).skipUntil endsLineComment)
    else if (Ascii.ofString "/*").isPrefixOf (b :: rest) then
      let close := (c.skip 2).skipUntil ((Ascii.ofString "*/").isPrefixOf ·)
      if close.rest.isEmpty then .error ⟨c.line, .unterminatedComment⟩
      else skipTrivia (close.skip 2)
    else .ok c
termination_by c.rest.length
decreasing_by
  · simp [Cursor.length_skip, _ahead]
  · refine Nat.lt_of_le_of_lt (Cursor.length_skipUntil_le ..) ?_
    simp [Cursor.length_skip, _ahead]
  · have := Cursor.length_skipUntil_le ((Ascii.ofString "*/").isPrefixOf ·) (c.skip 2)
    have : 0 < c.rest.length := by simp [_ahead]
    simp only [Cursor.length_skip] at *
    omega

/-- Something open at the cursor, with the line reported when it is never closed. -/
inductive Frame where
  | single (line : Nat)
  /-- A string with interpolations, closed by the byte it was opened with. -/
  | quoted (quote : UInt8) (line : Nat)
  | group (opener closer : Char) (line : Nat)
  deriving DecidableEq, Repr

def Frame.unclosed : Frame → ParseError
  | .single line => ⟨line, .unterminatedString⟩
  | .quoted _ line => ⟨line, .unterminatedString⟩
  | .group opener _ line => ⟨line, .unclosedGroup opener⟩

/-- Skips to just after the byte that closes the last of `frames`. -/
def skipNested : List Frame → (offset line : Nat) → List UInt8 → Read Cursor
  | [], offset, line, rest => .ok ⟨rest, offset, line⟩
  | frame :: _, _, _, [] => .error frame.unclosed
  | .single start :: frames, offset, line, b :: rest =>
    let line := Cursor.lineAfter b line
    let inside := Frame.single start :: frames
    if b = Ascii.backslash then
      match rest with
      | [] => .error (Frame.single start).unclosed
      | e :: after => skipNested inside (offset + 1 + 1) (Cursor.lineAfter e line) after
    else if b = Ascii.apostrophe then skipNested frames (offset + 1) line rest
    else skipNested inside (offset + 1) line rest
  | .quoted quote start :: frames, offset, line, b :: rest =>
    let line := Cursor.lineAfter b line
    let inside := Frame.quoted quote start :: frames
    let interpolation := Frame.group '{' '}' start :: inside
    match rest with
    | [] =>
      if b = quote then skipNested frames (offset + 1) line []
      else .error (Frame.quoted quote start).unclosed
    | e :: after =>
      if b = byte '{' ∧ e = byte '$' then skipNested interpolation (offset + 1) line (e :: after)
      else if b = byte '$' ∧ e = byte '{' then
        skipNested interpolation (offset + 1 + 1) (Cursor.lineAfter e line) after
      else if b = Ascii.backslash then
        skipNested inside (offset + 1 + 1) (Cursor.lineAfter e line) after
      else if b = quote then skipNested frames (offset + 1) line (e :: after)
      else skipNested inside (offset + 1) line (e :: after)
  | .group opener closer start :: frames, offset, line, b :: rest =>
    let line := Cursor.lineAfter b line
    let inside := Frame.group opener closer start :: frames
    if b = Ascii.apostrophe then skipNested (.single line :: inside) (offset + 1) line rest
    else if b = Ascii.quote then skipNested (.quoted b line :: inside) (offset + 1) line rest
    else if b = byte opener then
      skipNested (.group opener closer start :: inside) (offset + 1) line rest
    else if b = byte closer then skipNested frames (offset + 1) line rest
    else skipNested inside (offset + 1) line rest

/-- Skips to just after the byte that closes `frame`. -/
def skipFrame (frame : Frame) (c : Cursor) : Read Cursor :=
  skipNested [frame] c.offset c.line c.rest

theorem reaches_skipNested {frames : List Frame} {offset line : Nat} {rest : List UInt8}
    {d : Cursor} (h : skipNested frames offset line rest = .ok d) :
    Cursor.Reaches ⟨rest, offset, line⟩ d := by
  fun_induction skipNested frames offset line rest with
  | case1 => cases h; exact .refl _
  | case2 | case3 | case8 => cases h
  | case4 | case10 | case11 => rename_i ih; exact .cons (.cons (ih h))
  | _ => rename_i ih; exact .cons (ih h)

theorem reaches_skipFrame {frame : Frame} {c d : Cursor} (h : skipFrame frame c = .ok d) :
    c.Reaches d :=
  reaches_skipNested h

/-- Skips heredoc lines until one starts, after its indentation, with the whole label. -/
def skipHeredocBody (label : List UInt8) (start : Nat) (c : Cursor) : Read Cursor :=
  let lineEnd := c.skipWhile (· != Cursor.newline)
  if _more : lineEnd.rest = [] then .error ⟨start, .unterminatedHeredoc⟩
  else
    let text := (lineEnd.skip 1).skipWhile isIndent
    if label.isPrefixOf text.rest && !(text.rest.drop label.length).head?.any isNameByte then
      .ok (text.skip label.length)
    else skipHeredocBody label start text
termination_by c.rest.length
decreasing_by
  have h₁ : lineEnd.rest.length ≤ _ := Cursor.length_skipWhile_le (· != Cursor.newline) c
  have h₂ := Cursor.length_skipWhile_le isIndent (lineEnd.skip 1)
  have h₃ := List.length_pos_iff.mpr _more
  simp only [Cursor.length_skip] at h₂
  exact Nat.lt_of_le_of_lt h₂ (by omega)

/-- Skips a heredoc from the first byte of its label on. `quote` is what opened the label. -/
def skipLabelled (start : Nat) (quote : Option UInt8) (c : Cursor) : Read Cursor :=
  let last := c.skipWhile isNameByte
  let label := c.bytesTo last
  if label.isEmpty then .error ⟨start, .missingHeredocLabel⟩
  else if quote.isNone then skipHeredocBody label start last
  else if last.rest.head? = quote then skipHeredocBody label start (last.skip 1)
  else .error ⟨start, .malformedHeredocLabel⟩

/-- Skips a heredoc, from just after its `<<<` to the end of its closing label. -/
def skipHeredoc (start : Nat) (c : Cursor) : Read Cursor :=
  let mark := c.skipWhile isIndent
  match mark.rest.head?.filter fun b ↦ b == Ascii.quote || b == Ascii.apostrophe with
  | some quote => skipLabelled start (some quote) (mark.skip 1)
  | none => skipLabelled start none mark

/-- Whether a name that has begun goes on with the bytes ahead. -/
def continuesName : List UInt8 → Bool
  | a :: b :: _ => isNameByte a || (a == Ascii.backslash && isNameStart b)
  | [a] => isNameByte a
  | [] => false

def startsName : List UInt8 → Bool
  | a :: b :: _ => isNameStart a || (a == Ascii.backslash && isNameStart b)
  | [a] => isNameStart a
  | [] => false

/-- The kind of a token of one byte. -/
def singleByte (b : UInt8) : TokenKind :=
  if b = byte '{' then .opening .brace
  else if b = byte '}' then .closing .brace
  else if b = byte '(' then .opening .paren
  else if b = byte ')' then .closing .paren
  else if b = byte '[' then .opening .square
  else if b = byte ']' then .closing .square
  else if b = byte ';' then .semicolon
  else if b = byte ':' then .colon
  else .operator

/-- Reads the token that starts at the cursor `c`, whose first byte is `b`; `next` stands just
after that byte. -/
def readToken (c : Cursor) (b : UInt8) (next : Cursor) : Read (TokenKind × Cursor) :=
  let follows (text : String) : Bool := (Ascii.ofString text).isPrefixOf next.rest
  if b = byte '?' ∧ follows ">" then .ok (.semicolon, skipInlineText (next.skip 1))
  else if b = byte '#' ∧ follows "[" then
    (skipFrame (.group '[' ']' c.line) (next.skip 1)).map (.attributeGroup, ·)
  else if b = byte '<' ∧ follows "<<" then
    (skipHeredoc c.line (next.skip 2)).map (.literal, ·)
  else if startsName c.rest then
    let stop := next.skipUntil fun ahead ↦ !continuesName ahead
    .ok (.name (Utf8.decodeLossy (c.bytesTo stop)), stop)
  else if b = byte '$' then .ok (.varName, next.skipWhile isNameByte)
  else if b = Ascii.apostrophe then (skipFrame (.single c.line) next).map (.literal, ·)
  else if b = Ascii.quote ∨ b = Ascii.backtick then
    (skipFrame (.quoted b c.line) next).map (.literal, ·)
  else if Ascii.isDigit b then
    .ok (.literal, next.skipWhile fun d ↦ isNameByte d || d == byte '.')
  else if b = byte '.' ∧ next.rest.head?.any Ascii.isDigit then
    .ok (.literal, next.skipWhile isNameByte)
  else if b = byte ':' ∧ follows ":" then .ok (.doubleColon, next.skip 1)
  else .ok (singleByte b, next)

theorem reaches_skipInlineText (c : Cursor) : c.Reaches (skipInlineText c) :=
  (Cursor.reaches_skipUntil ..).trans (.skip ..)

theorem reaches_skipHeredocBody {label : List UInt8} {start : Nat} {c d : Cursor}
    (h : skipHeredocBody label start c = .ok d) : c.Reaches d := by
  fun_induction skipHeredocBody label start c with
  | case1 => cases h
  | case2 c lineEnd _ text =>
    cases h
    exact (Cursor.reaches_skipWhile ..).trans <|
      (Cursor.Reaches.skip 1 _).trans <| (Cursor.reaches_skipWhile ..).trans (.skip ..)
  | case3 c lineEnd _ text _ ih =>
    exact (Cursor.reaches_skipWhile ..).trans <|
      (Cursor.Reaches.skip 1 _).trans <| (Cursor.reaches_skipWhile ..).trans (ih h)

theorem reaches_skipLabelled {start : Nat} {quote : Option UInt8} {c d : Cursor}
    (h : skipLabelled start quote c = .ok d) : c.Reaches d := by
  simp only [skipLabelled] at h
  split at h
  · cases h
  split at h
  · exact (Cursor.reaches_skipWhile ..).trans (reaches_skipHeredocBody h)
  split at h
  · exact (Cursor.reaches_skipWhile ..).trans <|
      (Cursor.Reaches.skip ..).trans (reaches_skipHeredocBody h)
  · cases h

theorem reaches_skipHeredoc {start : Nat} {c d : Cursor} (h : skipHeredoc start c = .ok d) :
    c.Reaches d := by
  simp only [skipHeredoc] at h
  split at h
  · exact (Cursor.reaches_skipWhile ..).trans <|
      (Cursor.Reaches.skip ..).trans (reaches_skipLabelled h)
  · exact (Cursor.reaches_skipWhile ..).trans (reaches_skipLabelled h)

theorem eq_ok_of_map_eq_ok {α β : Type} {f : α → β} {x : Read α} {y : β}
    (h : x.map f = .ok y) : ∃ a, x = .ok a ∧ f a = y := by
  cases x with
  | error => cases h
  | ok a => exact ⟨a, rfl, by cases h; rfl⟩

theorem reaches_readToken {c next d : Cursor} {b : UInt8} {kind : TokenKind}
    (h : readToken c b next = .ok (kind, d)) : next.Reaches d := by
  have frame {f : Frame} {e : Cursor} {k : TokenKind}
      (h : (skipFrame f e).map (k, ·) = .ok (kind, d)) : e.Reaches d := by
    obtain ⟨_, h, e⟩ := eq_ok_of_map_eq_ok h
    cases e
    exact reaches_skipFrame h
  simp only [readToken] at h
  split at h
  · cases h; exact (Cursor.Reaches.skip ..).trans (reaches_skipInlineText _)
  split at h
  · exact (Cursor.Reaches.skip ..).trans (frame h)
  split at h
  · obtain ⟨_, h, e⟩ := eq_ok_of_map_eq_ok h
    cases e
    exact (Cursor.Reaches.skip ..).trans (reaches_skipHeredoc h)
  split at h
  · cases h; exact Cursor.reaches_skipUntil ..
  split at h
  · cases h; exact Cursor.reaches_skipWhile ..
  split at h
  · exact frame h
  split at h
  · exact frame h
  split at h
  · cases h; exact Cursor.reaches_skipWhile ..
  split at h
  · cases h; exact Cursor.reaches_skipWhile ..
  split at h
  · cases h; exact .skip ..
  · cases h; exact .refl _

theorem reaches_skipTrivia {c d : Cursor} (h : skipTrivia c = .ok d) : c.Reaches d := by
  fun_induction skipTrivia c with
  | case1 => cases h; exact .refl _
  | case2 _ _ _ _ _ ih => exact (Cursor.Reaches.skip ..).trans (ih h)
  | case3 _ _ _ _ _ _ ih =>
    exact (Cursor.Reaches.skip ..).trans <| (Cursor.reaches_skipUntil ..).trans (ih h)
  | case4 => cases h
  | case5 c _ _ _ _ _ _ _ _ ih =>
    exact (Cursor.Reaches.skip ..).trans <| (Cursor.reaches_skipUntil ..).trans <|
      (Cursor.Reaches.skip ..).trans (ih h)
  | case6 => cases h; exact .refl _

/-- Reading stops after this name: what follows it is data. -/
def isHalt : TokenKind → Bool
  | .name text => isKeyword text "__halt_compiler"
  | _ => false

/-- The tokens from the cursor on. -/
def readTokens (c : Cursor) : Read TokenStream :=
  match _trivia : skipTrivia c with
  | .error e => .error e
  | .ok start =>
    match _first : start.rest with
    | [] => .ok ⟨[], start.line⟩
    | b :: _ =>
      match _token : readToken start b (start.skip 1) with
      | .error e => .error e
      | .ok (kind, stop) =>
        let token := ⟨kind, start.line, start.offset⟩
        if isHalt kind then .ok ⟨[token], stop.line⟩
        else (readTokens stop).map fun s ↦ { s with tokens := token :: s.tokens }
termination_by c.rest.length
decreasing_by
  have h₁ := (reaches_skipTrivia _trivia).length_le
  have h₂ := (reaches_readToken _token).length_le
  rw [Cursor.length_skip, _first] at h₂
  rw [_first] at h₁
  simp only [List.length_cons] at h₁ h₂
  omega

end Lexer

/-- The tokens of a source. -/
def TokenStream.ofSource (source : List UInt8) : Except ParseError TokenStream :=
  Lexer.readTokens (Lexer.skipInlineText (.ofSource source))

end ScriptCache.Source
