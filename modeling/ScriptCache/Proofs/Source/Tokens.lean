import Mathlib
import ScriptCache.Source.Statement.Parser

/-!
# Reading a source token by token

What is read at a cursor depends on the bytes ahead, and no more than offsets and lines on what is
behind. `Reads` says which tokens are read off bytes, wherever they stand: their kinds, and the
bytes that each of them is made of.
-/

namespace ScriptCache.Source.Lexer

open Ascii (byte)

variable {c d start stop : Cursor} {b : UInt8} {rest tail bytes source text : List UInt8}
  {kind : TokenKind} {lexemes : List (TokenKind × List UInt8)}

theorem readTokens_eq (c : Cursor) :
    readTokens c =
      match skipTrivia c with
      | .error e => .error e
      | .ok start =>
        match start.rest with
        | [] => .ok ⟨[], start.line⟩
        | b :: _ =>
          match readToken start b (start.skip 1) with
          | .error e => .error e
          | .ok (kind, stop) =>
            let token := ⟨kind, start.line, start.offset⟩
            if isHalt kind then .ok ⟨[token], stop.line⟩
            else (readTokens stop).map fun s ↦ { s with tokens := token :: s.tokens } := by
  rw [readTokens]
  split
  · rename_i trivia
    rw [trivia]
  · rename_i trivia
    rw [trivia]
    dsimp only
    split
    · rename_i done
      rw [done]
    · rename_i first
      rw [first]
      dsimp only
      split <;> rename_i token <;> rw [token]

theorem readTokens_done (trivia : skipTrivia c = .ok start) (done : start.rest = []) :
    readTokens c = .ok ⟨[], start.line⟩ := by
  rw [readTokens_eq, trivia]
  simp [done]

theorem readTokens_token (trivia : skipTrivia c = .ok start) (first : start.rest = b :: rest)
    (token : readToken start b (start.skip 1) = .ok (kind, stop)) (onward : isHalt kind = false) :
    readTokens c =
      (readTokens stop).map fun s ↦ { s with tokens := ⟨kind, start.line, start.offset⟩ :: s.tokens } := by
  rw [readTokens_eq, trivia]
  simp [first, token, onward]

theorem readTokens_error {e : ParseError} (trivia : skipTrivia c = .ok start)
    (first : start.rest = b :: rest) (token : readToken start b (start.skip 1) = .error e) :
    readTokens c = .error e := by
  rw [readTokens_eq, trivia]
  simp [first, token]

/-- Reading starts behind blanks and comments. -/
theorem readTokens_trivia (trivia : skipTrivia c = skipTrivia d) : readTokens c = readTokens d := by
  rw [readTokens_eq, readTokens_eq, trivia]

/-- A closing brace alone is read as a token, and then refused. -/
theorem ofSource_brace :
    Statement.ofSource [0x3C, 0x3F, 0x70, 0x68, 0x70, 0x20, 0x7D] = .error ⟨1, .unmatchedBrace⟩ := by
  have opened : skipInlineText (.ofSource [0x3C, 0x3F, 0x70, 0x68, 0x70, 0x20, 0x7D]) =
      ⟨[0x20, 0x7D], 5, 1⟩ := by cbv
  have trivia : skipTrivia ⟨[0x20, 0x7D], 5, 1⟩ = .ok ⟨[0x7D], 6, 1⟩ := by cbv
  have token : readToken ⟨[0x7D], 6, 1⟩ 0x7D ⟨[], 7, 1⟩ =
      .ok (.closing .brace, ⟨[], 7, 1⟩) := by cbv
  have done : skipTrivia ⟨[], 7, 1⟩ = .ok ⟨[], 7, 1⟩ := by cbv
  have stream : TokenStream.ofSource [0x3C, 0x3F, 0x70, 0x68, 0x70, 0x20, 0x7D] =
      .ok ⟨[⟨.closing .brace, 1, 6⟩], 1⟩ := by
    rw [TokenStream.ofSource, opened, readTokens_token trivia rfl token rfl, readTokens_done done rfl]
    rfl
  rw [Statement.ofSource, stream]
  cbv

/-! ## Blanks and comments -/

theorem skipTrivia_nil (done : c.rest = []) : skipTrivia c = .ok c := by
  rw [skipTrivia]
  split <;> simp_all

theorem skipTrivia_cons (first : c.rest = b :: rest) :
    skipTrivia c =
      if isBlank b then skipTrivia (c.skip 1)
      else if startsLineComment (b :: rest) then
        skipTrivia ((c.skip 1).skipUntil endsLineComment)
      else if (Ascii.ofString "/*").isPrefixOf (b :: rest) then
        let close := (c.skip 2).skipUntil ((Ascii.ofString "*/").isPrefixOf ·)
        if close.rest.isEmpty then .error ⟨c.line, .unterminatedComment⟩
        else skipTrivia (close.skip 2)
      else .ok c := by
  rw [skipTrivia]
  split
  · simp_all
  · rename_i same
    cases first.symm.trans same
    rfl

theorem skipTrivia_blank (first : c.rest = b :: rest) (blank : isBlank b) :
    skipTrivia c = skipTrivia (c.skip 1) := by
  rw [skipTrivia_cons first, if_pos blank]

theorem skipTrivia_comment (first : c.rest = b :: rest) (dark : isBlank b = false)
    (starts : startsLineComment (b :: rest)) :
    skipTrivia c = skipTrivia ((c.skip 1).skipUntil endsLineComment) := by
  rw [skipTrivia_cons first, if_neg (by simp [dark]), if_pos starts]

/-- The byte begins neither blanks nor a comment. -/
def isDark (b : UInt8) : Bool := !isBlank b && b != byte '#' && b != byte '/'

theorem skipTrivia_dark (first : c.rest = b :: rest) (dark : isDark b) : skipTrivia c = .ok c := by
  simp only [isDark, Bool.and_eq_true, Bool.not_eq_true', bne_iff_ne] at dark
  obtain ⟨⟨blank, hash⟩, slash⟩ := dark
  have comment : startsLineComment (b :: rest) = false := by
    cases rest <;> simp_all [startsLineComment]
  have block : (Ascii.ofString "/*").isPrefixOf (b :: rest) = false := by
    have slash : (byte '/' == b) = false := beq_false_of_ne (Ne.symm slash)
    simp_all [Ascii.ofString, List.isPrefixOf]
  rw [skipTrivia_cons first]
  simp [blank, comment, block]

/-! ## Stretches of bytes -/

/-- In front of `rest`, no byte is one to stop at. -/
def Passes (stop : List UInt8 → Bool) (rest : List UInt8) : List UInt8 → Prop
  | [] => True
  | b :: bytes => stop (b :: (bytes ++ rest)) = false ∧ Passes stop rest bytes

theorem skipUntil_of_passes {stop : List UInt8 → Bool} (passes : Passes stop rest bytes)
    (stops : rest = [] ∨ stop rest) (ahead : c.rest = bytes ++ rest) :
    c.skipUntil stop = c.skip bytes.length := by
  obtain ⟨_, offset, line⟩ := c
  subst ahead
  rw [Cursor.skipUntil]
  induction bytes generalizing offset line with
  | nil =>
    cases rest with
    | nil => rfl
    | cons b rest => simp [Cursor.skipUntil.go, stops.resolve_left (by simp)]
  | cons b bytes ih =>
    obtain ⟨first, passes⟩ := passes
    simp only [List.cons_append, Cursor.skipUntil.go, first, List.length_cons, Cursor.skip_succ_cons]
    exact ih passes _ _

theorem passes_comment (h : bytes.all fun b ↦ b != Cursor.newline && b != byte '?') :
    Passes endsLineComment rest bytes := by
  induction bytes with
  | nil => trivial
  | cons b bytes ih =>
    rw [List.all_cons, Bool.and_eq_true, Bool.and_eq_true, bne_iff_ne, bne_iff_ne] at h
    obtain ⟨⟨newline, mark⟩, others⟩ := h
    have mark : (byte '?' == b) = false := beq_false_of_ne (Ne.symm mark)
    refine ⟨?_, ih others⟩
    simp_all [endsLineComment, Ascii.ofString, List.isPrefixOf]

theorem passes_name (h : bytes.all isNameByte) :
    Passes (fun ahead ↦ !continuesName ahead) rest bytes := by
  induction bytes with
  | nil => trivial
  | cons b bytes ih =>
    rw [List.all_cons, Bool.and_eq_true] at h
    obtain ⟨first, others⟩ := h
    refine ⟨?_, ih others⟩
    cases bytes ++ rest <;> simp [continuesName, first]

theorem offset_skip (n : Nat) (c : Cursor) : (c.skip n).offset = c.offset + min n c.rest.length := by
  induction n generalizing c with
  | zero => simp
  | succ n ih =>
    obtain ⟨rest, offset, line⟩ := c
    cases rest with
    | nil => simp
    | cons b rest =>
      rw [Cursor.skip_succ_cons, ih]
      simp only [List.length_cons]
      omega

theorem bytesTo_skip (ahead : c.rest = bytes ++ rest) : c.bytesTo (c.skip bytes.length) = bytes := by
  rw [Cursor.bytesTo, offset_skip, ahead, List.length_append, Nat.min_eq_left (Nat.le_add_right ..),
    Nat.add_sub_cancel_left]
  exact List.take_left

/-- Between two cursors stand the bytes by which the first has more ahead of it. -/
theorem bytesTo_of_reaches (reaches : c.Reaches d) (ahead : c.rest = bytes ++ d.rest) :
    c.bytesTo d = bytes := by
  obtain ⟨n, rfl⟩ := reaches
  have length := congrArg List.length ahead
  rw [Cursor.rest_skip, List.length_append, List.length_drop] at length
  have count : min n c.rest.length = bytes.length := by omega
  rw [Cursor.bytesTo, offset_skip, Nat.add_sub_cancel_left, count, ahead]
  exact List.take_left

/-- Where a cursor was moved to is known by the bytes that are still ahead. -/
theorem eq_skip_of_reaches (reaches : c.Reaches d) (ahead : c.rest = bytes ++ d.rest) :
    d = c.skip bytes.length := by
  have all (n : Nat) (c : Cursor) : c.skip n = c.skip (min n c.rest.length) := by
    induction n generalizing c with
    | zero => rw [Nat.zero_min]
    | succ n ih =>
      obtain ⟨rest, offset, line⟩ := c
      cases rest with
      | nil => rw [Cursor.skip_nil, Cursor.skip_nil]
      | cons b rest =>
        rw [List.length_cons, Nat.succ_min_succ, Cursor.skip_succ_cons, Cursor.skip_succ_cons, ih]
  obtain ⟨n, rfl⟩ := reaches
  have length := congrArg List.length ahead
  rw [Cursor.rest_skip, List.length_append, List.length_drop] at length
  have count : min n c.rest.length = bytes.length := by omega
  rw [all, count]

/-- The cursor stands in the source, at the offset that it counts. -/
def InSource (source : List UInt8) (c : Cursor) : Prop := source.drop c.offset = c.rest

theorem InSource.reaches (h : InSource source c) (reaches : c.Reaches d) : InSource source d := by
  obtain ⟨n, rfl⟩ := reaches
  rw [InSource, offset_skip, ← List.drop_drop, h, Cursor.rest_skip]
  by_cases few : n ≤ c.rest.length
  · rw [Nat.min_eq_left few]
  · have many : c.rest.length ≤ n := Nat.le_of_not_le few
    rw [Nat.min_eq_right many, List.drop_length, List.drop_of_length_le many]

/-- A source that begins with an open tag is read from there on. -/
theorem rest_skipInlineText (bytes : List UInt8) :
    (skipInlineText (.ofSource (Ascii.ofString "<?php" ++ bytes))).rest = bytes := by
  have tag : Ascii.ofString "<?php" = [0x3C, 0x3F, 0x70, 0x68, 0x70] := by decide
  have mark : Ascii.ofString "<?" = [0x3C, 0x3F] := by decide
  have length : openTagLength ([0x3C, 0x3F, 0x70, 0x68, 0x70] ++ bytes) = 5 := by
    rw [openTagLength, tag]
    rfl
  rw [skipInlineText, tag, mark, Cursor.ofSource, Cursor.skipUntil, List.cons_append,
    Cursor.skipUntil.go, if_pos (by rfl)]
  dsimp only
  rw [Cursor.rest_skip, ← List.cons_append, length]
  rfl

/-! ## Tokens -/

theorem startsName_eq_false (sign : isNameStart b = false) (plain : b ≠ Ascii.backslash) :
    startsName (b :: rest) = false := by
  cases rest <;> simp [startsName, sign, plain]

theorem continuesName_eq_false (sign : isNameByte b = false) (plain : b ≠ Ascii.backslash) :
    continuesName (b :: rest) = false := by
  cases rest <;> simp [continuesName, sign, plain]

/-- The bytes of the token at a cursor. -/
def tokenBytes (c : Cursor) : List UInt8 :=
  match c.rest with
  | [] => []
  | b :: _ =>
    match readToken c b (c.skip 1) with
    | .ok (_, stop) => c.bytesTo stop
    | .error _ => []

/-- What was read as a token: its kind, and the bytes of the source that it is made of. -/
def lexeme (source : List UInt8) (t : Token) : TokenKind × List UInt8 :=
  (t.kind, tokenBytes ⟨source.drop t.offset, t.offset, t.line⟩)

theorem lexeme_eq (inSource : InSource source c) (first : c.rest = b :: tail)
    (token : readToken c b (c.skip 1) = .ok (kind, stop)) :
    lexeme source ⟨kind, c.line, c.offset⟩ = (kind, c.bytesTo stop) := by
  have same : (⟨source.drop c.offset, c.offset, c.line⟩ : Cursor) = c := by rw [inSource]
  rw [lexeme, same, tokenBytes]
  simp only [first, token]

/-- Bytes that are tokens of their own, whatever stands behind them. -/
def signs : List UInt8 := [byte '(', byte ')', byte '{', byte '}', byte ';']

/-- These tokens are read off the bytes, wherever they stand. -/
def Reads (bytes : List UInt8) (lexemes : List (TokenKind × List UInt8)) : Prop :=
  ∀ (source : List UInt8) (c : Cursor), InSource source c → c.rest = bytes →
    ∃ s, readTokens c = .ok s ∧ s.tokens.map (lexeme source) = lexemes

namespace Reads

/-- The kinds of the tokens, without regard to the source. -/
theorem kinds (h : Reads bytes lexemes) (c : Cursor) (ahead : c.rest = bytes) :
    ∃ s, readTokens c = .ok s ∧ s.tokens.map (·.kind) = lexemes.map (·.1) := by
  have inSource : InSource (List.replicate c.offset 0 ++ c.rest) c :=
    List.drop_left' List.length_replicate
  obtain ⟨s, tokens, same⟩ := h _ c inSource ahead
  refine ⟨s, tokens, ?_⟩
  rw [← same, List.map_map]
  rfl

/-- The tokens of a source that begins with an open tag. -/
theorem ofSource (h : Reads bytes lexemes) :
    ∃ s, TokenStream.ofSource (Ascii.ofString "<?php" ++ bytes) = .ok s ∧
      s.tokens.map (lexeme (Ascii.ofString "<?php" ++ bytes)) = lexemes := by
  have ahead := rest_skipInlineText bytes
  generalize Ascii.ofString "<?php" ++ bytes = source at ahead ⊢
  have start : InSource source (.ofSource source) := List.drop_zero
  exact h source _ (start.reaches (reaches_skipInlineText _)) ahead

theorem nil : Reads [] [] := by
  intro source c _ done
  exact ⟨_, readTokens_done (skipTrivia_nil done) done, rfl⟩

theorem trivia (skips : ∀ c : Cursor, c.rest = bytes →
      ∃ d, c.Reaches d ∧ d.rest = rest ∧ skipTrivia c = skipTrivia d) (h : Reads rest lexemes) :
    Reads bytes lexemes := by
  intro source c inSource ahead
  obtain ⟨d, reaches, ahead, same⟩ := skips c ahead
  rw [readTokens_trivia same]
  exact h source d (inSource.reaches reaches) ahead

theorem blank (h : Reads rest lexemes) (blank : isBlank b) : Reads (b :: rest) lexemes :=
  h.trivia fun c ahead ↦ ⟨c.skip 1, .skip 1 c, by rw [Cursor.rest_skip, ahead]; rfl,
    skipTrivia_blank ahead blank⟩

/-- A line comment goes up to a newline. -/
theorem comment (h : Reads (Cursor.newline :: rest) lexemes) (dark : isBlank b = false)
    (starts : startsLineComment (b :: (bytes ++ Cursor.newline :: rest)))
    (passes : Passes endsLineComment (Cursor.newline :: rest) bytes) :
    Reads (b :: (bytes ++ Cursor.newline :: rest)) lexemes := by
  refine h.trivia fun c ahead ↦
    ⟨_, (Cursor.Reaches.skip 1 c).trans (Cursor.reaches_skipUntil ..), ?_,
      skipTrivia_comment ahead dark starts⟩
  have next : (c.skip 1).rest = bytes ++ Cursor.newline :: rest := by
    rw [Cursor.rest_skip, ahead]
    rfl
  rw [skipUntil_of_passes passes (.inr (by simp [endsLineComment])) next, Cursor.rest_skip, next]
  exact List.drop_left

/-- A token in front of which there are neither blanks nor comments. -/
theorem tokenHere (h : Reads rest lexemes)
    (here : ∀ c : Cursor, c.rest = b :: tail → skipTrivia c = .ok c)
    (onward : isHalt kind = false) (split : b :: tail = text ++ rest)
    (read : ∀ c : Cursor, c.rest = b :: tail →
      ∃ stop, stop.rest = rest ∧ readToken c b (c.skip 1) = .ok (kind, stop)) :
    Reads (b :: tail) ((kind, text) :: lexemes) := by
  intro source c inSource ahead
  obtain ⟨stop, stop_rest, token⟩ := read c ahead
  have reaches : c.Reaches stop := (Cursor.Reaches.skip 1 c).trans (reaches_readToken token)
  obtain ⟨s, tokens, same⟩ := h source stop (inSource.reaches reaches) stop_rest
  have between : c.bytesTo stop = text :=
    bytesTo_of_reaches reaches (by rw [ahead, split, stop_rest])
  refine ⟨_, by rw [readTokens_token (here c ahead) ahead token onward, tokens]; rfl, ?_⟩
  rw [List.map_cons, same, lexeme_eq inSource ahead token, between]

theorem token (h : Reads rest lexemes) (dark : isDark b) (onward : isHalt kind = false)
    (split : b :: tail = text ++ rest)
    (read : ∀ c : Cursor, c.rest = b :: tail →
      ∃ stop, stop.rest = rest ∧ readToken c b (c.skip 1) = .ok (kind, stop)) :
    Reads (b :: tail) ((kind, text) :: lexemes) :=
  h.tokenHere (fun _ ahead ↦ skipTrivia_dark ahead dark) onward split read

theorem sign (h : Reads rest lexemes) (mem : b ∈ signs) :
    Reads (b :: rest) ((singleByte b, [b]) :: lexemes) := by
  have facts : ∀ b ∈ signs, isDark b ∧ isNameStart b = false ∧
      b ≠ Ascii.backslash ∧ isHalt (singleByte b) = false := by
    simp only [signs, List.forall_mem_cons]
    exact ⟨by decide, by decide, by decide, by decide, by decide, List.forall_mem_nil _⟩
  obtain ⟨dark, sign, backslash, onward⟩ := facts b mem
  refine h.token dark onward rfl fun c ahead ↦
    ⟨c.skip 1, by rw [Cursor.rest_skip, ahead]; rfl, ?_⟩
  have plain : startsName c.rest = false := by
    rw [ahead]
    exact startsName_eq_false sign backslash
  simp only [signs, List.mem_cons, List.not_mem_nil, or_false] at mem
  simp only [readToken, plain]
  rcases mem with rfl | rfl | rfl | rfl | rfl <;> rfl

/-- A name goes up to the first byte that it cannot go on with. -/
theorem name (h : Reads rest lexemes) (dark : isDark b) (tag : b ≠ byte '?')
    (heredoc : b ≠ byte '<') (starts : startsName (b :: (bytes ++ rest)))
    (passes : Passes (fun ahead ↦ !continuesName ahead) rest bytes)
    (ends : continuesName rest = false)
    (onward : isHalt (.name (Utf8.decodeLossy (b :: bytes))) = false) :
    Reads (b :: (bytes ++ rest)) ((.name (Utf8.decodeLossy (b :: bytes)), b :: bytes) :: lexemes) := by
  refine h.token dark onward rfl fun c ahead ↦ ⟨c.skip (b :: bytes).length, ?_, ?_⟩
  · rw [Cursor.rest_skip, ahead]
    exact List.drop_left
  · have next : (c.skip 1).rest = bytes ++ rest := by
      rw [Cursor.rest_skip, ahead]
      rfl
    have stop : (c.skip 1).skipUntil (fun ahead ↦ !continuesName ahead) =
        c.skip (b :: bytes).length := by
      rw [skipUntil_of_passes passes (.inr (by simp [ends])) next, ← Cursor.skip_add, Nat.add_comm]
      rfl
    have hash : b ≠ byte '#' := by
      rintro rfl
      revert dark
      decide
    have text : c.bytesTo (c.skip (b :: bytes).length) = b :: bytes := bytesTo_skip ahead
    simp only [readToken, tag, hash, heredoc, false_and, if_false, ahead, starts, if_true, stop, text]

/-- A name without backslashes, and the blank behind it. -/
theorem word {name : String} (h : Reads rest lexemes) (dark : isDark b) (tag : b ≠ byte '?')
    (heredoc : b ≠ byte '<') (starts : isNameStart b) (letters : bytes.all isNameByte)
    (spelled : Utf8.decodeLossy (b :: bytes) = name) (onward : isHalt (.name name) = false) :
    Reads (b :: (bytes ++ byte ' ' :: rest)) ((.name name, b :: bytes) :: lexemes) := by
  have starts : startsName (b :: (bytes ++ byte ' ' :: rest)) := by
    cases bytes <;> simp [startsName, starts]
  subst spelled
  exact (h.blank (by decide)).name dark tag heredoc starts (passes_name letters)
    (continuesName_eq_false (by decide) (by decide)) onward

end Reads

/-! ## Strings in single quotes -/

/-- What can stand between single quotes: every backslash takes the byte behind it along. -/
inductive Quoted : List UInt8 → Prop where
  | nil : Quoted []
  | plain {b : UInt8} {bytes : List UInt8} (backslash : b ≠ Ascii.backslash)
      (apostrophe : b ≠ Ascii.apostrophe) (rest : Quoted bytes) : Quoted (b :: bytes)
  | escape {b : UInt8} {bytes : List UInt8} (rest : Quoted bytes) :
      Quoted (Ascii.backslash :: b :: bytes)

theorem Quoted.append {first second : List UInt8} (h : Quoted first) (h' : Quoted second) :
    Quoted (first ++ second) := by
  induction h with
  | nil => exact h'
  | plain backslash apostrophe _ ih => exact .plain backslash apostrophe ih
  | escape _ ih => exact .escape ih

/-- Reading goes from what is open in front of the bytes to what is open behind them. -/
def Turns (frames frames' : List Frame) (bytes : List UInt8) : Prop :=
  ∀ offset line rest, ∃ offset' line',
    skipNested frames offset line (bytes ++ rest) = skipNested frames' offset' line' rest

theorem Quoted.turns (h : Quoted bytes) (start : Nat) (frames : List Frame) :
    Turns (.single start :: frames) frames (bytes ++ [Ascii.apostrophe]) := by
  intro offset line rest
  rw [List.append_assoc, List.singleton_append]
  induction h generalizing offset line with
  | nil =>
    have other : Ascii.apostrophe ≠ Ascii.backslash := by decide
    refine ⟨offset + 1, Cursor.lineAfter Ascii.apostrophe line, ?_⟩
    rw [List.nil_append, skipNested.eq_def]
    simp only [if_neg other, if_true]
  | @plain b _ backslash apostrophe _ ih =>
    obtain ⟨offset', line', skipped⟩ := ih (offset + 1) (Cursor.lineAfter b line)
    refine ⟨offset', line', ?_⟩
    rw [List.cons_append, skipNested.eq_def]
    simp only [if_neg backslash, if_neg apostrophe, skipped]
  | @escape b _ _ ih =>
    obtain ⟨offset', line', skipped⟩ :=
      ih (offset + 1 + 1) (Cursor.lineAfter b (Cursor.lineAfter Ascii.backslash line))
    refine ⟨offset', line', ?_⟩
    rw [List.cons_append, List.cons_append, skipNested.eq_def]
    simp only [if_true, skipped]

theorem Reads.literal (h : Reads rest lexemes) (quoted : Quoted bytes) :
    Reads (Ascii.apostrophe :: (bytes ++ Ascii.apostrophe :: rest))
      ((.literal, Ascii.apostrophe :: (bytes ++ [Ascii.apostrophe])) :: lexemes) := by
  refine h.token (by decide) rfl (by simp) fun c ahead ↦ ?_
  have next : (c.skip 1).rest = bytes ++ [Ascii.apostrophe] ++ rest := by
    rw [Cursor.rest_skip, ahead]
    simp
  obtain ⟨offset, line, skipped⟩ := quoted.turns c.line [] (c.skip 1).offset (c.skip 1).line rest
  refine ⟨⟨rest, offset, line⟩, rfl, ?_⟩
  have plain : startsName c.rest = false := by
    rw [ahead]
    exact startsName_eq_false (by decide) (by decide)
  have frame : skipFrame (.single c.line) (c.skip 1) = .ok ⟨rest, offset, line⟩ := by
    rw [skipFrame, next, skipped, skipNested]
  simp only [readToken, plain, frame]
  rfl

end ScriptCache.Source.Lexer
