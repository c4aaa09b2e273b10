import ScriptCache.Proofs.Source.Guarded.Literals

/-!
# The guarded lexer reads the same tokens

Every token is read at a position as it is read at the cursor. So the lexer with guards reads what
the lexer reads, and comes to no fault.
-/

namespace ScriptCache.Source.Guarded

open Ascii (byte)
open Lexer (isNameStart isNameByte isHalt)

variable {source : List UInt8} {c d : Cursor} {b : UInt8} {rest : List UInt8} {p : UInt8 → Bool}
  (few : Countable source)
include few

/-! ## Names -/

omit few in
theorem skipUntil_skipWhile {stop : List UInt8 → Bool}
    (passes : ∀ b rest, p b → stop (b :: rest) = false) (c : Cursor) :
    (c.skipWhile p).skipUntil stop = c.skipUntil stop := by
  obtain ⟨rest, offset, line⟩ := c
  rw [Cursor.skipWhile, Cursor.skipUntil, Cursor.skipUntil, Cursor.skipUntil]
  dsimp only
  induction rest generalizing offset line with
  | nil => rfl
  | cons b rest ih =>
    rw [Cursor.skipUntil.go]
    split
    · rfl
    · rename_i stays
      have stays : p b = true := by simpa using stays
      rw [ih, Cursor.skipUntil.go, if_neg (by simp [passes b rest stays])]

omit few in
theorem stops_skipWhile (first : (c.skipWhile p).rest = b :: rest) : p b = false := by
  have stops := Lexer.stops_skipUntil (fun ahead ↦ !ahead.head?.any p) c
  change (c.skipWhile p).rest = [] ∨ (!(c.skipWhile p).rest.head?.any p) = true at stops
  rw [first] at stops
  simpa using stops

omit few in
theorem continuesName_iff (plain : isNameByte b = false) : Lexer.continuesName (b :: rest) ↔
    b = Ascii.backslash ∧ isNameStart (rest.head?.getD 0) := by
  have zero : isNameStart 0 = false := by decide
  cases rest <;> simp [Lexer.continuesName, plain, zero]

theorem skipSegments_spot (placed : c.Placed source) :
    skipSegments source (spot c) = .ok (spot (c.skipUntil fun ahead ↦ !Lexer.continuesName ahead)) := by
  induction c using Cursor.induction_ahead with
  | step c ih =>
  have skipped := skipWhile_spot few (p := isNameByte) (by decide) placed
  have reaches := Cursor.reaches_skipWhile isNameByte c
  have continues (b : UInt8) (rest : List UInt8) (sign : isNameByte b) :
      (!Lexer.continuesName (b :: rest)) = false := by
    cases rest <;> simp [Lexer.continuesName, sign]
  have stops {b : UInt8} {rest : List UInt8} (first : (c.skipWhile isNameByte).rest = b :: rest) :=
    stops_skipWhile first
  rw [← skipUntil_skipWhile continues c, skipSegments]
  generalize c.skipWhile isNameByte = behind at reaches skipped stops
  have behind_placed := placed.reaches reaches
  cases first : behind.rest with
  | nil =>
    rw [skipUntil_stopped (.inl first)]
    refine loop_leave ?_
    have other : (0 : UInt8) ≠ Ascii.backslash := by decide
    simp only [skipped, ok_bind, peek_end behind_placed first, other, false_and, if_false]
  | cons b rest =>
    have goes : Lexer.continuesName (b :: rest) ↔ _ := continuesName_iff (stops first)
    by_cases segment : b = Ascii.backslash ∧ isNameStart (rest.head?.getD 0)
    · have shorter : (behind.skip 1).rest.length < c.rest.length :=
        Nat.lt_of_lt_of_le (length_skip_one first) reaches.length_le
      have onward := reaches.trans (.skip 1 behind)
      have passes : (!Lexer.continuesName (b :: rest)) = false := by simp [goes.mpr segment]
      rw [skipUntil_skip_one first passes]
      refine (scan_again placed onward shorter ?_).trans (ih _ shorter (placed.reaches onward))
      simp only [skipped, ok_bind, peek_spot behind_placed first, next_spot behind_placed first]
      rw [if_pos segment, advance_spot behind_placed few first]
      rfl
    · have ended : Lexer.continuesName (b :: rest) = false := by simpa using mt goes.mp segment
      rw [skipUntil_stopped (.inr (by rw [first, ended]; rfl))]
      refine loop_leave ?_
      simp only [skipped, ok_bind, peek_spot behind_placed first, next_spot behind_placed first]
      rw [if_neg segment]

omit few in
theorem startsName_iff : Lexer.startsName (b :: rest) ↔
    isNameStart b ∨ (b = Ascii.backslash ∧ isNameStart (rest.head?.getD 0)) := by
  have zero : isNameStart 0 = false := by decide
  cases rest <;> simp [Lexer.startsName, zero]

/-- A token, with where it ends. -/
def token (read : TokenKind × Cursor) : TokenKind × Spot := (read.1, spot read.2)

omit few in
theorem map_same (kind : TokenKind) (x : Lexer.Read Cursor) :
    (same spot x).map (kind, ·) = same token (x.map (kind, ·)) := by
  cases x <;> rfl

theorem readName_spot (placed : c.Placed source) (first : c.rest = b :: rest)
    (starts : Lexer.startsName (b :: rest)) :
    readName source (spot c) =
      let stop := (c.skip 1).skipUntil fun ahead ↦ !Lexer.continuesName ahead
      .ok (.name (Utf8.decodeLossy (c.bytesTo stop)), spot stop) := by
  have continues := Lexer.continuesName_of_startsName starts
  have reaches := (Cursor.Reaches.skip 1 c).trans
    (Cursor.reaches_skipUntil (fun ahead ↦ !Lexer.continuesName ahead) _)
  rw [readName]
  split
  · have rest_read := skipSegments_spot few (placed.reaches (.skip 1 c))
    simp only [advance_spot placed few first, ok_bind, rest_read, slice_spot placed reaches]
  · have passes : (!Lexer.continuesName (b :: rest)) = false := by simp [continues]
    have rest_read := skipSegments_spot few placed
    rw [skipUntil_skip_one first passes] at rest_read
    simp only [ok_bind, rest_read, slice_spot placed reaches]

/-! ## Tokens -/

theorem readSigned_spot (placed : c.Placed source) (first : c.rest = b :: rest)
    (tag : ¬(b = byte '?' ∧ (Ascii.ofString ">").isPrefixOf rest))
    (group : ¬(b = byte '#' ∧ (Ascii.ofString "[").isPrefixOf rest))
    (heredoc : ¬(b = byte '<' ∧ (Ascii.ofString "<<").isPrefixOf rest)) :
    readSigned source (spot c) = same token (Lexer.readToken c b (c.skip 1)) := by
  have next := rest_skip_one first
  have placed' := placed.reaches (.skip 1 c)
  have one := advance_spot placed few first
  rw [readSigned, Lexer.readToken]
  simp only [next, if_neg tag, if_neg group, if_neg heredoc, first, peek_spot placed first,
    next_spot placed first, one, ok_bind]
  by_cases name : isNameStart b ∨ (b = Ascii.backslash ∧ isNameStart (rest.head?.getD 0))
  · rw [if_pos name, if_pos (startsName_iff.mpr name)]
    exact readName_spot few placed first (startsName_iff.mpr name)
  rw [if_neg name, if_neg (mt startsName_iff.mp name)]
  by_cases variable' : b = byte '$'
  · rw [if_pos variable', if_pos variable', skipWhile_spot few (by decide) placed']
    rfl
  rw [if_neg variable', if_neg variable']
  by_cases single : b = Ascii.apostrophe
  · rw [if_pos single, if_pos single]
    have read : singleQuoted source (spot c).line (spot (c.skip 1)) = _ :=
      singleQuoted_spot few c.line placed'
    rw [read]
    exact map_same .literal _
  rw [if_neg single, if_neg single]
  by_cases double : b = Ascii.quote ∨ b = Ascii.backtick
  · rw [if_pos double, if_pos double]
    have read : interpolated source b (spot c).line (spot (c.skip 1)) = _ :=
      (nests few placed').quoted b c.line
    rw [read]
    exact map_same .literal _
  rw [if_neg double, if_neg double]
  by_cases digit : Ascii.isDigit b
  · have sign : isNameByte b := by simp [isNameByte, digit]
    have skipped := skipWhile_spot few (p := fun d ↦ isNameByte d || d == byte '.') (by decide) placed
    rw [Cursor.skipWhile, skipUntil_skip_one first (by simp [sign])] at skipped
    rw [if_pos digit, if_pos digit, skipped]
    rfl
  rw [if_neg digit, if_neg digit, getD_any (p := Ascii.isDigit) (by decide)]
  by_cases fraction : b = byte '.' ∧ rest.head?.any Ascii.isDigit
  · rw [if_pos fraction, if_pos fraction, skipWhile_spot few (by decide) placed']
    rfl
  rw [if_neg fraction, if_neg fraction]
  have colon : Ascii.ofString ":" = [byte ':'] := by decide
  have colons : [byte ':'].isPrefixOf rest = true ↔ _ := isPrefixOf_one (by decide)
  rw [colon]
  by_cases double' : b = byte ':' ∧ rest.head?.getD 0 = byte ':'
  · have fits : 2 ≤ c.rest.length := by
      have length := length_of_isPrefixOf (colons.mpr double'.2)
      rw [first, List.length_cons]
      exact Nat.succ_le_succ length
    rw [if_pos double', if_pos ⟨double'.1, colons.mpr double'.2⟩, advanceBy_spot placed few fits,
      Cursor.skip_add 1 1]
    rfl
  · rw [if_neg double', if_neg (fun both ↦ double' ⟨both.1, colons.mp both.2⟩)]
    rfl

theorem readToken_spot (placed : c.Placed source) (first : c.rest = b :: rest) :
    readToken source (spot c) = same token (Lexer.readToken c b (c.skip 1)) := by
  have next := rest_skip_one first
  have starts (x : Char) (text : String) :
      (byte x :: Ascii.ofString text).isPrefixOf (b :: rest) = true ↔
        b = byte x ∧ (Ascii.ofString text).isPrefixOf rest := by
    rw [List.isPrefixOf, Bool.and_eq_true, beq_iff_eq]
    exact and_congr_left fun _ ↦ eq_comm
  have tagText : Ascii.ofString "?>" = byte '?' :: Ascii.ofString ">" := by decide
  have groupText : Ascii.ofString "#[" = byte '#' :: Ascii.ofString "[" := by decide
  have heredocText : Ascii.ofString "<<<" = byte '<' :: Ascii.ofString "<<" := by decide
  rw [readToken, startsWith_spot placed, startsWith_spot placed, startsWith_spot placed, first,
    tagText, groupText, heredocText]
  simp only [ok_bind, starts]
  by_cases tag : b = byte '?' ∧ (Ascii.ofString ">").isPrefixOf rest
  · have fits : 2 ≤ c.rest.length := by
      have length := length_of_isPrefixOf tag.2
      rw [first, List.length_cons]
      exact Nat.succ_le_succ length
    rw [if_pos tag, advanceBy_spot placed few fits, ok_bind,
      skipInlineText_spot few (placed.reaches (.skip 2 c)), Lexer.readToken]
    simp only [next, if_pos tag]
    rw [Cursor.skip_add 1 1]
    rfl
  rw [if_neg tag]
  by_cases group : b = byte '#' ∧ (Ascii.ofString "[").isPrefixOf rest
  · have fits : 2 ≤ c.rest.length := by
      have length := length_of_isPrefixOf group.2
      rw [first, List.length_cons]
      exact Nat.succ_le_succ length
    have inside : skipGroup source '[' ']' (spot c).line 1 (spot (c.skip 2)) = _ :=
      (nests few (placed.reaches (.skip 2 c))).group '[' ']' c.line 0
    rw [if_pos group, advanceBy_spot placed few fits, ok_bind, inside, Lexer.readToken]
    simp only [next, if_neg tag, if_pos group]
    rw [Cursor.skip_add 1 1]
    exact map_same .attributeGroup _
  rw [if_neg group]
  by_cases heredoc : b = byte '<' ∧ (Ascii.ofString "<<").isPrefixOf rest
  · have fits : 3 ≤ c.rest.length := by
      have length := length_of_isPrefixOf heredoc.2
      rw [first, List.length_cons]
      exact Nat.succ_le_succ length
    have inside : skipHeredoc source (spot c).line (spot c) = _ :=
      skipHeredoc_spot few c.line fits placed
    rw [if_pos heredoc, inside, Lexer.readToken]
    simp only [next, if_neg tag, if_neg group, if_pos heredoc]
    rw [Cursor.skip_add 1 2]
    exact map_same .literal _
  rw [if_neg heredoc]
  exact readSigned_spot few placed first tag group heredoc

omit few in
theorem keep_ok (tokens : List Token) (kind : TokenKind) (placed : c.Placed source)
    (reaches : c.Reaches d) (shorter : d.rest.length < c.rest.length) :
    keep source tokens (spot c) (.ok (token (kind, d))) =
      let tokens := tokens ++ [⟨kind, c.line, c.offset⟩]
      if isHalt kind then .ok (.leave ⟨tokens, d.line⟩) else .ok (.again (spot d, tokens)) := by
  rw [keep, onward]
  exact dif_pos (further_of_reaches placed reaches shorter)

/-- A turn of the main loop reads the token behind the trivia. -/
theorem readNext_token {start : Cursor} (tokens : List Token) (placed : c.Placed source)
    (trivia : Lexer.skipTrivia c = .ok start) (first : start.rest = b :: rest) :
    readNext source (spot c, tokens) =
      keep source tokens (spot start) (same token (Lexer.readToken start b (start.skip 1))) := by
  have start_placed := placed.reaches (Lexer.reaches_skipTrivia trivia)
  have blanks := skipTrivia_spot few placed
  have more : ¬source.length ≤ (spot start).pos := by simp [length_le_iff start_placed, first]
  rw [trivia, same_ok] at blanks
  rw [readNext, blanks, ok_bind, if_neg more, readToken_spot few start_placed first]

/-- The main loop, with the tokens that were read so far. -/
theorem loop_readNext (tokens : List Token) (placed : c.Placed source) :
    loop source.length (fun state : Spot × List Token ↦ state.1.pos) (readNext source)
        (spot c, tokens) =
      same (fun s ↦ { s with tokens := tokens ++ s.tokens }) (Lexer.readTokens c) := by
  induction c using Cursor.induction_ahead generalizing tokens with
  | step c ih =>
  have blanks := skipTrivia_spot few placed
  cases trivia : Lexer.skipTrivia c with
  | error e =>
    rw [trivia, same_error] at blanks
    rw [Lexer.readTokens_eq, trivia]
    apply loop_error
    rw [readNext, blanks]
    rfl
  | ok start =>
    have behind := Lexer.reaches_skipTrivia trivia
    have start_placed := placed.reaches behind
    cases first : start.rest with
    | nil =>
      rw [trivia, same_ok] at blanks
      rw [Lexer.readTokens_done trivia first]
      apply loop_leave
      rw [readNext, blanks, ok_bind, if_pos ((length_le_iff start_placed).mpr first)]
      simp only [List.append_nil]
      rfl
    | cons b rest =>
      have turn := readNext_token few tokens placed trivia first
      cases found : Lexer.readToken start b (start.skip 1) with
      | error e =>
        rw [found, same_error] at turn
        rw [Lexer.readTokens_error trivia first found]
        exact loop_error turn
      | ok result =>
        obtain ⟨kind, stop⟩ := result
        have onwards := (Cursor.Reaches.skip 1 start).trans (Lexer.reaches_readToken found)
        have shorter : stop.rest.length < start.rest.length :=
          Nat.lt_of_le_of_lt (Lexer.reaches_readToken found).length_le (length_skip_one first)
        rw [found, same_ok, keep_ok tokens kind start_placed onwards shorter] at turn
        by_cases halts : isHalt kind
        · rw [Lexer.readTokens_eq, trivia]
          simp only [first, found, halts, if_true]
          simp only [halts, if_true] at turn
          exact loop_leave turn
        · simp only [halts] at turn
          rw [Lexer.readTokens_token trivia first found (by simpa using halts)]
          have reaches := behind.trans onwards
          have shorter' := Nat.lt_of_lt_of_le shorter behind.length_le
          rw [loop_again turn (further_of_reaches placed reaches shorter'),
            ih stop shorter' _ (placed.reaches reaches)]
          cases Lexer.readTokens stop with
          | error e => rfl
          | ok s =>
            apply congrArg fun tokens ↦ Except.ok (⟨tokens, s.endLine⟩ : TokenStream)
            rw [List.append_assoc]
            rfl

/-- The guarded lexer reads what the lexer reads. -/
theorem readTokens_eq : readTokens source = same id (TokenStream.ofSource source) := by
  have placed := Cursor.placed_ofSource source
  have opened : skipInlineText source ⟨0, 1⟩ = _ := skipInlineText_spot few placed
  have read := loop_readNext few [] (placed.reaches (Lexer.reaches_skipInlineText _))
  rw [readTokens, opened, ok_bind, read, TokenStream.ofSource]
  rfl

end ScriptCache.Source.Guarded
