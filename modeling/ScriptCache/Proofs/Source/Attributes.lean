import ScriptCache.Proofs.Source.Enclosed
import ScriptCache.Proofs.Source.Trivia

/-!
# Text put into attribute groups

An attribute group is read as one token up to its own closing bracket. Text that is put into it is
hidden, so that the token takes the text in and no other token changes, exactly if the quotes and
square brackets of the text are closed within it. That goes for comments as for any other text: a
group knows no comments.
-/

namespace ScriptCache.Source.Lexer

open Ascii (byte)

variable {source tail bytes front back text rest : List UInt8} {a : UInt8} {b : Bracket} {n : Nat}
  {c start stop d : Cursor} {t : Token} {before after tokens : List Token}

/-! ## Up to a token -/

theorem skipTrivia_skipTrivia (h : skipTrivia c = .ok d) : skipTrivia d = .ok d := by
  fun_induction skipTrivia c with
  | case1 c done => cases h; exact skipTrivia_nil done
  | case4 => cases h
  | case6 c b rest first dark plain noBlock =>
    cases h
    rw [skipTrivia_cons first, if_neg dark, if_neg plain, if_neg noBlock]
  | _ => rename_i ih; exact ih h

/-- What is read in front of a token does not depend on what stands behind its first two bytes. -/
theorem Lexes.exists_start (h : Lexes c tokens) (inSource : InSource source c)
    (split : tokens = before ++ t :: after) (onward : isHalt t.kind = false) :
    ∃ bytes start stop a rest, c.rest = bytes ++ start.rest ∧ InSource source start ∧
      start.rest = a :: rest ∧ readToken start a (start.skip 1) = .ok (t.kind, stop) ∧
      t = ⟨t.kind, start.line, start.offset⟩ ∧ Lexes stop after ∧
      ∀ tail lexemes, Splice start.rest tail → tail.take 2 = start.rest.take 2 →
        Reads tail lexemes → Reads (bytes ++ tail) (before.map (lexeme source) ++ lexemes) := by
  obtain ⟨front, middle, ahead, inMiddle, here, later⟩ := h.exists_middle inSource split (by simp)
  cases here with
  | halt _ _ _ halts =>
    rw [halts] at onward
    cases onward
  | @token _ start stop a rest kind _ trivia first token _ others =>
    have reaches := reaches_skipTrivia trivia
    obtain ⟨bytes, between⟩ := exists_rest_eq reaches
    refine ⟨front ++ bytes, start, stop, a, rest, by rw [ahead, between, List.append_assoc],
      inMiddle.reaches reaches, first, token, rfl, others, fun tail lexemes splice same reads ↦ ?_⟩
    rw [List.append_assoc]
    refine later bytes start.rest tail lexemes between splice (reads.trivia fun c' ahead' ↦ ?_)
    obtain ⟨d, trivia', there⟩ := exists_skipTrivia_beside splice ⟨bytes, between, ahead'⟩ trivia
      (List.nil_append _).symm (.inl same)
    exact ⟨d, reaches_skipTrivia trivia', there, trivia'.trans (skipTrivia_skipTrivia trivia').symm⟩

/-! ## Attribute groups -/

/-- What an attribute group begins with. -/
def groupMark : List UInt8 := [byte '#', byte '[']

theorem skipTrivia_groupMark (ahead : c.rest = groupMark ++ rest) : skipTrivia c = .ok c := by
  have plain : startsLineComment (groupMark ++ rest) = false := rfl
  have noBlock : (Ascii.ofString "/*").isPrefixOf (groupMark ++ rest) = false := rfl
  rw [groupMark, List.cons_append] at ahead plain noBlock
  rw [skipTrivia_cons ahead, plain, noBlock, if_neg (by decide), if_neg Bool.false_ne_true,
    if_neg Bool.false_ne_true]

theorem readToken_groupMark (ahead : c.rest = groupMark ++ rest) :
    readToken c (byte '#') (c.skip 1) =
      (skipNested [.bracket .square c.line] (c.skip 2).offset (c.skip 2).line rest).map
        (.attributeGroup, ·) := by
  have next : (c.skip 1).rest = byte '[' :: rest := by rw [Cursor.rest_skip, ahead]; rfl
  have inside : (c.skip 2).rest = rest := by rw [Cursor.rest_skip, ahead]; rfl
  have opens : (Ascii.ofString "[").isPrefixOf (c.skip 1).rest := by rw [next]; rfl
  have other : byte '#' ≠ byte '?' := by decide
  simp only [readToken, other, false_and, if_false, opens, and_self, if_true]
  rw [← Cursor.skip_add, skipFrame, inside]
  rfl

/-- Text whose quotes and brackets are closed in it is passed over on the way to the end of a
group. -/
theorem exists_skipNested_insert {offset line first : Nat}
    (front_front : Enclosed (.group b 0 n) front) (text_text : Enclosed (.group b n n) text)
    (h : skipNested [.bracket b first] offset line (front ++ (back ++ rest)) = .ok stop)
    (ended : stop.rest = rest) (first' offset' line' : Nat) :
    ∃ stop', skipNested [.bracket b first'] offset' line' (front ++ (text ++ (back ++ rest))) =
      .ok stop' ∧ stop'.rest = rest := by
  obtain ⟨offset₁, line₁, passed⟩ := front_front.passed first [] offset line (back ++ rest)
  obtain ⟨offset₂, line₂, passed'⟩ :=
    front_front.passed first' [] offset' line' (text ++ (back ++ rest))
  obtain ⟨offset₃, line₃, passed''⟩ := text_text.passed first' [] offset₂ line₂ (back ++ rest)
  have depth (first : Nat) : List.replicate (0 + 1) (Frame.bracket b first) ++ [] =
      [.bracket b first] := rfl
  rw [depth] at passed passed'
  rw [passed] at h
  have alike : List.Forall₂ Frame.Alike (List.replicate (n + 1) (.bracket b first) ++ [])
      (List.replicate (n + 1) (.bracket b first') ++ []) := by
    rw [List.append_nil, List.append_nil]
    generalize n + 1 = m
    induction m with
    | zero => exact .nil
    | succ m ih => exact .cons (.group ..) ih
  obtain ⟨stop', skipped, bytes, there, there'⟩ := exists_skipNested_beside (.refl rest) alike h
    (by rw [ended])
  refine ⟨stop', by rw [passed', passed'', skipped], ?_⟩
  rw [there', ← there, ended]

/-- The source with `text` put in at the place. -/
def insertAt (source : List UInt8) (place : Nat) (text : List UInt8) : List UInt8 :=
  source.take place ++ (text ++ source.drop place)

theorem insertAt_append (front back text : List UInt8) :
    insertAt (front ++ back) front.length text = front ++ (text ++ back) := by
  rw [insertAt, List.take_left, List.drop_left]

theorem beside_insertAt (inSource : InSource source start) (more : start.rest ≠ [])
    (ahead : start.rest = front ++ back) (text : List UInt8) :
    Beside start.rest (front ++ (text ++ back)) (.ofSource source)
      (.ofSource (insertAt source (start.offset + front.length) text)) := by
  have within : start.offset ≤ source.length := by
    by_contra beyond
    rw [InSource, List.drop_eq_nil_of_le (by omega)] at inSource
    exact more inSource.symm
  have parts : source = (source.take start.offset ++ front) ++ back := by
    rw [List.append_assoc, ← ahead, ← inSource, List.take_append_drop]
  have place : start.offset + front.length = (source.take start.offset ++ front).length := by
    rw [List.length_append, List.length_take, Nat.min_eq_left within]
  refine ⟨source.take start.offset, ?_, ?_⟩
  · rw [← inSource, List.take_append_drop]
    rfl
  · calc insertAt source (start.offset + front.length) text
      _ = insertAt ((source.take start.offset ++ front) ++ back)
          (source.take start.offset ++ front).length text := by rw [← parts, place]
      _ = source.take start.offset ++ (front ++ (text ++ back)) := by
        rw [insertAt_append, List.append_assoc]

/-- Wherever `n` further brackets are open in an attribute group, outside of its strings, the text can
be put in: the group takes it in and ends with the same bracket, and all other tokens are read as
they were. -/
def HiddenAt (n : Nat) (text : List UInt8) : Prop :=
  ∀ (source : List UInt8) (s : TokenStream) (before after : List Token) (t : Token)
    (front back : List UInt8), TokenStream.ofSource source = .ok s → s.tokens = before ++ t :: after →
    lexeme source t = (.attributeGroup, groupMark ++ (front ++ back)) →
    Enclosed (.group .square 0 n) front →
    let source' := insertAt source (t.offset + (groupMark ++ front).length) text
    ∃ s', TokenStream.ofSource source' = .ok s' ∧
      s'.tokens.map (lexeme source') = before.map (lexeme source) ++
        (.attributeGroup, groupMark ++ (front ++ (text ++ back))) :: after.map (lexeme source)

/-- The tokens from an attribute group on, with text put in. -/
theorem Lexes.reads_insert (inSource : InSource source start)
    (first : start.rest = a :: tail)
    (token : readToken start a (start.skip 1) = .ok (.attributeGroup, stop))
    (between : start.bytesTo stop = groupMark ++ (front ++ back)) (others : Lexes stop after)
    (front_front : Enclosed (.group .square 0 n) front)
    (text_text : Enclosed (.group .square n n) text) :
    start.rest = groupMark ++ front ++ (back ++ stop.rest) ∧
      Reads (groupMark ++ front ++ (text ++ (back ++ stop.rest)))
        ((.attributeGroup, groupMark ++ (front ++ (text ++ back))) :: after.map (lexeme source)) := by
  have reaches := (Cursor.Reaches.skip 1 start).trans (reaches_readToken token)
  obtain ⟨own, split⟩ := exists_rest_eq reaches
  obtain rfl : own = groupMark ++ (front ++ back) := (bytesTo_of_reaches reaches split).symm.trans between
  have ahead : start.rest = groupMark ++ (front ++ (back ++ stop.rest)) := by
    rw [split]
    simp only [List.append_assoc]
  obtain rfl : a = byte '#' := by
    rw [first] at ahead
    exact (List.cons.inj ahead).1
  rw [readToken_groupMark ahead] at token
  obtain ⟨_, skipped, e⟩ := eq_ok_of_map_eq_ok token
  cases e
  refine ⟨by rw [ahead, List.append_assoc], ?_⟩
  have later := others.reads (inSource.reaches reaches)
  rw [List.append_assoc]
  refine later.tokenHere (fun c ahead ↦ skipTrivia_groupMark ahead) rfl (by simp [groupMark])
    fun c ahead ↦ ?_
  obtain ⟨stop', skipped', ended⟩ := exists_skipNested_insert front_front text_text skipped rfl
    c.line (c.skip 2).offset (c.skip 2).line
  exact ⟨stop', ended, by rw [readToken_groupMark ahead, skipped']; rfl⟩

theorem hiddenAt_of_enclosed (text_text : Enclosed (.group .square n n) text) : HiddenAt n text := by
  intro source s before after t front back lexed split group front_front source'
  have start : InSource source (.ofSource source) := List.drop_zero
  have kind : t.kind = .attributeGroup := congrArg Prod.fst group
  obtain ⟨bytes, begin, stop, a, rest, ahead, inSource, first, token, own, others, later⟩ :=
    (lexes_of_readTokens lexed).exists_start (start.reaches (reaches_skipInlineText _)) split
      (by rw [kind]; rfl)
  rw [kind] at token own
  have between : begin.bytesTo stop = groupMark ++ (front ++ back) := by
    rw [own, (lexeme_of_readToken inSource first token).1] at group
    exact congrArg Prod.snd group
  obtain ⟨whole, reads⟩ := Lexes.reads_insert inSource first token between others front_front text_text
  have beside := beside_insertAt inSource (by simp [first]) whole text
  have place : begin.offset = t.offset := by rw [own]
  rw [place] at beside
  have splice : Splice begin.rest (groupMark ++ front ++ (text ++ (back ++ stop.rest))) :=
    .start (by decide) (by simp [first]) _
  have same : (groupMark ++ front ++ (text ++ (back ++ stop.rest))).take 2 = begin.rest.take 2 := by
    rw [whole]
    rfl
  exact exists_ofSource_beside splice beside ahead (later _ _ splice same reads)

/-- What stands in an attribute group has the form of what stands between brackets. -/
theorem exists_of_readToken_groupMark (ahead : c.rest = groupMark ++ bytes)
    (token : readToken c (byte '#') (c.skip 1) = .ok (.attributeGroup, stop)) :
    ∃ inner, bytes = inner ++ byte ']' :: stop.rest ∧ Enclosed (.group .square 0 0) inner := by
  rw [readToken_groupMark ahead] at token
  obtain ⟨_, skipped, e⟩ := eq_ok_of_map_eq_ok token
  cases e
  obtain ⟨inner, rest, offset, line, rfl, held, done⟩ := closed_of_skipNested (.bracket ..) skipped
  rw [skipNested] at done
  cases done
  exact ⟨inner, rfl, held.of_bracket⟩

namespace Sample

/-- An attribute group with nothing in it. -/
def emptyGroup : List UInt8 := Ascii.ofString "<?php#[]"

theorem ofSource_emptyGroup :
    TokenStream.ofSource emptyGroup = .ok ⟨[⟨.attributeGroup, 1, 5⟩], 1⟩ := by
  have opened : skipInlineText (.ofSource emptyGroup) = ⟨Ascii.ofString "#[]", 5, 1⟩ := by cbv
  have group : readToken ⟨Ascii.ofString "#[]", 5, 1⟩ 0x23 ⟨Ascii.ofString "[]", 6, 1⟩ =
      .ok (.attributeGroup, ⟨[], 8, 1⟩) := by cbv
  rw [TokenStream.ofSource, opened, readTokens_token (by cbv) (by rfl) group rfl,
    readTokens_done (skipTrivia_nil rfl) rfl]
  rfl

theorem lexeme_emptyGroup :
    lexeme emptyGroup ⟨.attributeGroup, 1, 5⟩ =
      (.attributeGroup, groupMark ++ ([] ++ [byte ']'])) := by
  cbv

end Sample

open ScriptCache.Source.Lexer.Sample in
theorem enclosed_of_hiddenAt (h : HiddenAt 0 text) : Enclosed (.group .square 0 0) text := by
  obtain ⟨s, lexed, lexemes⟩ := h emptyGroup _ [] [] _ [] _ ofSource_emptyGroup rfl
    lexeme_emptyGroup .here
  have inserted : insertAt emptyGroup (5 + (groupMark ++ []).length) text =
      Ascii.ofString "<?php" ++ (groupMark ++ (text ++ [byte ']'])) :=
    insertAt_append (Ascii.ofString "<?php#[") [byte ']'] text
  rw [inserted] at lexed lexemes
  have ahead := rest_skipInlineText (groupMark ++ (text ++ [byte ']']))
  generalize Ascii.ofString "<?php" ++ (groupMark ++ (text ++ [byte ']'])) = source at *
  have start : InSource source (.ofSource source) := List.drop_zero
  have opened := start.reaches (reaches_skipInlineText _)
  obtain ⟨t, others, tokens, group, -⟩ := List.map_eq_cons_iff.mp lexemes
  have lexes := lexes_of_readTokens lexed
  rw [tokens] at lexes
  cases lexes with
  | halt _ _ _ halts =>
    obtain rfl := congrArg Prod.fst group
    cases halts
  | token trivia first token _ _ =>
    rw [skipTrivia_groupMark ahead] at trivia
    cases trivia
    rw [(lexeme_of_readToken opened first token).1] at group
    obtain ⟨rfl, between⟩ := Prod.ext_iff.mp group
    obtain ⟨rfl, -⟩ := List.cons.inj (first.symm.trans ahead)
    have reaches := (Cursor.Reaches.skip 1 _).trans (reaches_readToken token)
    obtain ⟨own, apart⟩ := exists_rest_eq reaches
    have whole : own = groupMark ++ (text ++ [byte ']']) :=
      (bytesTo_of_reaches reaches apart).symm.trans between
    obtain ⟨inner, split, held⟩ := exists_of_readToken_groupMark ahead token
    -- the token ends with the source, so nothing stands behind the bracket that closes it
    rw [ahead, whole, List.self_eq_append_right] at apart
    rw [apart] at split
    rwa [List.append_cancel_right split]

/-- Text is hidden in attribute groups if its strings and square brackets are closed in it. It is
hidden at every place only then, comment or not, and it is if it has no quotes and no square brackets
at all. -/
theorem hidden_iff_enclosed (text : List UInt8) :
    (∀ n, Enclosed (.group .square n n) text → HiddenAt n text) ∧
    ((∀ n, HiddenAt n text) ↔ Enclosed (.group .square 0 0) text) ∧
    ((∀ a ∈ text, a ∉ [Ascii.apostrophe, Ascii.quote, byte '[', byte ']']) → ∀ n, HiddenAt n text) := by
  refine ⟨fun n ↦ hiddenAt_of_enclosed, ⟨fun h ↦ enclosed_of_hiddenAt (h 0), fun h n ↦ ?_⟩,
    fun plain n ↦ hiddenAt_of_enclosed (.of_plain (fun a mem ↦ ?_) n)⟩
  · have within := h.within n
    rw [Nat.zero_add] at within
    exact hiddenAt_of_enclosed within
  · have own := plain a mem
    simp only [List.mem_cons, List.not_mem_nil, or_false, not_or] at own
    exact own

namespace Sample

def commentWith (content : String) : List UInt8 :=
  Ascii.ofString "/*" ++ Ascii.ofString content ++ Ascii.ofString "*/"

end Sample

open ScriptCache.Source.Lexer.Sample in
/-- A comment with brackets that are closed, in a group within the group, and one without brackets. -/
theorem hidden_iff_enclosed_sample :
    Comment (commentWith "[x]") ∧ Enclosed (.group .square 1 1) (commentWith "[x]") ∧
    HiddenAt 1 (commentWith "[x]") ∧
    (∀ a ∈ commentWith "x", a ∉ [Ascii.apostrophe, Ascii.quote, byte '[', byte ']']) ∧
    ∃ s, TokenStream.ofSource (insertAt emptyGroup 7 (commentWith "x")) = .ok s ∧
      s.tokens.map (·.kind) = [.attributeGroup] := by
  have brackets : Enclosed (.group .square 1 1) (commentWith "[x]") := by
    refine .plain (by decide) (by decide) (by decide) (by decide) ?_
    refine .plain (by decide) (by decide) (by decide) (by decide) (.opening ?_)
    refine .plain (by decide) (by decide) (by decide) (by decide) (.closing ?_)
    refine .plain (by decide) (by decide) (by decide) (by decide) ?_
    exact .plain (by decide) (by decide) (by decide) (by decide) .here
  have plain : ∀ a ∈ commentWith "x", a ∉ [Ascii.apostrophe, Ascii.quote, byte '[', byte ']'] := by
    have bytes : commentWith "x" = [0x2F, 0x2A, 0x78, 0x2A, 0x2F] := rfl
    rw [bytes]
    simp only [List.forall_mem_cons]
    exact ⟨by decide, by decide, by decide, by decide, by decide, List.forall_mem_nil _⟩
  obtain ⟨s, lexed, lexemes⟩ := (hidden_iff_enclosed (commentWith "x")).2.2 plain 0 emptyGroup _ [] [] _
    [] _ ofSource_emptyGroup rfl lexeme_emptyGroup .here
  refine ⟨.block (by decide), brackets, (hidden_iff_enclosed _).1 1 brackets, plain, s, lexed, ?_⟩
  have kinds := congrArg (List.map Prod.fst) lexemes
  rwa [List.map_map] at kinds

open ScriptCache.Source.Lexer.Sample in
/-- In a comment, an apostrophe opens a string, an opening bracket opens a group, and a closing bracket
ends the group around the comment. -/
theorem comment_not_hidden :
    Comment (commentWith "'") ∧ Comment (commentWith "[") ∧ Comment (commentWith "]") ∧
    TokenStream.ofSource emptyGroup = .ok ⟨[⟨.attributeGroup, 1, 5⟩], 1⟩ ∧
    TokenStream.ofSource (insertAt emptyGroup 7 (commentWith "'")) = .error ⟨1, .unterminatedString⟩ ∧
    TokenStream.ofSource (insertAt emptyGroup 7 (commentWith "[")) = .error ⟨1, .unclosedGroup '['⟩ ∧
    TokenStream.ofSource (insertAt emptyGroup 7 (commentWith "]")) =
      .ok ⟨[⟨.attributeGroup, 1, 5⟩, ⟨.operator, 1, 10⟩, ⟨.operator, 1, 11⟩, ⟨.closing .square, 1, 12⟩],
        1⟩ := by
  refine ⟨.block (by decide), .block (by decide), .block (by decide), ofSource_emptyGroup, ?_, ?_, ?_⟩
  · have opened : skipInlineText (.ofSource (insertAt emptyGroup 7 (commentWith "'"))) =
        ⟨Ascii.ofString "#[/*'*/]", 5, 1⟩ := by cbv
    have group : readToken ⟨Ascii.ofString "#[/*'*/]", 5, 1⟩ 0x23 ⟨Ascii.ofString "[/*'*/]", 6, 1⟩ =
        .error ⟨1, .unterminatedString⟩ := by cbv
    rw [TokenStream.ofSource, opened, readTokens_error (by cbv) (by rfl) group]
  · have opened : skipInlineText (.ofSource (insertAt emptyGroup 7 (commentWith "["))) =
        ⟨Ascii.ofString "#[/*[*/]", 5, 1⟩ := by cbv
    have group : readToken ⟨Ascii.ofString "#[/*[*/]", 5, 1⟩ 0x23 ⟨Ascii.ofString "[/*[*/]", 6, 1⟩ =
        .error ⟨1, .unclosedGroup '['⟩ := by cbv
    rw [TokenStream.ofSource, opened, readTokens_error (by cbv) (by rfl) group]
  · have opened : skipInlineText (.ofSource (insertAt emptyGroup 7 (commentWith "]"))) =
        ⟨Ascii.ofString "#[/*]*/]", 5, 1⟩ := by cbv
    have group : readToken ⟨Ascii.ofString "#[/*]*/]", 5, 1⟩ 0x23 ⟨Ascii.ofString "[/*]*/]", 6, 1⟩ =
        .ok (.attributeGroup, ⟨Ascii.ofString "*/]", 10, 1⟩) := by cbv
    have star : readToken ⟨Ascii.ofString "*/]", 10, 1⟩ 0x2A ⟨Ascii.ofString "/]", 11, 1⟩ =
        .ok (.operator, ⟨Ascii.ofString "/]", 11, 1⟩) := by cbv
    have slash : readToken ⟨Ascii.ofString "/]", 11, 1⟩ 0x2F ⟨Ascii.ofString "]", 12, 1⟩ =
        .ok (.operator, ⟨Ascii.ofString "]", 12, 1⟩) := by cbv
    have closer : readToken ⟨Ascii.ofString "]", 12, 1⟩ 0x5D ⟨[], 13, 1⟩ =
        .ok (.closing .square, ⟨[], 13, 1⟩) := by cbv
    rw [TokenStream.ofSource, opened, readTokens_token (by cbv) (by rfl) group rfl,
      readTokens_token (by cbv) (by rfl) star rfl, readTokens_token (by cbv) (by rfl) slash rfl,
      readTokens_token (by cbv) (by rfl) closer rfl, readTokens_done (skipTrivia_nil rfl) rfl]
    rfl

end ScriptCache.Source.Lexer
