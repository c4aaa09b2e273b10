import ScriptCache.Proofs.Source.Splice.Token
import ScriptCache.Proofs.Source.Unplaced

/-!
# Blanks and comments between tokens

A comment with a blank on either side can be put behind any token that has another one behind it,
whatever the comment holds, and the same tokens are read.
-/

namespace ScriptCache.Source.Lexer

open Ascii (byte)

variable {source post tail bytes between rest content text : List UInt8} {b : UInt8}
  {c c' d start stop : Cursor} {kind : TokenKind} {lexemes : List (TokenKind × List UInt8)}
  {t u : Token} {tokens before after : List Token} {s : TokenStream}

/-! ## One token after the other -/

/-- The tokens read from a cursor on. -/
inductive Lexes : Cursor → List Token → Prop where
  | done {c start : Cursor} (trivia : skipTrivia c = .ok start) (done : start.rest = []) : Lexes c []
  | halt {c start stop : Cursor} {b : UInt8} {rest : List UInt8} {kind : TokenKind}
      (trivia : skipTrivia c = .ok start) (first : start.rest = b :: rest)
      (token : readToken start b (start.skip 1) = .ok (kind, stop)) (halts : isHalt kind) :
      Lexes c [⟨kind, start.line, start.offset⟩]
  | token {c start stop : Cursor} {b : UInt8} {rest : List UInt8} {kind : TokenKind}
      {tokens : List Token} (trivia : skipTrivia c = .ok start) (first : start.rest = b :: rest)
      (token : readToken start b (start.skip 1) = .ok (kind, stop)) (onward : isHalt kind = false)
      (others : Lexes stop tokens) : Lexes c (⟨kind, start.line, start.offset⟩ :: tokens)

theorem lexes_of_readTokens (h : readTokens c = .ok s) : Lexes c s.tokens := by
  fun_induction readTokens c generalizing s with
  | case1 | case3 => cases h
  | case2 _ _ trivia first =>
    cases h
    exact .done trivia first
  | case4 _ _ trivia _ _ first _ _ token =>
    rename_i halts
    cases h
    exact .halt trivia first token halts
  | case5 _ _ trivia _ _ first _ _ token =>
    rename_i onward ih
    obtain ⟨s', others, rfl⟩ := eq_ok_of_map_eq_ok h
    exact .token trivia first token (by simpa using onward) (ih others)

theorem Lexes.ne_nil (h : Lexes c (t :: tokens)) : c.rest ≠ [] := by
  intro done
  have start {start : Cursor} {b : UInt8} {rest : List UInt8} (trivia : skipTrivia c = .ok start)
      (first : start.rest = b :: rest) : False := by
    rw [skipTrivia_nil done] at trivia
    cases trivia
    rw [first] at done
    cases done
  cases h with
  | halt trivia first => exact start trivia first
  | token trivia first => exact start trivia first

/-- Blanks and comments are skipped up to something that begins no line comment. -/
theorem startsLineComment_of_skipTrivia (h : skipTrivia c = .ok start) :
    startsLineComment start.rest = false := by
  fun_induction skipTrivia c with
  | case1 c done => cases h; rw [done]; rfl
  | case4 => cases h
  | case6 c b rest first _ plain =>
    cases h
    rw [first]
    simpa using plain
  | _ => rename_i ih; exact ih h

theorem whole_of_readToken (trivia : skipTrivia c = .ok start)
    (first : start.rest = b :: (bytes ++ post))
    (token : readToken start b (start.skip 1) = .ok (kind, stop))
    (within : post.length ≤ stop.rest.length) : Whole post (b :: bytes) := by
  cases bytes with
  | cons => trivial
  | nil =>
    have next : (start.skip 1).rest = post := by rw [Cursor.rest_skip, first]; rfl
    have two (reaches : ((start.skip 1).skip 1).Reaches stop) (more : post ≠ []) : False := by
      have length := reaches.length_le
      have pos := List.length_pos_iff.mpr more
      rw [Cursor.length_skip, next] at length
      omega
    have plain := startsLineComment_of_skipTrivia trivia
    rw [first, List.nil_append] at plain
    constructor
    · rintro rfl
      cases post with
      | nil => revert plain; decide
      | cons a post =>
        obtain rfl : a = byte '[' := by
          simp only [startsLineComment, beq_self_eq_true, Bool.true_and, Bool.or_eq_false_iff] at plain
          simpa using plain.1
        have opens : (Ascii.ofString "[").isPrefixOf (start.skip 1).rest := by
          rw [next]
          rfl
        have other : byte '#' ≠ byte '?' := by decide
        simp only [readToken, other, false_and, if_false, opens, and_self, if_true] at token
        obtain ⟨_, skipped, e⟩ := eq_ok_of_map_eq_ok token
        cases e
        exact two (reaches_skipFrame skipped) (by simp)
    · rintro ⟨rfl, closes⟩
      rw [← next] at closes
      simp only [readToken, closes, and_self, if_true] at token
      cases token
      refine two (reaches_skipInlineText _) ?_
      rintro rfl
      rw [next] at closes
      cases closes

/-! ## What is read in both texts -/

theorem exists_next_beside (splice : Splice post tail) (trivia : skipTrivia c = .ok start)
    (first : start.rest = b :: rest) (token : readToken start b (start.skip 1) = .ok (kind, stop))
    (ahead : c.rest = bytes ++ post) (behind : post.length ≤ stop.rest.length)
    (ahead' : c'.rest = bytes ++ tail) :
    ∃ start' stop' rest', skipTrivia c' = .ok start' ∧ start'.rest = b :: rest' ∧
      readToken start' b (start'.skip 1) = .ok (kind, stop') ∧ Beside post tail stop stop' ∧
      start'.bytesTo stop' = start.bytesTo stop := by
  have next : (start.skip 1).rest = rest := by rw [Cursor.rest_skip, first]; rfl
  obtain ⟨more, rfl⟩ : ∃ more, rest = more ++ post := by
    obtain ⟨front, split⟩ := exists_rest_eq ((reaches_skipTrivia trivia).trans
      ((Cursor.Reaches.skip 1 start).trans (reaches_readToken token)))
    obtain ⟨back, suffix⟩ := List.suffix_of_suffix_length_le ⟨bytes, ahead.symm⟩
      ⟨front, split.symm⟩ behind
    obtain ⟨middle, split⟩ := exists_rest_eq (reaches_readToken token)
    exact ⟨middle ++ back, by rw [← next, split, ← suffix, List.append_assoc]⟩
  have whole := whole_of_readToken trivia first token behind
  obtain ⟨start', trivia', first'⟩ := exists_skipTrivia_beside splice
    ⟨bytes, ahead, ahead'⟩ trivia (show start.rest = b :: more ++ post from first) (.inr whole)
  obtain ⟨stop', token', ended⟩ := exists_readToken_beside splice first first' token behind
  have reaches' := (Cursor.Reaches.skip 1 start').trans (reaches_readToken token')
  exact ⟨start', stop', _, trivia', first', token', ended,
    Beside.bytesTo ⟨b :: more, first, first'⟩ ended
      ((Cursor.Reaches.skip 1 start).trans (reaches_readToken token)) reaches'⟩

theorem lexeme_of_readToken (inSource : InSource source start) (first : start.rest = b :: rest)
    (token : readToken start b (start.skip 1) = .ok (kind, stop)) :
    lexeme source ⟨kind, start.line, start.offset⟩ = (kind, start.bytesTo stop) ∧
      start.offset + (start.bytesTo stop).length = stop.offset := by
  refine ⟨lexeme_eq inSource first token, ?_⟩
  obtain ⟨n, rfl⟩ := (Cursor.Reaches.skip 1 start).trans (reaches_readToken token)
  rw [Cursor.bytesTo, offset_skip, Nat.add_sub_cancel_left, List.length_take]
  omega

/-- A token that ends in front of the place is read, and what comes next is known. -/
theorem Reads.next (splice : Splice post tail)
    (trivia : skipTrivia c = .ok start) (first : start.rest = b :: rest)
    (token : readToken start b (start.skip 1) = .ok (kind, stop)) (onward : isHalt kind = false)
    (ahead : c.rest = between ++ (bytes ++ post)) (behind : stop.rest = bytes ++ post)
    (h : Reads (bytes ++ tail) lexemes) :
    Reads (between ++ (bytes ++ tail)) ((kind, start.bytesTo stop) :: lexemes) := by
  intro source' c' inSource' ahead'
  rw [← List.append_assoc] at ahead ahead'
  obtain ⟨start', stop', _, trivia', first', token', ended, same⟩ :=
    exists_next_beside splice trivia first token ahead (by rw [behind]; simp) ahead'
  have inSource' := inSource'.reaches (reaches_skipTrivia trivia')
  have reaches' := (Cursor.Reaches.skip 1 start').trans (reaches_readToken token')
  have behind' : stop'.rest = bytes ++ tail := by
    obtain ⟨more, here, there⟩ := ended
    obtain rfl : more = bytes := List.append_cancel_right (here.symm.trans behind)
    exact there
  obtain ⟨s, others, lexemes⟩ := h source' stop' (inSource'.reaches reaches') behind'
  refine ⟨_, by rw [readTokens_token trivia' first' token' onward, others]; rfl, ?_⟩
  rw [List.map_cons, lexemes, lexeme_eq inSource' first' token', same]

/-- What was read somewhere is read off the same bytes everywhere. -/
theorem Lexes.reads (h : Lexes c tokens) (inSource : InSource source c) :
    Reads c.rest (tokens.map (lexeme source)) := by
  have same : ∀ bytes : List UInt8, bytes = bytes ++ [] := fun bytes ↦ (List.append_nil bytes).symm
  induction h with
  | @done c start trivia done =>
    intro source' c' inSource' ahead'
    obtain ⟨start', trivia', done'⟩ := exists_skipTrivia_beside (.refl [])
      ⟨c.rest, same _, ahead'.trans (same _)⟩ trivia (same _) (.inl rfl)
    rw [done] at done'
    exact ⟨_, readTokens_done trivia' done', rfl⟩
  | @halt c start stop b rest kind trivia first token halts =>
    intro source' c' inSource' ahead'
    have inStart := inSource.reaches (reaches_skipTrivia trivia)
    obtain ⟨start', stop', _, trivia', first', token', -, text⟩ :=
      exists_next_beside (.refl []) trivia first token (same _) (Nat.zero_le _)
        (ahead'.trans (same _))
    have inStart' := inSource'.reaches (reaches_skipTrivia trivia')
    refine ⟨⟨[⟨kind, start'.line, start'.offset⟩], stop'.line⟩, ?_, ?_⟩
    · rw [readTokens_eq, trivia']
      simp [first', token', halts]
    · rw [List.map_cons, List.map_cons, lexeme_eq inStart' first' token',
        lexeme_eq inStart first token, text]
      rfl
  | @token c start stop _ _ _ _ trivia first token onward others ih =>
    have inStart := inSource.reaches (reaches_skipTrivia trivia)
    have reaches := (Cursor.Reaches.skip 1 start).trans (reaches_readToken token)
    obtain ⟨between, split⟩ := exists_rest_eq ((reaches_skipTrivia trivia).trans reaches)
    have later : Reads (stop.rest ++ []) _ := same stop.rest ▸ ih (inStart.reaches reaches)
    have next := later.next (.refl []) trivia first token onward (split.trans (by rw [← same]))
      (same _)
    rw [← same, ← split] at next
    rwa [List.map_cons, lexeme_eq inStart first token]

/-- What is read of the first tokens does not depend on the text behind the bytes of the next one. -/
theorem Lexes.exists_middle (h : Lexes c tokens) (inSource : InSource source c)
    (split : tokens = before ++ after) (more : after ≠ []) :
    ∃ front middle, c.rest = front ++ middle.rest ∧ InSource source middle ∧ Lexes middle after ∧
      ∀ bytes post tail lexemes, middle.rest = bytes ++ post → Splice post tail →
        Reads (bytes ++ tail) lexemes →
        Reads (front ++ (bytes ++ tail)) (before.map (lexeme source) ++ lexemes) := by
  induction before generalizing c tokens with
  | nil =>
    subst split
    exact ⟨[], c, rfl, inSource, h, fun _ _ _ _ _ _ reads ↦ reads⟩
  | cons a before ih =>
    cases h with
    | done => cases split
    | halt => exact (more (List.append_eq_nil_iff.mp (List.cons.inj split).2.symm).2).elim
    | @token _ start stop _ _ _ _ trivia first token onward others =>
      obtain ⟨rfl, rfl⟩ := List.cons.inj split
      have inStart := inSource.reaches (reaches_skipTrivia trivia)
      have reaches := (Cursor.Reaches.skip 1 start).trans (reaches_readToken token)
      obtain ⟨between, apart⟩ := exists_rest_eq ((reaches_skipTrivia trivia).trans reaches)
      obtain ⟨text, -⟩ := lexeme_of_readToken inStart first token
      obtain ⟨front, middle, ahead, inMiddle, here, later⟩ := ih others (inStart.reaches reaches) rfl
      refine ⟨between ++ front, middle, by rw [apart, ahead, List.append_assoc], inMiddle, here,
        fun bytes post tail lexemes behind splice reads ↦ ?_⟩
      have inserted := later bytes post tail lexemes behind splice reads
      rw [List.map_cons, text, List.append_assoc]
      rw [← List.append_assoc front] at inserted ⊢
      exact inserted.next splice trivia first token onward
        (by rw [apart, ahead, behind, List.append_assoc]) (by rw [ahead, behind, List.append_assoc])

/-- Text put in behind a token is all that has to be looked at. -/
theorem Lexes.exists_split (h : Lexes c tokens) (inSource : InSource source c)
    (split : tokens = before ++ t :: u :: after) :
    ∃ bytes post, c.rest = bytes ++ post ∧ post ≠ [] ∧
      source.drop (t.offset + (lexeme source t).2.length) = post ∧
      Reads post ((u :: after).map (lexeme source)) ∧
      ∀ tail, Splice post tail → Reads tail ((u :: after).map (lexeme source)) →
        Reads (bytes ++ tail) (tokens.map (lexeme source)) := by
  obtain ⟨front, middle, ahead, inMiddle, here, later⟩ := h.exists_middle inSource split (by simp)
  cases here with
  | @token _ start stop _ _ _ _ trivia first token onward others =>
    have inStart := inMiddle.reaches (reaches_skipTrivia trivia)
    have reaches := (Cursor.Reaches.skip 1 start).trans (reaches_readToken token)
    obtain ⟨between, apart⟩ := exists_rest_eq ((reaches_skipTrivia trivia).trans reaches)
    obtain ⟨text, ended⟩ := lexeme_of_readToken inStart first token
    refine ⟨front ++ between, stop.rest, by rw [ahead, apart, List.append_assoc], others.ne_nil, ?_,
      others.reads (inStart.reaches reaches), fun tail splice reads ↦ ?_⟩
    · rw [text, ended]
      exact inStart.reaches reaches
    · rw [split, List.map_append, List.map_cons, text, List.append_assoc]
      exact later between stop.rest tail _ apart splice
        (Reads.next splice trivia first token onward
          (show _ = between ++ ([] ++ stop.rest) from apart) rfl reads)

/-- A source that goes on in another way behind some bytes has the tokens read there. -/
theorem exists_ofSource_beside {source' : List UInt8} (splice : Splice post tail)
    (beside : Beside post tail (.ofSource source) (.ofSource source'))
    (ahead : (skipInlineText (.ofSource source)).rest = bytes ++ post)
    (reads : Reads (bytes ++ tail) lexemes) :
    ∃ s', TokenStream.ofSource source' = .ok s' ∧ s'.tokens.map (lexeme source') = lexemes := by
  have start : InSource source' (.ofSource source') := List.drop_zero
  obtain ⟨bytes', ahead', there⟩ := beside.skipInlineText splice
    (by rw [ahead, List.length_append]; exact Nat.le_add_left ..)
  obtain rfl : bytes' = bytes := List.append_cancel_right (ahead'.symm.trans ahead)
  exact reads _ _ (start.reaches (reaches_skipInlineText _)) there

/-! ## Comments -/

/-- A comment, with the newline that ends it when it is one of a line. -/
inductive Comment : List UInt8 → Prop where
  | block {content : List UInt8} (closed : ¬ Ascii.ofString "*/" <:+: content) :
      Comment (Ascii.ofString "/*" ++ content ++ Ascii.ofString "*/")
  | slashes {content : List UInt8} (line : Cursor.newline ∉ content)
      (tag : ¬ Ascii.ofString "?>" <:+: content) :
      Comment (Ascii.ofString "//" ++ content ++ [Cursor.newline])
  | hash {content : List UInt8} (line : Cursor.newline ∉ content)
      (tag : ¬ Ascii.ofString "?>" <:+: content) (group : content.head? ≠ some (byte '[')) :
      Comment (Ascii.ofString "#" ++ content ++ [Cursor.newline])

/-- A comment between two blanks. -/
inductive Gap : List UInt8 → Prop where
  | mk {b b' : UInt8} {comment : List UInt8} (blank : isBlank b) (content : Comment comment)
      (blank' : isBlank b') : Gap (b :: (comment ++ [b']))

theorem passes_of_avoids {last : UInt8} (fresh : ¬ [b, last] <:+: content)
    (other : rest.head? ≠ some last) :
    Passes ([b, last].isPrefixOf ·) rest content := by
  induction content with
  | nil => trivial
  | cons a content ih =>
    refine ⟨?_, ih fun inside ↦ fresh (inside.trans (List.infix_cons_iff.mpr (.inr (List.infix_refl _))))⟩
    apply eq_false_of_ne_true
    intro seen
    obtain ⟨rfl, second⟩ := List.cons_prefix_cons.mp (List.isPrefixOf_iff_prefix.mp seen)
    cases content with
    | nil =>
      obtain ⟨more, eq⟩ := second
      exact other (by rw [← List.nil_append rest, ← eq]; rfl)
    | cons e content =>
      obtain ⟨rfl, -⟩ := List.cons_prefix_cons.mp second
      exact fresh ⟨[], content, rfl⟩

theorem passes_lineComment (line : Cursor.newline ∉ content)
    (tag : ¬ Ascii.ofString "?>" <:+: content) :
    Passes endsLineComment (Cursor.newline :: rest) content := by
  have mark : Ascii.ofString "?>" = [byte '?', byte '>'] := by decide
  rw [mark] at tag
  have other : Cursor.newline ≠ byte '>' := by decide
  have tags : Passes ([byte '?', byte '>'].isPrefixOf ·) (Cursor.newline :: rest) content :=
    passes_of_avoids tag (by simpa using other)
  clear tag
  induction content with
  | nil => trivial
  | cons a content ih =>
    obtain ⟨first, tags⟩ := tags
    rw [List.mem_cons, not_or] at line
    refine ⟨?_, ih line.2 tags⟩
    rw [endsLineComment, mark, Bool.or_eq_false_iff]
    exact ⟨by simpa using Ne.symm line.1, first⟩

theorem exists_skipTrivia_block (closed : ¬ Ascii.ofString "*/" <:+: content)
    (ahead : c.rest = byte '/' :: byte '*' :: (content ++ byte '*' :: byte '/' :: rest)) :
    ∃ d, c.Reaches d ∧ d.rest = rest ∧ skipTrivia c = skipTrivia d := by
  have mark : Ascii.ofString "*/" = [byte '*', byte '/'] := by decide
  have inside : (c.skip 2).rest = content ++ byte '*' :: byte '/' :: rest := by
    rw [Cursor.rest_skip, ahead]
    rfl
  have close : (c.skip 2).skipUntil ((Ascii.ofString "*/").isPrefixOf ·) =
      (c.skip 2).skip content.length := by
    have other : byte '*' ≠ byte '/' := by decide
    rw [mark] at closed ⊢
    exact skipUntil_of_passes (passes_of_avoids closed (by simpa using other)) (.inr (by simp))
      inside
  have closeRest : ((c.skip 2).skip content.length).rest = byte '*' :: byte '/' :: rest := by
    rw [Cursor.rest_skip, inside]
    exact List.drop_left
  refine ⟨((c.skip 2).skip content.length).skip 2,
    (Cursor.Reaches.skip 2 c).trans ((Cursor.Reaches.skip ..).trans (.skip ..)), ?_, ?_⟩
  · rw [Cursor.rest_skip, closeRest]
    rfl
  · rw [skipTrivia_block ahead (by decide) rfl rfl (by rw [close, closeRest]; simp), close]

theorem Reads.skipComment (h : Reads rest lexemes) (comment : Comment text) :
    Reads (text ++ rest) lexemes := by
  have newline : Reads (Cursor.newline :: rest) lexemes := h.blank (by decide)
  cases comment with
  | @block content closed =>
    refine h.trivia fun c ahead ↦ exists_skipTrivia_block closed ?_
    rw [ahead, List.append_assoc, List.append_assoc]
    rfl
  | @slashes content line tag =>
    have passes : Passes endsLineComment (Cursor.newline :: rest) (byte '/' :: content) :=
      ⟨rfl, passes_lineComment line tag⟩
    have read := newline.comment (b := byte '/') (by decide) rfl passes
    rw [List.append_assoc, List.append_assoc]
    exact read
  | @hash content line tag group =>
    have starts : startsLineComment (byte '#' :: (content ++ Cursor.newline :: rest)) := by
      cases content with
      | nil => rfl
      | cons a content =>
        have other : a ≠ byte '[' := fun same ↦ group (congrArg some same)
        simp only [List.cons_append, startsLineComment, bne_iff_ne.mpr other]
        rfl
    have read := newline.comment (by decide) starts (passes_lineComment line tag)
    rw [List.append_assoc, List.append_assoc]
    exact read

theorem Reads.gap (h : Reads rest lexemes) (gap : Gap text) : Reads (text ++ rest) lexemes := by
  obtain ⟨blank, comment, blank'⟩ := gap
  rw [List.cons_append, List.append_assoc]
  exact (Reads.skipComment (h.blank blank') comment).blank blank

/-- The source with `text` put in where the token ends. The end of a closing tag is behind the text
outside of tags and the next open tag, which are read along with it. -/
def insertBehind (source : List UInt8) (t : Token) (text : List UInt8) : List UInt8 :=
  let stop := t.offset + (lexeme source t).2.length
  source.take stop ++ (text ++ source.drop stop)

/-- All tokens are read again, with the bytes they are made of. -/
theorem exists_ofSource_insertBehind (lexed : TokenStream.ofSource source = .ok s)
    (split : s.tokens = before ++ t :: u :: after) (gap : Gap text) :
    ∃ s', TokenStream.ofSource (insertBehind source t text) = .ok s' ∧
      s'.tokens.map (lexeme (insertBehind source t text)) = s.tokens.map (lexeme source) := by
  have start : InSource source (.ofSource source) := List.drop_zero
  obtain ⟨bytes, post, ahead, more, place, reads, later⟩ :=
    (lexes_of_readTokens lexed).exists_split (start.reaches (reaches_skipInlineText _)) split
  have splice : Splice post (text ++ post) := by
    obtain ⟨blank, -, -⟩ := gap
    exact .start (isBreak_of_isBlank blank) more _
  have beside : Beside post (text ++ post) (.ofSource source)
      (.ofSource (insertBehind source t text)) := by
    refine ⟨source.take (t.offset + (lexeme source t).2.length), ?_, ?_⟩
    · rw [← place, List.take_append_drop]
      rfl
    · rw [← place]
      rfl
  exact exists_ofSource_beside splice beside ahead (later _ splice (reads.gap gap))

end Lexer

open Lexer

/-- A comment between tokens is neither seen by the lexer nor by the parser. -/
theorem insertBehind_changes_nothing (source text : List UInt8) (s : TokenStream)
    (before after : List Token) (t u : Token) (lexed : TokenStream.ofSource source = .ok s)
    (split : s.tokens = before ++ t :: u :: after) (gap : Gap text) :
    (∃ s', TokenStream.ofSource (insertBehind source t text) = .ok s' ∧
        s'.tokens.map (·.kind) = s.tokens.map (·.kind)) ∧
      ((Statement.ofSource (insertBehind source t text)).isOk ↔
        (Statement.ofSource source).isOk) ∧
      (Statement.ofSource (insertBehind source t text)).toOption.map declaredTypes =
        (Statement.ofSource source).toOption.map declaredTypes := by
  obtain ⟨s', lexed', lexemes⟩ := exists_ofSource_insertBehind lexed split gap
  have kinds : s'.tokens.map (·.kind) = s.tokens.map (·.kind) := by
    have kinds := congrArg (List.map Prod.fst) lexemes
    rw [List.map_map, List.map_map] at kinds
    exact kinds
  have types := declaredTypes_ofTokens kinds
  have ofSource : Statement.ofSource source = Statement.ofTokens s := by
    rw [Statement.ofSource, lexed]
    rfl
  have ofSource' : Statement.ofSource (insertBehind source t text) = Statement.ofTokens s' := by
    rw [Statement.ofSource, lexed']
    rfl
  rw [ofSource, ofSource']
  refine ⟨⟨s', lexed', kinds⟩, ?_, types⟩
  cases ok : Statement.ofTokens s <;> cases ok' : Statement.ofTokens s' <;>
    simp_all [Except.isOk, Except.toBool, Except.toOption]

namespace Lexer.Sample

def source : List UInt8 := Ascii.ofString "<?php class A\x7b\x7d"

def gap : List UInt8 := Ascii.ofString " /*class B\x7b '*/ "

theorem gap_gap : Gap gap :=
  @Gap.mk 0x20 0x20 _ rfl (@Comment.block (Ascii.ofString "class B\x7b '") (by decide)) rfl

theorem ofSource_source : TokenStream.ofSource source =
    .ok ⟨[⟨.name "class", 1, 6⟩, ⟨.name "A", 1, 12⟩, ⟨.opening .brace, 1, 13⟩,
      ⟨.closing .brace, 1, 14⟩], 1⟩ := by
  have opened : skipInlineText (.ofSource source) = ⟨Ascii.ofString " class A\x7b\x7d", 5, 1⟩ := by cbv
  have word : readToken ⟨Ascii.ofString "class A\x7b\x7d", 6, 1⟩ 0x63 ⟨Ascii.ofString "lass A\x7b\x7d", 7, 1⟩ =
      .ok (.name "class", ⟨Ascii.ofString " A\x7b\x7d", 11, 1⟩) := by cbv
  have name : readToken ⟨Ascii.ofString "A\x7b\x7d", 12, 1⟩ 0x41 ⟨Ascii.ofString "\x7b\x7d", 13, 1⟩ =
      .ok (.name "A", ⟨Ascii.ofString "\x7b\x7d", 13, 1⟩) := by cbv
  have opener : readToken ⟨Ascii.ofString "\x7b\x7d", 13, 1⟩ 0x7B ⟨Ascii.ofString "\x7d", 14, 1⟩ =
      .ok (.opening .brace, ⟨Ascii.ofString "\x7d", 14, 1⟩) := by cbv
  have closer : readToken ⟨Ascii.ofString "\x7d", 14, 1⟩ 0x7D ⟨[], 15, 1⟩ =
      .ok (.closing .brace, ⟨[], 15, 1⟩) := by cbv
  rw [TokenStream.ofSource, opened,
    readTokens_token (by cbv) (by rfl) word (by cbv),
    readTokens_token (by cbv) (by rfl) name (by cbv),
    readTokens_token (by cbv) (by rfl) opener rfl,
    readTokens_token (by cbv) (by rfl) closer rfl,
    readTokens_done (skipTrivia_nil rfl) rfl]
  rfl

end Lexer.Sample

open Lexer.Sample

theorem insertBehind_changes_nothing_sample :
    TokenStream.ofSource source =
      .ok ⟨[⟨.name "class", 1, 6⟩, ⟨.name "A", 1, 12⟩, ⟨.opening .brace, 1, 13⟩,
        ⟨.closing .brace, 1, 14⟩], 1⟩ ∧
      Gap gap ∧
      (∃ s', TokenStream.ofSource (insertBehind source ⟨.name "A", 1, 12⟩ gap) = .ok s' ∧
        s'.tokens.map (·.kind) =
          [.name "class", .name "A", .opening .brace, .closing .brace]) ∧
      ((Statement.ofSource (insertBehind source ⟨.name "A", 1, 12⟩ gap)).isOk ↔
        (Statement.ofSource source).isOk) ∧
      (Statement.ofSource (insertBehind source ⟨.name "A", 1, 12⟩ gap)).toOption.map declaredTypes =
        (Statement.ofSource source).toOption.map declaredTypes :=
  ⟨ofSource_source, gap_gap,
    insertBehind_changes_nothing source gap _ [⟨.name "class", 1, 6⟩] [⟨.closing .brace, 1, 14⟩]
      ⟨.name "A", 1, 12⟩ ⟨.opening .brace, 1, 13⟩ ofSource_source rfl gap_gap⟩

end ScriptCache.Source
