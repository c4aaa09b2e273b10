import ScriptCache.Proofs.Source.Splice.Literal

/-!
# Tokens in front of an insertion

A token that ends in front of the place is read in both texts, with the same bytes.
-/

namespace ScriptCache.Source.Lexer

open Ascii (byte)

variable {post tail bytes rest pattern text : List UInt8} {b : UInt8} {c c' d start stop : Cursor}
  {kind : TokenKind}

theorem isNameByte_of_isDigit (h : Ascii.isDigit b) : isNameByte b := by
  simp [isNameByte, h]

/-- A name that ends in front of the place is none because of what stands behind it. -/
theorem startsName_of_beside (ahead : c.rest = b :: (bytes ++ post))
    (ahead' : c'.rest = b :: (bytes ++ tail))
    (ended : Beside post tail ((c.skip 1).skipUntil fun ahead ↦ !continuesName ahead) d)
    (starts : startsName c.rest) : startsName c'.rest := by
  rw [startsName_eq, ahead] at starts
  rw [startsName_eq, ahead']
  refine segmentAhead_of_post starts ?_
  cases bytes with
  | cons => exact .inl (by simp)
  | nil =>
    obtain ⟨more, reached, -⟩ := ended
    have length := Cursor.length_skipUntil_le (fun ahead ↦ !continuesName ahead) (c.skip 1)
    rw [reached, Cursor.length_skip, ahead] at length
    obtain rfl : more = [] := by
      apply List.eq_nil_of_length_eq_zero
      simp only [List.length_append, List.length_cons, List.length_nil] at length
      omega
    have stopped := continuesName_skipUntil (c.skip 1)
    rw [reached] at stopped
    exact .inr (startsName_eq_false_of_ended stopped)

/-! ## Look-ahead in both texts -/

theorem Beside.isPrefixOf (splice : Splice post tail) (beside : Beside post tail c c')
    (dark : pattern.all fun b ↦ !isBreak b) (seen : pattern.isPrefixOf c'.rest) :
    pattern.isPrefixOf c.rest := by
  obtain ⟨bytes, ahead, ahead'⟩ := beside
  rw [ahead'] at seen
  rw [ahead]
  exact splice.isPrefixOf dark seen

/-- What is skipped in front of the place was seen there. -/
theorem Beside.isPrefixOf_of_skip (beside : Beside post tail c c') (seen : pattern.isPrefixOf c.rest)
    {n : Nat} (size : pattern.length = n) (within : post.length ≤ (c.skip n).rest.length) :
    pattern.isPrefixOf c'.rest := by
  subst size
  obtain ⟨bytes, ahead, ahead'⟩ := beside
  rw [ahead']
  exact isPrefixOf_of_within ahead seen within

theorem Beside.head?_any {p : UInt8 → Bool} (splice : Splice post tail)
    (beside : Beside post tail c c') (dark : ∀ b, isBreak b → p b = false)
    (h : c'.rest.head?.any p) : c.rest.head?.any p := by
  obtain ⟨bytes, ahead, ahead'⟩ := beside
  rw [ahead'] at h
  rw [ahead]
  exact splice.head?_any dark h

theorem Beside.startsName (splice : Splice post tail) (beside : Beside post tail c c')
    (starts : Lexer.startsName c'.rest) : Lexer.startsName c.rest := by
  obtain ⟨bytes, ahead, ahead'⟩ := beside
  rw [startsName_eq, ahead'] at starts
  rw [startsName_eq, ahead]
  exact splice.segmentAhead isNameStart_dark starts

/-- Digits behind a dot that are in front of the place. -/
theorem Beside.digits (beside : Beside post tail c c') (digits : c.rest.head?.any Ascii.isDigit)
    (within : post.length ≤ (c.skipWhile isNameByte).rest.length) :
    c'.rest.head?.any Ascii.isDigit := by
  have named : c.rest.head?.any isNameByte :=
    (Option.any_eq_true _ _).mpr <| ((Option.any_eq_true _ _).mp digits).imp fun _ digit ↦
      ⟨digit.1, isNameByte_of_isDigit digit.2⟩
  rwa [beside.head? (within.trans_lt (length_skipWhile_lt named))]

theorem exists_map_beside {k : TokenKind} {x x' : Read Cursor} (h : x.map (k, ·) = .ok (kind, d))
    (skips : x = .ok d → ∃ d', x' = .ok d' ∧ Beside post tail d d') :
    ∃ d', x'.map (k, ·) = .ok (kind, d') ∧ Beside post tail d d' := by
  obtain ⟨_, skipped, e⟩ := eq_ok_of_map_eq_ok h
  cases e
  obtain ⟨d', skipped', ended⟩ := skips skipped
  exact ⟨d', by rw [skipped']; rfl, ended⟩

theorem reaches_of_map {k : TokenKind} {x : Read Cursor} (h : x.map (k, ·) = .ok (kind, d))
    (reaches : x = .ok d → c.Reaches d) : c.Reaches d := by
  obtain ⟨_, skipped, e⟩ := eq_ok_of_map_eq_ok h
  cases e
  exact reaches skipped

/-! ## One token -/

/-- The tests are made in the order of the lexer. One that succeeds looked at bytes of the token,
and one that fails does not succeed because of the insertion. -/
theorem exists_readToken_beside (splice : Splice post tail) (ahead : c.rest = b :: (bytes ++ post))
    (ahead' : c'.rest = b :: (bytes ++ tail)) (h : readToken c b (c.skip 1) = .ok (kind, d))
    (within : post.length ≤ d.rest.length) :
    ∃ d', readToken c' b (c'.skip 1) = .ok (kind, d') ∧ Beside post tail d d' := by
  have start : Beside post tail c c' := ⟨b :: bytes, ahead, ahead'⟩
  have beside : Beside post tail (c.skip 1) (c'.skip 1) := by
    refine ⟨bytes, ?_, ?_⟩
    · rw [Cursor.rest_skip, ahead]
      rfl
    · rw [Cursor.rest_skip, ahead']
      rfl
  have unseen {text : String} (dark : (Ascii.ofString text).all fun b ↦ !isBreak b) {first : Prop}
      (other : ¬(first ∧ (Ascii.ofString text).isPrefixOf (c.skip 1).rest)) :
      ¬(first ∧ (Ascii.ofString text).isPrefixOf (c'.skip 1).rest) :=
    mt (And.imp_right (beside.isPrefixOf splice dark)) other
  simp only [readToken] at h ⊢
  by_cases tag : b = byte '?' ∧ (Ascii.ofString ">").isPrefixOf (c.skip 1).rest
  · rw [if_pos tag] at h
    cases h
    have more := within.trans (reaches_skipInlineText _).length_le
    rw [if_pos ⟨tag.1, beside.isPrefixOf_of_skip tag.2 rfl more⟩]
    exact ⟨_, rfl, (beside.skip splice more).skipInlineText splice within⟩
  rw [if_neg tag] at h
  rw [if_neg (unseen (by decide) tag)]
  by_cases group : b = byte '#' ∧ (Ascii.ofString "[").isPrefixOf (c.skip 1).rest
  · rw [if_pos group] at h
    have more := within.trans (reaches_of_map h reaches_skipFrame).length_le
    rw [if_pos ⟨group.1, beside.isPrefixOf_of_skip group.2 rfl more⟩]
    exact exists_map_beside h fun skipped ↦
      exists_skipFrame_beside splice (beside.skip splice more) (.group ..) skipped within
  rw [if_neg group] at h
  rw [if_neg (unseen (by decide) group)]
  by_cases heredoc : b = byte '<' ∧ (Ascii.ofString "<<").isPrefixOf (c.skip 1).rest
  · rw [if_pos heredoc] at h
    have more := within.trans (reaches_of_map h reaches_skipHeredoc).length_le
    rw [if_pos ⟨heredoc.1, beside.isPrefixOf_of_skip heredoc.2 rfl more⟩]
    exact exists_map_beside h fun skipped ↦
      exists_skipHeredoc_beside _ splice (beside.skip splice more) skipped within
  rw [if_neg heredoc] at h
  rw [if_neg (unseen (by decide) heredoc)]
  by_cases name : startsName c.rest
  · rw [if_pos name] at h
    cases h
    have ended := beside.skipName splice within
    have same := start.bytesTo ended
      ((Cursor.Reaches.skip 1 c).trans (Cursor.reaches_skipUntil ..))
      ((Cursor.Reaches.skip 1 c').trans (Cursor.reaches_skipUntil ..))
    rw [if_pos (startsName_of_beside ahead ahead' ended name), same]
    exact ⟨_, rfl, ended⟩
  rw [if_neg name] at h
  rw [if_neg (mt (start.startsName splice) name)]
  by_cases dollar : b = byte '$'
  · rw [if_pos dollar] at h ⊢
    cases h
    exact ⟨_, rfl, beside.skipWhile splice within (.inr isNameByte_dark)⟩
  rw [if_neg dollar] at h ⊢
  by_cases single : b = Ascii.apostrophe
  · rw [if_pos single] at h ⊢
    exact exists_map_beside h fun skipped ↦
      exists_skipFrame_beside splice beside (.single ..) skipped within
  rw [if_neg single] at h ⊢
  by_cases quoted : b = Ascii.quote ∨ b = Ascii.backtick
  · rw [if_pos quoted] at h ⊢
    exact exists_map_beside h fun skipped ↦
      exists_skipFrame_beside splice beside (.quoted ..) skipped within
  rw [if_neg quoted] at h ⊢
  by_cases digit : Ascii.isDigit b
  · rw [if_pos digit] at h ⊢
    cases h
    exact ⟨_, rfl, beside.skipWhile splice within (.inr (dark_of_all (by decide)))⟩
  rw [if_neg digit] at h ⊢
  by_cases fraction : b = byte '.' ∧ (c.skip 1).rest.head?.any Ascii.isDigit
  · rw [if_pos fraction] at h
    cases h
    rw [if_pos ⟨fraction.1, beside.digits fraction.2 within⟩]
    exact ⟨_, rfl, beside.skipWhile splice within (.inr isNameByte_dark)⟩
  rw [if_neg fraction] at h
  rw [if_neg (mt (And.imp_right (beside.head?_any splice (dark_of_all (by decide)))) fraction)]
  by_cases colons : b = byte ':' ∧ (Ascii.ofString ":").isPrefixOf (c.skip 1).rest
  · rw [if_pos colons] at h
    cases h
    rw [if_pos ⟨colons.1, beside.isPrefixOf_of_skip colons.2 rfl within⟩]
    exact ⟨_, rfl, beside.skip splice within⟩
  rw [if_neg colons] at h
  rw [if_neg (unseen (by decide) colons)]
  cases h
  exact ⟨_, rfl, beside⟩

/-! ## Blanks and comments -/

theorem Beside.cons (beside : Beside post tail c c') (first : c.rest = b :: rest)
    (within : post.length ≤ rest.length) :
    ∃ more, rest = more ++ post ∧ c'.rest = b :: (more ++ tail) := by
  obtain ⟨bytes, ahead, ahead'⟩ := beside
  cases bytes with
  | nil =>
    rw [List.nil_append] at ahead
    rw [← ahead, first, List.length_cons] at within
    omega
  | cons a more =>
    obtain ⟨rfl, rfl⟩ := List.cons.inj (first.symm.trans ahead)
    exact ⟨more, rfl, ahead'⟩

/-- The bytes do not end inside a mark of two bytes that starts or ends a comment. -/
def Whole (post : List UInt8) : List UInt8 → Prop
  | [] => False
  | [b] => b ≠ byte '#' ∧ ¬ (b = byte '?' ∧ (Ascii.ofString ">").isPrefixOf post)
  | _ :: _ :: _ => True

theorem take_two_append (same : tail.take 2 = post.take 2) (bytes : List UInt8) :
    (bytes ++ tail).take 2 = (bytes ++ post).take 2 := by
  have fewer (n : Nat) : tail.take (2 - n) = post.take (2 - n) := by
    have few := congrArg (List.take (2 - n)) same
    rwa [List.take_take, List.take_take, Nat.min_eq_left (Nat.sub_le 2 n)] at few
  rw [List.take_append, List.take_append, fewer]

/-- Whether a comment starts or ends is a matter of two bytes. -/
theorem startsLineComment_congr (same : bytes.take 2 = rest.take 2) :
    startsLineComment bytes = startsLineComment rest := by
  have two (bytes : List UInt8) : startsLineComment bytes = startsLineComment (bytes.take 2) := by
    match bytes with
    | [] | [_] | _ :: _ :: _ => rfl
  rw [two bytes, same, ← two]

theorem isPrefixOf_congr (same : bytes.take 2 = rest.take 2) (size : pattern.length = 2) :
    pattern.isPrefixOf bytes = pattern.isPrefixOf rest := by
  have two (bytes : List UInt8) : pattern <+: bytes ↔ pattern <+: bytes.take 2 := by
    rw [List.prefix_take_iff, size]
    simp
  rw [Bool.eq_iff_iff, List.isPrefixOf_iff_prefix, List.isPrefixOf_iff_prefix, two bytes, same,
    ← two]

theorem endsLineComment_congr (same : bytes.take 2 = rest.take 2) :
    endsLineComment bytes = endsLineComment rest := by
  have head (bytes : List UInt8) : bytes.head? = (bytes.take 2).head? := by
    cases bytes <;> rfl
  rw [endsLineComment, endsLineComment, isPrefixOf_congr same rfl, head bytes, same, ← head]

theorem Splice.startsLineComment (splice : Splice post tail)
    (whole : tail.take 2 = post.take 2 ∨ Whole post (b :: bytes))
    (h : startsLineComment (b :: (bytes ++ tail))) :
    Lexer.startsLineComment (b :: (bytes ++ post)) := by
  cases bytes with
  | cons => exact h
  | nil =>
    cases splice with
    | refl => exact h
    | @start e _ breaks more _ =>
      rcases whole with same | whole
      · exact (startsLineComment_congr (take_two_append same [b])).symm.trans h
      · have slash : e ≠ byte '/' := by
          rintro rfl
          revert breaks
          decide
        simp only [List.nil_append, Lexer.startsLineComment, Bool.or_eq_true, Bool.and_eq_true,
          beq_iff_eq] at h
        rcases h with hash | slashes
        · exact absurd hash.1 whole.1
        · exact absurd slashes.2 slash

theorem Beside.skipLineComment (splice : Splice post tail) (beside : Beside post tail c c')
    (h : skipTrivia (c.skipUntil endsLineComment) = .ok d) (ahead : d.rest = bytes ++ post)
    (whole : tail.take 2 = post.take 2 ∨ Whole post bytes) :
    Beside post tail (c.skipUntil endsLineComment) (c'.skipUntil endsLineComment) := by
  have length := (reaches_skipTrivia h).length_le
  rw [ahead, List.length_append] at length
  apply beside.skipUntil (by omega)
  · intro _ more _ longer ends
    cases more with
    | nil => cases longer
    | cons a more =>
      simp only [endsLineComment, Bool.or_eq_true] at ends ⊢
      exact ends.imp id (@Splice.isPrefixOf _ _ (a :: more) _ splice (by decide))
  · intro more reached
    have stopped := stops_skipUntil endsLineComment c
    rw [reached] at stopped length
    rcases stopped with done | stopped
    · have done := List.append_eq_nil_iff.mp done
      left
      rw [done.1, splice.eq_nil done.2, List.append_nil]
    right
    rcases whole with same | whole
    · rwa [endsLineComment_congr (take_two_append same more)]
    rcases more with - | ⟨a, - | ⟨e, more⟩⟩
    · obtain rfl : bytes = [] := by
        apply List.eq_nil_of_length_eq_zero
        simp only [List.nil_append] at length
        omega
      cases whole
    · simp only [endsLineComment, Bool.or_eq_true] at stopped ⊢
      rcases stopped with newline | tag
      · exact .inl newline
      · -- The comment would end at a closing tag that the insertion tears apart.
        obtain ⟨same, tag⟩ := List.cons_prefix_cons.mp (List.isPrefixOf_iff_prefix.mp tag)
        have dark : isDark a := by rw [← same]; decide
        rw [skipTrivia_dark reached dark] at h
        cases h
        obtain rfl : [a] = bytes := List.append_cancel_right (reached.symm.trans ahead)
        exact absurd ⟨same.symm, List.isPrefixOf_iff_prefix.mpr tag⟩ whole.2
    · simp only [endsLineComment, Bool.or_eq_true] at stopped ⊢
      refine stopped.imp id fun tag ↦ ?_
      have size : (Ascii.ofString "?>").length = 2 := rfl
      exact @isPrefixOf_of_length_le _ _ (a :: e :: more) _ tag (by simp [size])

theorem Beside.skipTo (splice : Splice post tail) (beside : Beside post tail c c')
    (dark : pattern.all fun b ↦ !isBreak b) (found : (c.skipUntil (pattern.isPrefixOf ·)).rest ≠ [])
    (within : post.length ≤ ((c.skipUntil (pattern.isPrefixOf ·)).skip pattern.length).rest.length) :
    Beside post tail (c.skipUntil (pattern.isPrefixOf ·)) (c'.skipUntil (pattern.isPrefixOf ·)) ∧
      pattern.isPrefixOf (c'.skipUntil (pattern.isPrefixOf ·)).rest := by
  have seen := (stops_skipUntil (pattern.isPrefixOf ·) c).resolve_left found
  have close : Beside post tail (c.skipUntil (pattern.isPrefixOf ·))
      (c'.skipUntil (pattern.isPrefixOf ·)) := by
    apply beside.skipUntil (within.trans (Cursor.Reaches.skip ..).length_le)
    · intro _ _ _ _ early
      exact splice.isPrefixOf dark early
    · intro _ reached
      exact .inr (isPrefixOf_of_within reached seen within)
  obtain ⟨bytes, reached, reached'⟩ := id close
  refine ⟨close, ?_⟩
  rw [reached']
  exact isPrefixOf_of_within reached seen within

theorem skipTrivia_block (first : c.rest = b :: rest) (dark : isBlank b = false)
    (plain : startsLineComment (b :: rest) = false)
    (opens : (Ascii.ofString "/*").isPrefixOf (b :: rest))
    (closes : ((c.skip 2).skipUntil ((Ascii.ofString "*/").isPrefixOf ·)).rest ≠ []) :
    skipTrivia c =
      skipTrivia (((c.skip 2).skipUntil ((Ascii.ofString "*/").isPrefixOf ·)).skip 2) := by
  rw [skipTrivia_cons first, if_neg (by simp [dark]), if_neg (by simp [plain]), if_pos opens]
  exact if_neg (by simpa using closes)

section Trivia

variable (splice : Splice post tail) (beside : Beside post tail c c') (first : c.rest = b :: rest)
  (dark : ¬isBlank b)
include splice beside first dark

/-- A line comment in front of the place ends there in both texts. -/
theorem exists_comment_beside (starts : startsLineComment (b :: rest))
    (h : skipTrivia ((c.skip 1).skipUntil endsLineComment) = .ok d) (ahead : d.rest = bytes ++ post)
    (whole : tail.take 2 = post.take 2 ∨ Whole post bytes) :
    ∃ e, skipTrivia c' = skipTrivia e ∧
      Beside post tail ((c.skip 1).skipUntil endsLineComment) e := by
  have next : (c.skip 1).rest = rest := by rw [Cursor.rest_skip, first]; rfl
  have left := (reaches_skipTrivia h).length_le.trans (Cursor.length_skipUntil_le ..)
  have beyond : post.length ≤ (c.skip 1).rest.length := by
    rw [ahead, List.length_append] at left
    omega
  obtain ⟨more, rfl, first'⟩ := beside.cons first (next ▸ beyond)
  have starts' : startsLineComment (b :: (more ++ tail)) := by
    cases more with
    | cons => exact starts
    | nil =>
      rw [next, ahead, List.length_append, List.nil_append] at left
      obtain rfl : bytes = [] := List.eq_nil_of_length_eq_zero (by omega)
      have same : tail.take 2 = post.take 2 := whole.resolve_right id
      exact (startsLineComment_congr (take_two_append same [b])).trans starts
  exact ⟨_, skipTrivia_comment first' (by simpa using dark) starts',
    (beside.skip splice beyond).skipLineComment splice h ahead whole⟩

/-- A block comment in front of the place is closed there in both texts. -/
theorem exists_block_beside (plain : ¬startsLineComment (b :: rest))
    (opens : (Ascii.ofString "/*").isPrefixOf (b :: rest))
    (closes : ((c.skip 2).skipUntil ((Ascii.ofString "*/").isPrefixOf ·)).rest ≠ [])
    (beyond : post.length ≤
      (((c.skip 2).skipUntil ((Ascii.ofString "*/").isPrefixOf ·)).skip 2).rest.length) :
    ∃ e, skipTrivia c' = skipTrivia e ∧
      Beside post tail (((c.skip 2).skipUntil ((Ascii.ofString "*/").isPrefixOf ·)).skip 2) e := by
  have inside := beyond.trans <| (Cursor.Reaches.skip 2 _).length_le.trans <|
    Cursor.length_skipUntil_le ..
  obtain ⟨close, closes'⟩ := (beside.skip splice inside).skipTo splice (by decide) closes beyond
  rw [Cursor.length_skip, first, List.length_cons] at inside
  obtain ⟨more, rfl, first'⟩ := beside.cons first (by omega)
  have mark : (Ascii.ofString "/*").length = 2 := rfl
  have opens' : (Ascii.ofString "/*").isPrefixOf (b :: (more ++ tail)) := by
    refine @isPrefixOf_of_within _ _ (b :: more) _ _ first (first ▸ opens) ?_
    rwa [mark, Cursor.length_skip, first, List.length_cons]
  have whole' : Whole post (b :: more) := by
    cases more with
    | cons => trivial
    | nil =>
      have long := (List.isPrefixOf_iff_prefix.mp opens).length_le
      simp only [mark, List.nil_append, List.length_cons] at long inside
      omega
  have plain' : startsLineComment (b :: (more ++ tail)) = false :=
    eq_false_of_ne_true fun starts ↦ plain (splice.startsLineComment (.inr whole') starts)
  have found : ((c'.skip 2).skipUntil ((Ascii.ofString "*/").isPrefixOf ·)).rest ≠ [] := by
    intro done
    rw [done] at closes'
    cases closes'
  exact ⟨_, skipTrivia_block first' (by simpa using dark) plain' opens' found,
    close.skip splice beyond⟩

/-- Where the trivia end in one text, they end in the other. -/
theorem skipTrivia_stops_beside (plain : ¬startsLineComment (b :: rest))
    (noBlock : ¬(Ascii.ofString "/*").isPrefixOf (b :: rest)) (ahead : c.rest = bytes ++ post)
    (whole : tail.take 2 = post.take 2 ∨ Whole post bytes) :
    skipTrivia c' = .ok c' ∧ c'.rest = bytes ++ tail := by
  obtain ⟨more, here, there⟩ := beside
  obtain rfl : more = bytes := List.append_cancel_right (here.symm.trans ahead)
  refine ⟨?_, there⟩
  rw [first] at here
  cases more with
  | nil =>
    have here : b :: rest = post := here
    have same : tail.take 2 = (b :: rest).take 2 := here ▸ whole.resolve_right id
    obtain ⟨rest', rfl⟩ : ∃ rest', tail = b :: rest' := by
      cases tail with
      | nil => cases same
      | cons a tail => exact ⟨tail, by rw [(List.cons.inj same).1]⟩
    rw [← startsLineComment_congr same] at plain
    rw [← isPrefixOf_congr same rfl] at noBlock
    rw [skipTrivia_cons there, if_neg dark, if_neg plain, if_neg noBlock]
  | cons a more =>
    obtain ⟨rfl, rfl⟩ := List.cons.inj here
    have plain' := mt (splice.startsLineComment whole) plain
    have noBlock' : ¬ (Ascii.ofString "/*").isPrefixOf (b :: (more ++ tail)) :=
      mt (@Splice.isPrefixOf _ _ (b :: more) _ splice (by decide)) noBlock
    rw [@skipTrivia_cons _ _ (more ++ tail) there, if_neg dark, if_neg plain', if_neg noBlock']

end Trivia

theorem exists_skipTrivia_beside (splice : Splice post tail) (beside : Beside post tail c c')
    (h : skipTrivia c = .ok d) (ahead : d.rest = bytes ++ post)
    (whole : tail.take 2 = post.take 2 ∨ Whole post bytes) :
    ∃ d', skipTrivia c' = .ok d' ∧ d'.rest = bytes ++ tail := by
  have within : post.length ≤ d.rest.length := by
    rw [ahead, List.length_append]
    omega
  fun_induction skipTrivia c generalizing c' with
  | case1 c done =>
    obtain ⟨more, here, there⟩ := beside
    obtain ⟨rfl, rfl⟩ := List.append_eq_nil_iff.mp (here.symm.trans done)
    obtain rfl := splice.eq_nil rfl
    cases h
    rw [← ahead, done]
    exact ⟨c', skipTrivia_nil there, there⟩
  | case2 c b rest first blank ih =>
    have beyond := within.trans (reaches_skipTrivia h).length_le
    have next : (c.skip 1).rest = rest := by rw [Cursor.rest_skip, first]; rfl
    obtain ⟨more, -, first'⟩ := beside.cons first (next ▸ beyond)
    rw [skipTrivia_blank first' blank]
    exact ih (beside.skip splice beyond) h
  | case3 c b rest first dark starts ih =>
    obtain ⟨e, same, beside⟩ := exists_comment_beside splice beside first dark starts h ahead whole
    rw [same]
    exact ih beside h
  | case4 => cases h
  | case5 c b rest first dark plain opens _ closes =>
    rename_i ih
    have beyond := within.trans (reaches_skipTrivia h).length_le
    obtain ⟨e, same, beside⟩ :=
      exists_block_beside splice beside first dark plain opens (by simpa using closes) beyond
    rw [same]
    exact ih beside h
  | case6 c b rest first dark plain noBlock =>
    cases h
    exact ⟨c', skipTrivia_stops_beside splice beside first dark plain noBlock ahead whole⟩

end ScriptCache.Source.Lexer
