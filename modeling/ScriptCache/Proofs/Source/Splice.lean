import ScriptCache.Proofs.Source.Tokens

/-!
# Reading in front of an insertion

Two texts agree up to some place, and go on there with `post` in one and with `tail` in the
other. `Splice` is the case of a `tail` that begins with a blank or a `#`. A reader that stays in
front of the place in one text then moves alike in the other: it may look past the place, but no
look-ahead takes such a byte for more of what it has read.
-/

namespace ScriptCache.Source.Lexer

open Ascii (byte)

/-- A blank, or the mark in front of a comment or an attribute group. -/
def isBreak (b : UInt8) : Bool := isBlank b || b == byte '#'

theorem isBreak_of_isBlank {b : UInt8} (blank : isBlank b) : isBreak b := by
  rw [isBreak, blank, Bool.true_or]

inductive Splice : List UInt8 → List UInt8 → Prop where
  | refl (post : List UInt8) : Splice post post
  | start {b : UInt8} {post : List UInt8} (breaks : isBreak b) (more : post ≠ [])
      (tail : List UInt8) : Splice post (b :: tail)

/-- The bytes ahead are the same up to the place. -/
def Beside (post tail : List UInt8) (c c' : Cursor) : Prop :=
  ∃ bytes, c.rest = bytes ++ post ∧ c'.rest = bytes ++ tail

variable {post tail bytes pattern label : List UInt8} {c c' d d' : Cursor} {b : UInt8}
  {stop : List UInt8 → Bool} {p : UInt8 → Bool}

/-! ## Look-ahead -/

theorem isPrefixOf_of_break (breaks : isBreak b) (dark : pattern.all fun b ↦ !isBreak b)
    (h : pattern.isPrefixOf (bytes ++ b :: tail)) : pattern.isPrefixOf bytes := by
  rw [List.isPrefixOf_iff_prefix] at h ⊢
  rcases List.prefix_or_prefix_of_prefix h (List.prefix_append bytes _) with inside | ⟨more, rfl⟩
  · exact inside
  · have behind := (List.prefix_append_right_inj bytes).mp h
    cases more with
    | nil => simp
    | cons a more =>
      obtain ⟨rfl, -⟩ := List.cons_prefix_cons.mp behind
      simp [breaks] at dark

namespace Splice

theorem eq_nil (splice : Splice post tail) (h : post = []) : tail = [] := by
  cases splice with
  | refl => exact h
  | start _ more _ => exact absurd h more

theorem head?_any (splice : Splice post tail) (dark : ∀ b, isBreak b → p b = false)
    (h : (bytes ++ tail).head?.any p) : (bytes ++ post).head?.any p := by
  cases bytes with
  | cons b bytes => exact h
  | nil =>
    cases splice with
    | refl => exact h
    | start breaks _ _ =>
      rw [List.nil_append, List.head?_cons, Option.any_some, dark _ breaks] at h
      cases h

/-- A pattern without such bytes that is seen across the insertion was there without it. -/
theorem isPrefixOf (splice : Splice post tail) (dark : pattern.all fun b ↦ !isBreak b)
    (h : pattern.isPrefixOf (bytes ++ tail)) : pattern.isPrefixOf (bytes ++ post) := by
  cases splice with
  | refl => exact h
  | start breaks _ _ =>
    have inside := isPrefixOf_of_break breaks dark h
    rw [List.isPrefixOf_iff_prefix] at inside ⊢
    exact inside.trans (List.prefix_append _ _)

end Splice

theorem isPrefixOf_of_length_le (h : pattern.isPrefixOf (bytes ++ post))
    (fits : pattern.length ≤ bytes.length) : pattern.isPrefixOf (bytes ++ tail) := by
  rw [List.isPrefixOf_iff_prefix] at h ⊢
  exact (List.prefix_of_prefix_length_le h (List.prefix_append _ _) fits).trans
    (List.prefix_append _ _)

/-! ## Skipping bytes -/

theorem exists_rest_eq (h : c.Reaches d) : ∃ between, c.rest = between ++ d.rest := by
  obtain ⟨n, rfl⟩ := h
  exact ⟨c.rest.take n, by rw [Cursor.rest_skip, List.take_append_drop]⟩

theorem Beside.bytesTo (start : Beside post tail c c') (ended : Beside post tail d d')
    (reaches : c.Reaches d) (reaches' : c'.Reaches d') : c'.bytesTo d' = c.bytesTo d := by
  obtain ⟨bytes, ahead, ahead'⟩ := start
  obtain ⟨rest, same, same'⟩ := ended
  obtain ⟨between, split⟩ := exists_rest_eq reaches
  obtain rfl : bytes = between ++ rest := by
    apply @List.append_cancel_right _ _ post
    rw [← ahead, split, same, List.append_assoc]
  have split' : c'.rest = between ++ d'.rest := by rw [ahead', same', List.append_assoc]
  rw [bytesTo_of_reaches reaches split, bytesTo_of_reaches reaches' split']

theorem Beside.skip (splice : Splice post tail) (h : Beside post tail c c') {n : Nat}
    (within : post.length ≤ (c.skip n).rest.length) : Beside post tail (c.skip n) (c'.skip n) := by
  obtain ⟨bytes, ahead, ahead'⟩ := h
  rw [Cursor.length_skip, ahead, List.length_append] at within
  by_cases fits : n ≤ bytes.length
  · refine ⟨bytes.drop n, ?_, ?_⟩
    · rw [Cursor.rest_skip, ahead, List.drop_append_of_le_length fits]
    · rw [Cursor.rest_skip, ahead', List.drop_append_of_le_length fits]
  · have done : post = [] := List.eq_nil_of_length_eq_zero (by omega)
    have done' : tail = [] := splice.eq_nil done
    refine ⟨bytes.drop n, ?_, ?_⟩
    · rw [Cursor.rest_skip, ahead, done, List.append_nil, List.append_nil]
    · rw [Cursor.rest_skip, ahead', done', List.append_nil, List.append_nil]

theorem isPrefixOf_of_within (ahead : c.rest = bytes ++ post) (seen : pattern.isPrefixOf c.rest)
    (within : post.length ≤ (c.skip pattern.length).rest.length) :
    pattern.isPrefixOf (bytes ++ tail) := by
  have long := (List.isPrefixOf_iff_prefix.mp seen).length_le
  rw [Cursor.length_skip] at within
  rw [ahead, List.length_append] at long within
  rw [ahead] at seen
  exact isPrefixOf_of_length_le seen (by omega)

theorem stops_skipUntil (stop : List UInt8 → Bool) (c : Cursor) :
    (c.skipUntil stop).rest = [] ∨ stop (c.skipUntil stop).rest := by
  obtain ⟨rest, offset, line⟩ := c
  rw [Cursor.skipUntil]
  induction rest generalizing offset line with
  | nil => exact .inl rfl
  | cons b rest ih =>
    simp only [Cursor.skipUntil.go]
    split
    · right; assumption
    · exact ih _ _

theorem length_skipWhile_lt (more : c.rest.head?.any p) :
    (c.skipWhile p).rest.length < c.rest.length := by
  obtain ⟨rest, offset, line⟩ := c
  cases rest with
  | nil => cases more
  | cons b rest =>
    have step : Cursor.skipWhile p ⟨b :: rest, offset, line⟩ =
        Cursor.skipWhile p ⟨rest, offset + 1, Cursor.lineAfter b line⟩ := by
      have more : p b := more
      simp [Cursor.skipWhile, Cursor.skipUntil, Cursor.skipUntil.go, more]
    rw [step]
    exact Nat.lt_succ_of_le (Cursor.length_skipWhile_le ..)

/-- The readers stop at the same byte, when none that was passed is one to stop at now. -/
theorem rest_skipUntil_eq (ahead : c.rest = bytes ++ post) (ahead' : c'.rest = bytes ++ tail)
    {rest : List UInt8} (reached : (c.skipUntil stop).rest = rest ++ post)
    (passes : ∀ more, rest.length < more.length → stop (more ++ tail) → stop (more ++ post))
    (stops : rest ++ tail = [] ∨ stop (rest ++ tail)) :
    (c'.skipUntil stop).rest = rest ++ tail := by
  obtain ⟨_, offset, line⟩ := c
  obtain ⟨_, offset', line'⟩ := c'
  subst ahead ahead'
  induction bytes generalizing offset line offset' line' with
  | nil =>
    have length := Cursor.length_skipUntil_le stop ⟨[] ++ post, offset, line⟩
    rw [reached, List.length_append] at length
    obtain rfl : rest = [] := by
      apply List.eq_nil_of_length_eq_zero
      simp only [List.nil_append] at length
      omega
    simp only [Cursor.skipUntil, List.nil_append] at stops ⊢
    cases tail with
    | nil => rfl
    | cons b tail => simp [Cursor.skipUntil.go, stops.resolve_left (by simp)]
  | cons b bytes ih =>
    simp only [Cursor.skipUntil, List.cons_append, Cursor.skipUntil.go] at reached ⊢
    by_cases here : stop (b :: (bytes ++ post))
    · rw [if_pos here] at reached
      obtain rfl : b :: bytes = rest := @List.append_cancel_right _ _ post _ reached
      have now : stop (b :: (bytes ++ tail)) := stops.resolve_left (by simp)
      rw [if_pos now, List.cons_append]
    · rw [if_neg here] at reached
      have length := Cursor.length_skipUntil_le stop
        ⟨bytes ++ post, offset + 1, Cursor.lineAfter b line⟩
      rw [Cursor.skipUntil, reached, List.length_append, List.length_append] at length
      have still : ¬ stop (b :: (bytes ++ tail)) := by
        intro early
        exact here (passes (b :: bytes) (by simp only [List.length_cons]; omega) early)
      rw [if_neg still]
      exact ih _ _ _ _ reached

theorem Beside.skipUntil (h : Beside post tail c c')
    (within : post.length ≤ (c.skipUntil stop).rest.length)
    (passes : ∀ bytes more, (c.skipUntil stop).rest = bytes ++ post → bytes.length < more.length →
      stop (more ++ tail) → stop (more ++ post))
    (stops : ∀ bytes, (c.skipUntil stop).rest = bytes ++ post →
      bytes ++ tail = [] ∨ stop (bytes ++ tail)) :
    Beside post tail (c.skipUntil stop) (c'.skipUntil stop) := by
  obtain ⟨bytes, ahead, ahead'⟩ := h
  obtain ⟨between, split⟩ := exists_rest_eq (Cursor.reaches_skipUntil stop c)
  have suffix : post <:+ (c.skipUntil stop).rest :=
    List.suffix_of_suffix_length_le ⟨bytes, ahead.symm⟩ ⟨between, split.symm⟩ within
  obtain ⟨rest, reached⟩ := suffix
  exact ⟨rest, reached.symm, rest_skipUntil_eq ahead ahead' reached.symm
    (passes rest · reached.symm) (stops rest reached.symm)⟩

theorem Beside.head? (h : Beside post tail c c') (more : post.length < c.rest.length) :
    c'.rest.head? = c.rest.head? := by
  obtain ⟨bytes, ahead, ahead'⟩ := h
  cases bytes with
  | nil => simp [ahead] at more
  | cons b bytes => rw [ahead, ahead']; rfl

theorem Beside.skipWhile (splice : Splice post tail) (h : Beside post tail c c')
    (within : post.length ≤ (c.skipWhile p).rest.length)
    (ends : post.length < (c.skipWhile p).rest.length ∨ ∀ b, isBreak b → p b = false) :
    Beside post tail (c.skipWhile p) (c'.skipWhile p) := by
  apply h.skipUntil within
  · intro bytes more _ longer
    cases more with
    | nil => cases longer
    | cons b more => exact id
  · intro bytes reached
    have stopped := stops_skipUntil (fun ahead ↦ !ahead.head?.any p) c
    rw [Cursor.skipWhile, reached] at ends
    rw [reached] at stopped
    cases bytes with
    | cons b bytes => exact .inr (stopped.resolve_left (by simp))
    | nil =>
      have dark := ends.resolve_left (by simp)
      right
      rw [Bool.not_eq_true']
      apply eq_false_of_ne_true
      intro goesOn
      have goesOn := splice.head?_any dark goesOn
      rcases stopped with done | stopped
      · simp [done] at goesOn
      · exact absurd goesOn (by simpa using stopped)

/-! ## Names -/

theorem isNameByte_of_isNameStart (h : isNameStart b) : isNameByte b := by
  simp only [isNameStart, isNameByte, Bool.or_eq_true] at h ⊢
  tauto

theorem isBreak_iff : isBreak b ↔ b ∈ [0x20, 0x09, 0x0D, 0x0A, 0x0C, byte '#'] := by
  simp [isBreak, isBlank, or_assoc]

theorem dark_of_all (h : [0x20, 0x09, 0x0D, 0x0A, 0x0C, byte '#'].all fun b ↦ !p b) :
    ∀ b, isBreak b → p b = false := by
  intro b breaks
  simpa using List.all_eq_true.mp h b (isBreak_iff.mp breaks)

theorem isNameByte_dark : ∀ b, isBreak b → isNameByte b = false :=
  dark_of_all (by decide)

theorem isNameStart_dark : ∀ b, isBreak b → isNameStart b = false :=
  dark_of_all (by decide)

/-- A byte of a name ahead, or a backslash with a name behind it. -/
def segmentAhead (p : UInt8 → Bool) : List UInt8 → Bool
  | a :: b :: _ => p a || (a == Ascii.backslash && isNameStart b)
  | [a] => p a
  | [] => false

theorem continuesName_eq : continuesName = segmentAhead isNameByte := by
  funext ahead
  match ahead with
  | [] | [_] | _ :: _ :: _ => rfl

theorem startsName_eq : startsName = segmentAhead isNameStart := by
  funext ahead
  match ahead with
  | [] | [_] | _ :: _ :: _ => rfl

theorem continuesName_of_startsName (h : startsName bytes) : continuesName bytes := by
  match bytes with
  | [a] => exact isNameByte_of_isNameStart h
  | a :: b :: _ =>
    simp only [startsName, continuesName, Bool.or_eq_true] at h ⊢
    exact h.imp_left isNameByte_of_isNameStart

theorem Splice.segmentAhead (splice : Splice post tail) (dark : ∀ b, isBreak b → p b = false)
    (h : segmentAhead p (bytes ++ tail)) : Lexer.segmentAhead p (bytes ++ post) := by
  cases splice with
  | refl => exact h
  | @start b _ breaks _ rest =>
    match bytes with
    | [] =>
      have other : b ≠ Ascii.backslash := by
        rintro rfl
        revert breaks
        decide
      cases rest <;> simp [Lexer.segmentAhead, dark _ breaks, other] at h
    | [a] =>
      have first : p a := by simpa [Lexer.segmentAhead, isNameStart_dark _ breaks] using h
      cases post <;> simp [Lexer.segmentAhead, first]
    | _ :: _ :: _ => exact h

/-- What goes on with a name in one text does so in the other, when no name starts at the place. -/
theorem segmentAhead_of_post (h : segmentAhead p (b :: bytes ++ post))
    (apart : bytes ≠ [] ∨ startsName post = false) : segmentAhead p (b :: bytes ++ tail) := by
  match bytes with
  | [] =>
    have apart := apart.resolve_left (by simp)
    have first : p b := by
      match post with
      | [] => exact h
      | a :: [] | a :: _ :: _ =>
        have plain : isNameStart a = false := by simp_all [startsName]
        simpa [segmentAhead, plain] using h
    cases tail <;> simp [segmentAhead, first]
  | _ :: _ => exact h

theorem continuesName_skipUntil (c : Cursor) :
    continuesName (c.skipUntil fun ahead ↦ !continuesName ahead).rest = false := by
  rcases stops_skipUntil (fun ahead ↦ !continuesName ahead) c with done | stopped
  · rw [done]
    rfl
  · simpa using stopped

theorem startsName_eq_false_of_ended (h : continuesName bytes = false) : startsName bytes = false := by
  apply eq_false_of_ne_true
  intro starts
  rw [continuesName_of_startsName starts] at h
  cases h

theorem Beside.skipName (splice : Splice post tail) (h : Beside post tail c c')
    (within : post.length ≤ (c.skipUntil fun ahead ↦ !continuesName ahead).rest.length) :
    Beside post tail (c.skipUntil fun ahead ↦ !continuesName ahead)
      (c'.skipUntil fun ahead ↦ !continuesName ahead) := by
  have ended := continuesName_skipUntil c
  apply h.skipUntil within
  · intro bytes more reached longer
    rw [reached] at ended
    simp only [Bool.not_eq_true', continuesName_eq] at ended ⊢
    intro still
    apply eq_false_of_ne_true
    intro goesOn
    cases more with
    | nil => cases longer
    | cons b more =>
      have apart : more ≠ [] ∨ startsName post = false := by
        cases more with
        | cons => exact .inl (by simp)
        | nil =>
          obtain rfl : bytes = [] := by
            apply List.eq_nil_of_length_eq_zero
            simp only [List.length_cons, List.length_nil] at longer
            omega
          rw [← continuesName_eq] at ended
          exact .inr (startsName_eq_false_of_ended ended)
      rw [segmentAhead_of_post goesOn apart] at still
      cases still
  · intro bytes reached
    rw [reached] at ended
    right
    simp only [Bool.not_eq_true', continuesName_eq] at ended ⊢
    apply eq_false_of_ne_true
    intro goesOn
    rw [splice.segmentAhead isNameByte_dark goesOn] at ended
    cases ended

/-! ## Text outside tags -/

theorem toLower_break : ∀ b, isBreak b → isBreak (Ascii.toLower b) := by
  intro b breaks
  rw [isBreak_iff] at breaks
  simp only [List.mem_cons, List.not_mem_nil, or_false] at breaks
  rcases breaks with rfl | rfl | rfl | rfl | rfl | rfl <;> rfl

theorem Splice.map_toLower (splice : Splice post tail) :
    Splice (post.map Ascii.toLower) (tail.map Ascii.toLower) := by
  cases splice with
  | refl => exact .refl _
  | start breaks more tail => exact .start (toLower_break _ breaks) (by simpa using more) _

theorem isPrefixOf_take (h : pattern.length = 5) :
    Ascii.startsWithCaseless pattern (bytes.take 5) =
      pattern.isPrefixOf (bytes.map Ascii.toLower) := by
  rw [Ascii.startsWithCaseless, Bool.eq_iff_iff, List.isPrefixOf_iff_prefix,
    List.isPrefixOf_iff_prefix, List.map_take, List.prefix_take_iff, h]
  simp

theorem openTagLength_eq (splice : Splice post tail)
    (fits : openTagLength (bytes ++ post) ≤ bytes.length) :
    openTagLength (bytes ++ tail) = openTagLength (bytes ++ post) := by
  have php : (Ascii.ofString "<?php").length = 5 := by decide
  have echo : (Ascii.ofString "<?=").length = 3 := by decide
  simp only [openTagLength, isPrefixOf_take php, List.map_append] at fits ⊢
  by_cases long : (Ascii.ofString "<?php").isPrefixOf
      (bytes.map Ascii.toLower ++ post.map Ascii.toLower)
  · rw [if_pos long] at fits
    rw [if_pos long, if_pos (isPrefixOf_of_length_le long (by simpa [php] using fits))]
  · have long' : ¬ (Ascii.ofString "<?php").isPrefixOf
        (bytes.map Ascii.toLower ++ tail.map Ascii.toLower) :=
      fun h ↦ long (splice.map_toLower.isPrefixOf (by decide) h)
    rw [if_neg long] at fits
    rw [if_neg long, if_neg long']
    by_cases short : (Ascii.ofString "<?=").isPrefixOf (bytes ++ post)
    · rw [if_pos short] at fits
      rw [if_pos short, if_pos (isPrefixOf_of_length_le short (by simpa [echo] using fits))]
    · have short' : ¬ (Ascii.ofString "<?=").isPrefixOf (bytes ++ tail) :=
        fun h ↦ short (splice.isPrefixOf (by decide) h)
      rw [if_neg short, if_neg short']

theorem two_le_openTagLength (bytes : List UInt8) : 2 ≤ openTagLength bytes := by
  rw [openTagLength]
  split
  · omega
  · split <;> omega

theorem Beside.skipInlineText (splice : Splice post tail) (h : Beside post tail c c')
    (within : post.length ≤ (skipInlineText c).rest.length) :
    Beside post tail (Lexer.skipInlineText c) (Lexer.skipInlineText c') := by
  have mark : (Ascii.ofString "<?").length = 2 := by decide
  have two := two_le_openTagLength
  simp only [Lexer.skipInlineText] at within ⊢
  have stopped := stops_skipUntil ((Ascii.ofString "<?").isPrefixOf ·) c
  have tag : Beside post tail (c.skipUntil ((Ascii.ofString "<?").isPrefixOf ·))
      (c'.skipUntil ((Ascii.ofString "<?").isPrefixOf ·)) := by
    apply h.skipUntil (within.trans (Cursor.Reaches.skip ..).length_le)
    · intro _ _ _ _ early
      exact splice.isPrefixOf (by decide) early
    · intro bytes reached
      rw [reached] at stopped
      rw [Cursor.length_skip, reached, List.length_append] at within
      rcases stopped with done | opens
      · have done := List.append_eq_nil_iff.mp done
        left
        rw [done.1, splice.eq_nil done.2, List.append_nil]
      · right
        have long := (List.isPrefixOf_iff_prefix.mp opens).length_le
        rw [mark, List.length_append] at long
        have := two (bytes ++ post)
        exact isPrefixOf_of_length_le opens (by rw [mark]; omega)
  obtain ⟨bytes, ahead, ahead'⟩ := tag
  have same : openTagLength (bytes ++ tail) = openTagLength (bytes ++ post) := by
    by_cases done : post = []
    · rw [splice.eq_nil done, done]
    · have more := List.length_pos_iff.mpr done
      rw [Cursor.length_skip, ahead, List.length_append] at within
      exact openTagLength_eq splice (by omega)
  have tag : Beside post tail _ _ := ⟨bytes, ahead, ahead'⟩
  rw [ahead', same, ← ahead]
  exact tag.skip splice within

end ScriptCache.Source.Lexer
