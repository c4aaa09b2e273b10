import ScriptCache.Proofs.Source.Guarded.Positions

/-!
# Strings, groups and heredocs by position

Strings and groups are read in each other by calls, where without guards a stack of frames is kept.
A call is over where its frames are, and what is left of the stack comes after.
-/

namespace ScriptCache.Source.Guarded

open Ascii (byte)
open Lexer (isNameByte isIndent)

variable {α : Type} {source : List UInt8} {c d : Cursor} {b : UInt8} {rest : List UInt8}
  {p : UInt8 → Bool}

/-! ## Frames -/

/-- What is skipped while the frames are open. -/
def skipFrames (frames : List Lexer.Frame) (c : Cursor) : Lexer.Read Cursor :=
  Lexer.skipNested frames c.offset c.line c.rest

theorem skipFrames_nil (c : Cursor) : skipFrames [] c = .ok c := by
  rw [skipFrames, Lexer.skipNested]

theorem skipFrames_end (frame : Lexer.Frame) (frames : List Lexer.Frame) (done : c.rest = []) :
    skipFrames (frame :: frames) c = .error frame.unclosed := by
  rw [skipFrames, done]
  cases frame <;> rw [Lexer.skipNested]

theorem skipFrames_turn {frame : Lexer.Frame} {taken : Nat} {opened : List Lexer.Frame}
    (frames : List Lexer.Frame) (first : c.rest = b :: rest)
    (turn : frame.turn b rest.head? (c.skip 1).line = (taken, opened)) :
    skipFrames (frame :: frames) c = skipFrames (opened ++ frames) (c.skip taken) := by
  obtain ⟨_, offset, line⟩ := c
  cases first
  exact Lexer.skipNested_cons turn frames offset

theorem taken_pos (frame : Lexer.Frame) (b : UInt8) (next : Option UInt8) (line : Nat) :
    0 < (frame.turn b next line).1 := by
  cases frame <;> simp only [Lexer.Frame.turn]
  · split
    · simp
    split <;> simp
  · cases next with
    | none => dsimp only; split <;> simp
    | some e =>
      dsimp only
      repeat' split
      all_goals simp
  · repeat' split
    all_goals simp

/-- What is open further in is skipped first. -/
theorem skipFrames_append (first second : List Lexer.Frame) (c : Cursor) :
    skipFrames (first ++ second) c = (skipFrames first c).bind (skipFrames second) := by
  induction c using Cursor.induction_ahead generalizing first with
  | step c ih =>
  cases first with
  | nil =>
    rw [skipFrames_nil]
    rfl
  | cons frame first =>
    cases ahead : c.rest with
    | nil =>
      rw [List.cons_append, skipFrames_end _ _ ahead, skipFrames_end _ _ ahead]
      rfl
    | cons b rest =>
      generalize turn : frame.turn b rest.head? (c.skip 1).line = result
      obtain ⟨taken, opened⟩ := result
      have pos := taken_pos frame b rest.head? (c.skip 1).line
      rw [turn] at pos
      have shorter : (c.skip taken).rest.length < c.rest.length := by
        rw [Cursor.length_skip, ahead, List.length_cons]
        dsimp only at pos
        omega
      rw [List.cons_append, skipFrames_turn _ ahead turn, skipFrames_turn _ ahead turn,
        ← List.append_assoc]
      exact ih _ shorter _

theorem reaches_skipFrames {frames : List Lexer.Frame} (h : skipFrames frames c = .ok d) :
    c.Reaches d :=
  Lexer.reaches_skipNested h

/-! ## What a byte does in a string -/

section Turn

variable {e quote : UInt8} {line here : Nat}

theorem turn_quoted_last : Lexer.Frame.turn b none here (.quoted quote line) =
    if b = quote then (1, []) else (1, [.quoted quote line]) := rfl

theorem turn_quoted_opens
    (opens : (b = byte '{' ∧ e = byte '$') ∨ (b = byte '$' ∧ e = byte '{')) :
    Lexer.Frame.turn b (some e) here (.quoted quote line) =
      (if b = byte '$' then 2 else 1, [.group '{' '}' line, .quoted quote line]) := by
  rw [Lexer.Frame.turn]
  rcases opens with opens | opens
  · have other : b ≠ byte '$' := by
      rw [opens.1]
      decide
    rw [if_pos opens, if_neg other]
  · have other : ¬(b = byte '{' ∧ e = byte '$') := by
      rw [opens.1]
      exact fun brace ↦ absurd brace.1 (by decide)
    rw [if_neg other, if_pos opens, if_pos opens.1]

theorem turn_quoted_plain
    (plain : ¬((b = byte '{' ∧ e = byte '$') ∨ (b = byte '$' ∧ e = byte '{'))) :
    Lexer.Frame.turn b (some e) here (.quoted quote line) =
      if b = Ascii.backslash then (2, [.quoted quote line])
      else if b = quote then (1, []) else (1, [.quoted quote line]) := by
  rw [Lexer.Frame.turn, if_neg (mt Or.inl plain), if_neg (mt Or.inr plain)]

end Turn

/-! ## Strings and groups -/

variable (few : Countable source)
include few

theorem singleQuoted_spot (line : Nat) (placed : c.Placed source) :
    singleQuoted source line (spot c) = same spot (skipFrames [.single line] c) := by
  induction c using Cursor.induction_ahead with
  | step c ih =>
  rw [singleQuoted]
  cases first : c.rest with
  | nil =>
    rw [skipFrames_end _ _ first]
    refine loop_error ?_
    simp only [length_le_iff placed, first, if_true]
    rfl
  | cons b rest =>
    have one := length_skip_one first
    have placed' := placed.reaches (.skip 1 c)
    have next := rest_skip_one first
    have later {d : Cursor} (reaches : c.Reaches d) (shorter : d.rest.length < c.rest.length) :
        singleQuoted source line (spot d) = same spot (skipFrames [.single line] d) :=
      ih d shorter (placed.reaches reaches)
    have bumped := bump_spot placed few first
    by_cases escape : b = Ascii.backslash
    · rw [skipFrames_turn [] first (by rw [Lexer.Frame.turn, if_pos escape])]
      cases more : rest with
      | nil =>
        rw [more] at next
        have last : c.skip 2 = c.skip 1 := by
          rw [Cursor.skip_add 1 1, skip_of_nil next]
        rw [last]
        refine (scan_again placed (.skip 1 c) one ?_).trans (later (.skip 1 c) one)
        have other : Ascii.backslash ≠ Ascii.apostrophe := by decide
        simp only [length_le_iff placed, first, reduceCtorEq, if_false, bumped, ok_bind,
          lt_length_iff placed', next, ne_eq, not_true_eq_false, and_false, escape, other]
      | cons e after =>
        rw [more] at next
        have shorter : (c.skip 2).rest.length < c.rest.length := by
          rw [Cursor.length_skip, first]
          simp
        refine (scan_again placed (.skip 2 c) shorter ?_).trans (later (.skip 2 c) shorter)
        simp only [length_le_iff placed, first, reduceCtorEq, if_false, bumped, ok_bind,
          lt_length_iff placed', next, ne_eq, not_false_eq_true, and_true, escape, if_true,
          advance_spot placed' few next]
        rw [← Cursor.skip_add]
        rfl
    · by_cases closes : b = Ascii.apostrophe
      · rw [skipFrames_turn [] first (by rw [Lexer.Frame.turn, if_neg escape, if_pos closes]),
          List.nil_append, skipFrames_nil]
        have other : Ascii.apostrophe ≠ Ascii.backslash := by decide
        refine loop_leave ?_
        simp only [length_le_iff placed, first, reduceCtorEq, if_false, bumped, ok_bind, closes, other,
          false_and, if_true]
      · rw [skipFrames_turn [] first (by rw [Lexer.Frame.turn, if_neg escape, if_neg closes])]
        refine (scan_again placed (.skip 1 c) one ?_).trans (later (.skip 1 c) one)
        simp only [length_le_iff placed, first, reduceCtorEq, if_false, bumped, ok_bind, escape,
          false_and, closes]

theorem enter_spot {e : UInt8} {after : List UInt8} (first : c.rest = b :: e :: after)
    (placed : c.Placed source) :
    enter source (spot c) = .ok (spot (c.skip (if b = byte '$' then 2 else 1))) := by
  rw [enter, peek_spot placed first]
  split
  · exact advanceBy_spot placed few (by simp [first])
  · exact advance_spot placed few first

omit few in
theorem onward_further {next : (s : Spot) → (spot c).pos < s.pos ∧ s.pos ≤ source.length → Guarded α}
    (placed : c.Placed source) (reaches : c.Reaches d) (shorter : d.rest.length < c.rest.length) :
    onward source.length (spot c).pos Spot.pos (.ok (spot d)) next =
      next (spot d) (further_of_reaches placed reaches shorter) :=
  onward_ok _

omit few in
/-- One reader behind the other, the first of which comes forward. -/
theorem onward_same {reader : Lexer.Read Cursor} {go : Cursor → Lexer.Read Cursor}
    {next : (s : Spot) → (spot c).pos < s.pos ∧ s.pos ≤ source.length → Guarded Spot}
    (placed : c.Placed source)
    (behind : ∀ d, reader = .ok d → c.Reaches d ∧ d.rest.length < c.rest.length)
    (later : ∀ d, c.Reaches d → d.rest.length < c.rest.length →
      ∀ further, next (spot d) further = same spot (go d)) :
    onward source.length (spot c).pos Spot.pos (same spot reader) next =
      same spot (reader.bind go) := by
  cases reader with
  | error e => rfl
  | ok d =>
    obtain ⟨reaches, shorter⟩ := behind d rfl
    exact (onward_further placed reaches shorter).trans (later d reaches shorter _)

/-- At the cursor, strings and groups are skipped as they are without guards; `depth` open brackets
are as many frames. -/
structure Nests (source : List UInt8) (c : Cursor) : Prop where
  quoted : ∀ quote line, interpolated source quote line (spot c) =
    same spot (skipFrames [.quoted quote line] c)
  group : ∀ opener closer line depth, skipGroup source opener closer line (depth + 1) (spot c) =
    same spot (skipFrames (List.replicate (depth + 1) (.group opener closer line)) c)

section Nests

variable (placed : c.Placed source) (first : c.rest = b :: rest)
  (later : ∀ d, c.Reaches d → d.rest.length < c.rest.length → Nests source d)
include placed first later

omit few placed later in
theorem behind_skipFrames {k : Nat} (pos : 0 < k) (frames : List Lexer.Frame) (d : Cursor)
    (skipped : skipFrames frames (c.skip k) = .ok d) :
    c.Reaches d ∧ d.rest.length < c.rest.length := by
  have reaches := reaches_skipFrames skipped
  have shorter := length_skip_lt first pos
  exact ⟨(Cursor.Reaches.skip k c).trans reaches, Nat.lt_of_le_of_lt reaches.length_le shorter⟩

theorem quoted_spot (quote : UInt8) (line : Nat) :
    interpolated source quote line (spot c) = same spot (skipFrames [.quoted quote line] c) := by
  have more : ¬source.length ≤ (spot c).pos := by simp [length_le_iff placed, first]
  have bumped := bump_spot placed few first
  have placed' := placed.reaches (.skip 1 c)
  have next := rest_skip_one first
  have goes {k : Nat} (pos : 0 < k) :
      onward source.length (spot c).pos Spot.pos (.ok (spot (c.skip k)))
        (fun behind _ ↦ interpolated source quote line behind) =
        same spot (skipFrames [.quoted quote line] (c.skip k)) := by
    have shorter := length_skip_lt first pos
    rw [onward_further placed (.skip k c) shorter]
    exact (later _ (.skip k c) shorter).quoted quote line
  rw [interpolated, if_neg more]
  simp only [peek_spot placed first, next_spot placed first, bumped]
  cases rest with
  | nil =>
    have zero : ∀ x : UInt8, x ≠ 0 → ((0 : UInt8) = x) = False := fun x ne ↦ by simp [ne.symm]
    simp only [List.head?_nil, Option.getD_none, zero (byte '$') (by decide),
      zero (byte '{') (by decide), and_false, or_false, if_false, lt_length_iff placed', next, ne_eq,
      not_true_eq_false]
    have turn : Lexer.Frame.turn b none (c.skip 1).line (.quoted quote line) = _ := turn_quoted_last
    split
    · rename_i closes
      rw [if_pos closes] at turn
      rw [skipFrames_turn [] first turn, List.append_nil, skipFrames_nil]
      rfl
    · rename_i stays
      rw [if_neg stays] at turn
      rw [skipFrames_turn [] first turn]
      exact goes Nat.one_pos
  | cons e after =>
    have two : (c.skip 1).skip 1 = c.skip 2 := (Cursor.skip_add 1 1 c).symm
    simp only [List.head?_cons, Option.getD_some, lt_length_iff placed', next, ne_eq, reduceCtorEq,
      not_false_eq_true, and_true, advance_spot placed' few next, two]
    split
    · rename_i opens
      -- the braces first, then the rest of the string
      have pos : 0 < if b = byte '$' then 2 else 1 := by split <;> decide
      rw [skipFrames_turn [] first (turn_quoted_opens opens), enter_spot few first placed]
      generalize (if b = byte '$' then 2 else 1) = k at pos
      have shorter := length_skip_lt first pos
      rw [onward_further placed (.skip k c) shorter,
        (later _ (.skip k c) shorter).group '{' '}' line 0]
      have inner := behind_skipFrames first pos [.group '{' '}' line]
      refine (onward_same placed inner fun d reaches shorter _ ↦ ?_).trans
        (congrArg (same spot) (skipFrames_append [.group '{' '}' line] [.quoted quote line] _).symm)
      exact (later d reaches shorter).quoted quote line
    rename_i closed
    have turn : Lexer.Frame.turn b (some e) (c.skip 1).line (.quoted quote line) = _ :=
      turn_quoted_plain closed
    split
    · rename_i escape
      rw [if_pos escape] at turn
      rw [skipFrames_turn [] first turn]
      exact goes Nat.two_pos
    rename_i plain
    rw [if_neg plain] at turn
    split
    · rename_i closes
      rw [if_pos closes] at turn
      rw [skipFrames_turn [] first turn, List.append_nil, skipFrames_nil]
      rfl
    · rename_i stays
      rw [if_neg stays] at turn
      rw [skipFrames_turn [] first turn]
      exact goes Nat.one_pos

theorem group_spot (opener closer : Char) (line depth : Nat) :
    skipGroup source opener closer line (depth + 1) (spot c) =
      same spot (skipFrames (List.replicate (depth + 1) (.group opener closer line)) c) := by
  have more : ¬source.length ≤ (spot c).pos := by simp [length_le_iff placed, first]
  have placed' := placed.reaches (.skip 1 c)
  have one := length_skip_lt first Nat.one_pos
  have next := later _ (.skip 1 c) one
  -- a string in the group, and what is left of the group
  have string (frame : Lexer.Frame) :
      onward source.length (spot c).pos Spot.pos (same spot (skipFrames [frame] (c.skip 1)))
        (fun behind _ ↦ skipGroup source opener closer line (depth + 1) behind) =
        same spot (skipFrames ([frame, .group opener closer line] ++
          List.replicate depth (.group opener closer line)) (c.skip 1)) := by
    refine (onward_same placed (behind_skipFrames first Nat.one_pos [frame])
      fun d reaches shorter _ ↦ ?_).trans
        (congrArg (same spot) (skipFrames_append [frame] (List.replicate (depth + 1) _) _).symm)
    exact (later d reaches shorter).group opener closer line depth
  have turn : Lexer.Frame.turn b rest.head? (c.skip 1).line (.group opener closer line) =
      if b = Ascii.apostrophe then (1, [.single (c.skip 1).line, .group opener closer line])
      else if b = Ascii.quote then (1, [.quoted b (c.skip 1).line, .group opener closer line])
      else if b = byte opener then (1, [.group opener closer line, .group opener closer line])
      else if b = byte closer then (1, [])
      else (1, [.group opener closer line]) := rfl
  rw [skipGroup, if_neg more]
  simp only [bump_spot placed few first]
  rw [onward_further placed (.skip 1 c) one]
  split
  · rename_i single
    rw [if_pos single] at turn
    rw [List.replicate_succ, skipFrames_turn _ first turn]
    have read : singleQuoted source (spot (c.skip 1)).line (spot (c.skip 1)) = _ :=
      singleQuoted_spot few (c.skip 1).line placed'
    rw [read]
    exact string (.single (c.skip 1).line)
  rename_i notSingle
  rw [if_neg notSingle] at turn
  split
  · rename_i double
    rw [if_pos double] at turn
    rw [List.replicate_succ, skipFrames_turn _ first turn]
    have read : interpolated source b (spot (c.skip 1)).line (spot (c.skip 1)) = _ :=
      next.quoted b (c.skip 1).line
    rw [read]
    exact string (.quoted b (c.skip 1).line)
  rename_i notDouble
  rw [if_neg notDouble] at turn
  split
  · rename_i opens
    rw [if_pos opens] at turn
    rw [List.replicate_succ, skipFrames_turn _ first turn]
    exact next.group opener closer line (depth + 1)
  rename_i notOpener
  rw [if_neg notOpener] at turn
  split
  · rename_i closes
    rw [if_pos closes] at turn
    rw [List.replicate_succ, skipFrames_turn _ first turn, List.nil_append]
    cases depth with
    | zero =>
      rw [List.replicate_zero, skipFrames_nil]
      rfl
    | succ depth => exact next.group opener closer line depth
  · rename_i notCloser
    rw [if_neg notCloser] at turn
    rw [List.replicate_succ, skipFrames_turn _ first turn]
    exact next.group opener closer line depth

end Nests

/-- Strings and groups are read in each other, so both are compared at once. -/
theorem nests (placed : c.Placed source) : Nests source c := by
  induction c using Cursor.induction_ahead with
  | step c ih =>
  have later (d : Cursor) (reaches : c.Reaches d) (shorter : d.rest.length < c.rest.length) :=
    ih d shorter (placed.reaches reaches)
  cases first : c.rest with
  | nil =>
    have done := (length_le_iff placed).mpr first
    refine ⟨fun quote line ↦ ?_, fun opener closer line depth ↦ ?_⟩
    · rw [interpolated, if_pos done, skipFrames_end _ _ first]
      rfl
    · rw [skipGroup, if_pos done, List.replicate_succ, skipFrames_end _ _ first]
      rfl
  | cons b rest =>
    exact ⟨quoted_spot few placed first later, group_spot few placed first later⟩

/-! ## Heredocs -/

omit few in
theorem getD_any (zero : p 0 = false) (next : Option UInt8) : p (next.getD 0) = next.any p := by
  cases next with
  | none => exact zero
  | some b => rfl

theorem skipLine_spot (placed : c.Placed source) :
    scan source (fun s ↦
      if s.pos < source.length ∧ peek source s ≠ Cursor.newline then
        (advance source s).map .again
      else .ok (.leave s)) (spot c) = .ok (spot (c.skipWhile (· != Cursor.newline))) := by
  refine scan_skipUntil few (fun d ↦ .ok (spot d)) (fun d placed stops ↦ ?_)
    (fun d b rest placed first passes ↦ ?_) placed
  · have leaves : ¬((spot d).pos < source.length ∧ peek source (spot d) ≠ Cursor.newline) := by
      cases first : d.rest with
      | nil => simp [lt_length_iff placed, first]
      | cons b rest =>
        rw [peek_spot placed first]
        rw [first] at stops
        simpa using fun _ ↦ stops
    simp only [if_neg leaves]
    rfl
  · have stays : (spot d).pos < source.length ∧ peek source (spot d) ≠ Cursor.newline := by
      rw [peek_spot placed first, lt_length_iff placed, first]
      rw [first] at passes
      simpa using passes
    simp only [if_pos stays]

theorem skipHeredocBody_spot (label : List UInt8) (line : Nat) (placed : c.Placed source) :
    skipHeredocBody source label line (spot c) = same spot (Lexer.skipHeredocBody label line c) := by
  induction c using Cursor.induction_ahead with
  | step c ih =>
  have reaches := Cursor.reaches_skipWhile (· != Cursor.newline) c
  have skipped := skipLine_spot few placed
  rw [skipHeredocBody, Lexer.skipHeredocBody]
  dsimp only
  generalize c.skipWhile (· != Cursor.newline) = lineEnd at reaches skipped
  have end_placed := placed.reaches reaches
  cases first : lineEnd.rest with
  | nil =>
    refine loop_error ?_
    simp only [skipped, ok_bind, length_le_iff end_placed, first, if_true]
  | cons b rest =>
    have next_placed := end_placed.reaches (.skip 1 lineEnd)
    have indent := skipWhile_spot few (p := isIndent) (by decide) next_placed
    have behind := (reaches.trans (.skip 1 lineEnd)).trans (Cursor.reaches_skipWhile isIndent _)
    have shorter : ((lineEnd.skip 1).skipWhile isIndent).rest.length < c.rest.length := by
      have one := length_skip_one first
      have le := Cursor.length_skipWhile_le isIndent (lineEnd.skip 1)
      have le' := reaches.length_le
      omega
    generalize (lineEnd.skip 1).skipWhile isIndent = text at indent behind shorter
    have text_placed := placed.reaches behind
    have boundary : isNameByte (peekAt source (spot text) label.length) =
        (text.rest.drop label.length).head?.any isNameByte := by
      rw [peekAt_spot text_placed, getD_any (p := isNameByte) (by decide),
        List.head?_drop]
    rw [dif_neg (by simp)]
    split
    · rename_i found
      have fits : label.length ≤ text.rest.length :=
        length_of_isPrefixOf ((Bool.and_eq_true _ _).mp found).1
      refine loop_leave ?_
      simp only [skipped, ok_bind, length_le_iff end_placed, first, reduceCtorEq, if_false,
        advance_spot end_placed few first, indent, startsWith_spot text_placed, boundary, found,
        if_true, advanceBy_spot text_placed few fits]
      rfl
    · rename_i other
      refine (scan_again placed behind shorter ?_).trans (ih _ shorter text_placed)
      simp only [skipped, ok_bind, length_le_iff end_placed, first, reduceCtorEq, if_false,
        advance_spot end_placed few first, indent, startsWith_spot text_placed, boundary, other]

theorem skipLabelled_spot (line : Nat) {quote : Option UInt8} (sign : ∀ q ∈ quote, q ≠ 0)
    (placed : c.Placed source) :
    skipLabelled source line quote (spot c) = same spot (Lexer.skipLabelled line quote c) := by
  have reaches := Cursor.reaches_skipWhile isNameByte c
  have skipped := skipWhile_spot few (p := isNameByte) (by decide) placed
  rw [skipLabelled, Lexer.skipLabelled]
  generalize c.skipWhile isNameByte = last at reaches skipped
  have last_placed := placed.reaches reaches
  rw [skipped, ok_bind, slice_spot placed reaches, ok_bind]
  split
  · rfl
  cases quote with
  | none => exact skipHeredocBody_spot few _ line last_placed
  | some q =>
    have q_ne := sign q rfl
    dsimp only
    cases first : last.rest with
    | nil =>
      have other : peek source (spot last) ≠ q := by
        rw [peek_end last_placed first]
        exact q_ne.symm
      rw [if_pos other]
      rfl
    | cons b rest =>
      rw [peek_spot last_placed first]
      by_cases closes : b = q
      · subst closes
        rw [if_neg (by simp), advance_spot last_placed few first, ok_bind]
        simp only [Option.isNone_some, Bool.false_eq_true, if_false, List.head?_cons, if_true]
        exact skipHeredocBody_spot few _ line (last_placed.reaches (.skip 1 last))
      · rw [if_pos closes]
        simp [closes, same_error]

theorem skipHeredoc_spot (line : Nat) (fits : 3 ≤ c.rest.length) (placed : c.Placed source) :
    skipHeredoc source line (spot c) = same spot (Lexer.skipHeredoc line (c.skip 3)) := by
  have inside := placed.reaches (.skip 3 c)
  have reaches := Cursor.reaches_skipWhile isIndent (c.skip 3)
  have skipped := skipWhile_spot few (p := isIndent) (by decide) inside
  rw [skipHeredoc, Lexer.skipHeredoc, advanceBy_spot placed few fits, ok_bind]
  dsimp only
  generalize (c.skip 3).skipWhile isIndent = mark at reaches skipped
  have mark_placed := inside.reaches reaches
  rw [skipped, ok_bind]
  cases first : mark.rest with
  | nil =>
    have other : ¬(peek source (spot mark) = Ascii.quote ∨
        peek source (spot mark) = Ascii.apostrophe) := by
      rw [peek_end mark_placed first]
      decide
    rw [if_neg other]
    exact skipLabelled_spot few line (by simp) mark_placed
  | cons b rest =>
    rw [peek_spot mark_placed first]
    by_cases quoted : b = Ascii.quote ∨ b = Ascii.apostrophe
    · have kept : ((b :: rest).head?.filter fun b ↦ b == Ascii.quote || b == Ascii.apostrophe) =
          some b := by
        simp [Option.filter, quoted]
      have b_ne : ∀ q ∈ some b, q ≠ 0 := by
        rintro _ ⟨⟩
        rcases quoted with rfl | rfl <;> decide
      rw [if_pos quoted, advance_spot mark_placed few first, ok_bind, kept]
      exact skipLabelled_spot few line b_ne (mark_placed.reaches (.skip 1 mark))
    · have dropped : ((b :: rest).head?.filter fun b ↦ b == Ascii.quote || b == Ascii.apostrophe) =
          none := by
        simp [Option.filter, quoted]
      rw [if_neg quoted, dropped]
      exact skipLabelled_spot few line (by simp) mark_placed

end ScriptCache.Source.Guarded
