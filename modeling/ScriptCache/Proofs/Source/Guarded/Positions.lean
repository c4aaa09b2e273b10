import ScriptCache.Proofs.Source.Guarded.Lexer
import ScriptCache.Proofs.Source.Lines.Tokens

/-!
# Positions in a source

A position stands for a cursor. What is read of the bytes there, and the loops that pass blanks and
comments, do at a position what they do without guards at the cursor.
-/

namespace ScriptCache.Source.Guarded

open Ascii (byte)
open Lexer (isBlank)

variable {α β σ : Type} {source : List UInt8} {c d : Cursor} {b : UInt8} {rest : List UInt8}
  {p : UInt8 → Bool}

/-- The result of a reader without guards, with what it found as it is found here. -/
def same (f : α → β) (x : Except ParseError α) : Guarded β := (x.map f).mapError Fault.refused

theorem same_ok (f : α → β) (a : α) : same f (.ok a) = .ok (f a) := rfl

theorem same_error (f : α → β) (e : ParseError) : same f (.error e) = .error (.refused e) := rfl

theorem ok_bind (a : α) (f : α → Guarded β) : ((Except.ok a : Guarded α) >>= f) = f a := rfl

/-! ## Loops -/

section Loops

variable {size : Nat} {pos : σ → Nat} {turn : σ → Guarded (Turn σ α)} {s s' : σ} {a : α}

theorem loop_again (h : turn s = .ok (.again s')) (further : pos s < pos s' ∧ pos s' ≤ size) :
    loop size pos turn s = loop size pos turn s' := by
  rw [loop, h]
  exact dif_pos further

theorem loop_leave (h : turn s = .ok (.leave a)) : loop size pos turn s = .ok a := by
  rw [loop, h]

theorem loop_error {f : Fault} (h : turn s = .error f) : loop size pos turn s = .error f := by
  rw [loop, h]

theorem loop_ends {x : Guarded α} (h : turn s = x.map .leave) : loop size pos turn s = x := by
  cases x with
  | error f => exact loop_error h
  | ok a => exact loop_leave h

theorem onward_ok {start : Nat} {go : (s : σ) → start < pos s ∧ pos s ≤ size → Guarded α}
    (further : start < pos s ∧ pos s ≤ size) : onward size start pos (.ok s) go = go s further :=
  dif_pos further

end Loops

/-! ## Bytes -/

/-- The position of a cursor. -/
def spot (c : Cursor) : Spot := ⟨c.offset, c.line⟩

/-- The lines of the source fit in the counter. -/
def Countable (source : List UInt8) : Prop := source.count Cursor.newline < UInt32.size - 1

theorem skip_of_nil (done : c.rest = []) (n : Nat) : c.skip n = c := by
  obtain ⟨_, offset, line⟩ := c
  cases done
  exact Cursor.skip_nil n offset line

theorem skip_one (first : c.rest = b :: rest) :
    c.skip 1 = ⟨rest, c.offset + 1, Cursor.lineAfter b c.line⟩ := by
  obtain ⟨_, offset, line⟩ := c
  cases first
  rfl

theorem length_of_isPrefixOf {text ahead : List UInt8} (h : text.isPrefixOf ahead) :
    text.length ≤ ahead.length :=
  (List.isPrefixOf_iff_prefix.mp h).length_le

theorem length_skip_lt {k : Nat} (first : c.rest = b :: rest) (pos : 0 < k) :
    (c.skip k).rest.length < c.rest.length := by
  rw [Cursor.length_skip, first, List.length_cons]
  omega

theorem length_skip_one (first : c.rest = b :: rest) : (c.skip 1).rest.length < c.rest.length :=
  length_skip_lt first Nat.one_pos

theorem skipUntil_skip_one {stop : List UInt8 → Bool} (first : c.rest = b :: rest)
    (passes : stop (b :: rest) = false) : c.skipUntil stop = (c.skip 1).skipUntil stop := by
  rw [skip_one first, Cursor.skipUntil, first, Cursor.skipUntil.go, if_neg (by simp [passes])]
  rfl

theorem skipUntil_stopped {stop : List UInt8 → Bool} (stops : c.rest = [] ∨ stop c.rest) :
    c.skipUntil stop = c := by
  obtain ⟨rest, offset, line⟩ := c
  cases rest with
  | nil => rfl
  | cons b rest => exact if_pos (stops.resolve_left (by simp))

/-- The byte behind the first, where there is none beyond the end. -/
theorem isPrefixOf_pair {x y : UInt8} (y_ne : y ≠ 0) :
    [x, y].isPrefixOf (b :: rest) = true ↔ b = x ∧ rest.head?.getD 0 = y := by
  cases rest with
  | nil =>
    simp only [List.isPrefixOf, Bool.and_false, Bool.false_eq_true, false_iff, List.head?_nil,
      Option.getD_none, not_and]
    exact fun _ zero ↦ y_ne zero.symm
  | cons a rest =>
    simp only [List.isPrefixOf, Bool.and_true, Bool.and_eq_true, beq_iff_eq, List.head?_cons,
      Option.getD_some]
    constructor <;> rintro ⟨rfl, rfl⟩ <;> exact ⟨rfl, rfl⟩

theorem isPrefixOf_one {x : UInt8} (x_ne : x ≠ 0) :
    [x].isPrefixOf rest = true ↔ rest.head?.getD 0 = x := by
  cases rest with
  | nil => simpa [List.isPrefixOf] using x_ne.symm
  | cons a rest =>
    simp only [List.isPrefixOf, Bool.and_true, beq_iff_eq, List.head?_cons, Option.getD_some]
    exact eq_comm

theorem startsLineComment_iff : Lexer.startsLineComment (b :: rest) ↔
    (b = byte '#' ∧ rest.head?.getD 0 ≠ byte '[') ∨
      (b = byte '/' ∧ rest.head?.getD 0 = byte '/') := by
  have bracket : (0 : UInt8) ≠ byte '[' := by decide
  have slash : (0 : UInt8) ≠ byte '/' := by decide
  cases rest with
  | nil =>
    simp only [Lexer.startsLineComment, beq_iff_eq, List.head?_nil, Option.getD_none, ne_eq, bracket,
      not_false_eq_true, and_true, slash, and_false, or_false]
  | cons a rest => simp [Lexer.startsLineComment]

theorem startsBlockComment_iff : (Ascii.ofString "/*").isPrefixOf (b :: rest) ↔
    b = byte '/' ∧ rest.head?.getD 0 = byte '*' := by
  have mark : Ascii.ofString "/*" = [byte '/', byte '*'] := by decide
  rw [mark]
  exact isPrefixOf_pair (by decide)

theorem rest_skip_one (first : c.rest = b :: rest) : (c.skip 1).rest = rest := by
  rw [skip_one first]

section Bytes

variable (placed : c.Placed source)
include placed

theorem peekAt_spot (n : Nat) : peekAt source (spot c) n = c.rest[n]?.getD 0 := by
  rw [peekAt, spot, ← placed.inSource, List.getElem?_drop]

theorem peek_spot (first : c.rest = b :: rest) : peek source (spot c) = b := by
  rw [peek, peekAt_spot placed, first]
  rfl

theorem peek_end (done : c.rest = []) : peek source (spot c) = 0 := by
  rw [peek, peekAt_spot placed, done]
  rfl

theorem next_spot (first : c.rest = b :: rest) : peekAt source (spot c) 1 = rest.head?.getD 0 := by
  rw [peekAt_spot placed, first, List.getElem?_cons_succ, List.head?_eq_getElem?]

theorem length_le_iff : source.length ≤ (spot c).pos ↔ c.rest = [] := by
  have length := placed.length
  have pos : (spot c).pos = c.offset := rfl
  rw [pos, ← List.length_eq_zero_iff]
  omega

theorem lt_length_iff : (spot c).pos < source.length ↔ c.rest ≠ [] := by
  rw [← Nat.not_le, length_le_iff placed]

theorem bump_spot (few : Countable source) (first : c.rest = b :: rest) :
    bump source (spot c) = .ok (b, spot (c.skip 1)) := by
  have here : source[(spot c).pos]? = some b := by
    have head : (source.drop c.offset)[0]? = source[c.offset + 0]? := List.getElem?_drop
    rw [placed.inSource, first] at head
    exact head.symm
  have bound : (c.skip 1).line < UInt32.size := by
    have le := lineAt_le source (c.skip 1).offset
    rw [← (placed.reaches (.skip 1 c)).line] at le
    rw [Countable] at few
    omega
  rw [skip_one first] at bound ⊢
  rw [bump, here]
  dsimp only
  by_cases newline : b = Cursor.newline
  · have line : Cursor.lineAfter b c.line = (spot c).line + 1 := if_pos newline
    dsimp only at bound
    rw [line] at bound
    rw [if_neg (not_not.mpr newline), if_pos bound, spot, line]
    rfl
  · have line : Cursor.lineAfter b c.line = (spot c).line := if_neg newline
    rw [if_pos newline, spot, line]
    rfl

theorem advance_spot (few : Countable source) (first : c.rest = b :: rest) :
    advance source (spot c) = .ok (spot (c.skip 1)) := by
  rw [advance, bump_spot placed few first]
  rfl

theorem advanceBy_spot (few : Countable source) {n : Nat} (fits : n ≤ c.rest.length) :
    advanceBy source n (spot c) = .ok (spot (c.skip n)) := by
  induction n generalizing c with
  | zero => rfl
  | succ n ih =>
    cases first : c.rest with
    | nil =>
      rw [first] at fits
      cases fits
    | cons b rest =>
      rw [first, List.length_cons] at fits
      have later : n ≤ (c.skip 1).rest.length := by
        rw [rest_skip_one first]
        omega
      rw [advanceBy, advance_spot placed few first, Nat.add_comm, Cursor.skip_add]
      exact ih (placed.reaches (.skip 1 c)) later

theorem slice_spot (reaches : c.Reaches d) :
    slice source (spot c).pos (spot d).pos = .ok (c.bytesTo d) := by
  have within := (placed.reaches reaches).within
  have order := reaches.offset_le
  rw [slice, if_pos ⟨order, within⟩, Cursor.bytesTo, ← placed.inSource, List.drop_take]
  rfl

theorem startsWith_spot (text : List UInt8) :
    startsWith source text (spot c) = .ok (text.isPrefixOf c.rest) := by
  have within : (spot c).pos ≤ source.length := placed.within
  rw [startsWith, slice, if_pos ⟨within, Nat.le_refl _⟩, List.take_length]
  exact congrArg (fun ahead ↦ Except.ok (text.isPrefixOf ahead)) placed.inSource

theorem startsWithCaseless_spot (text : List UInt8) :
    startsWithCaseless source text (spot c) =
      .ok (Ascii.startsWithCaseless text (c.rest.take text.length)) := by
  have within : (spot c).pos ≤ source.length := placed.within
  have length := placed.length
  have pos : (spot c).pos = c.offset := rfl
  rw [startsWithCaseless, if_neg (by omega)]
  split
  · rename_i short
    have fails : ¬text <+: (c.rest.take text.length).map Ascii.toLower := by
      intro fits
      have length' := fits.length_le
      rw [List.length_map, List.length_take] at length'
      omega
    rw [Ascii.startsWithCaseless, Bool.eq_false_iff.mpr (mt List.isPrefixOf_iff_prefix.mp fails)]
  · rename_i long
    rw [slice, if_pos ⟨by omega, by omega⟩, List.drop_take, Nat.add_sub_cancel_left]
    have inSource : source.drop (spot c).pos = c.rest := placed.inSource
    rw [inSource]
    rfl

theorem further_of_reaches (reaches : c.Reaches d) (lt : d.rest.length < c.rest.length) :
    (spot c).pos < (spot d).pos ∧ (spot d).pos ≤ source.length := by
  have placed' := placed.reaches reaches
  have length := placed.length
  have length' := placed'.length
  have pos : (spot c).pos = c.offset := rfl
  have pos' : (spot d).pos = d.offset := rfl
  omega

end Bytes

/-! ## Stretches of bytes -/

variable (few : Countable source)
include few

/-- A loop that passes bytes one by one up to a place, and does the rest there. -/
theorem scan_skipUntil {stop : List UInt8 → Bool} {turn : Spot → Guarded (Turn Spot α)}
    (leave : Cursor → Guarded α)
    (leaves : ∀ d : Cursor, d.Placed source → d.rest = [] ∨ stop d.rest →
      turn (spot d) = (leave d).map .leave)
    (passes : ∀ (d : Cursor) (b : UInt8) (rest : List UInt8), d.Placed source →
      d.rest = b :: rest → stop d.rest = false → turn (spot d) = (advance source (spot d)).map .again)
    (placed : c.Placed source) : scan source turn (spot c) = leave (c.skipUntil stop) := by
  obtain ⟨rest, offset, line⟩ := c
  rw [Cursor.skipUntil]
  dsimp only
  induction rest generalizing offset line with
  | nil => exact loop_ends (leaves _ placed (.inl rfl))
  | cons b rest ih =>
    rw [Cursor.skipUntil.go]
    split
    · rename_i stops
      exact loop_ends (leaves _ placed (.inr stops))
    · rename_i onward
      have passed := passes _ b rest placed rfl (by simpa using onward)
      rw [advance_spot placed few rfl] at passed
      have further := further_of_reaches placed (.skip 1 _) (by simp)
      exact (loop_again passed further).trans (ih _ _ placed.next)

omit few in
theorem scan_again {turn : Spot → Guarded (Turn Spot α)} (placed : c.Placed source)
    (reaches : c.Reaches d) (shorter : d.rest.length < c.rest.length)
    (h : turn (spot c) = .ok (.again (spot d))) :
    scan source turn (spot c) = scan source turn (spot d) :=
  loop_again h (further_of_reaches placed reaches shorter)

theorem skipWhile_spot (ends : p 0 = false) (placed : c.Placed source) :
    skipWhile source p (spot c) = .ok (spot (c.skipWhile p)) := by
  refine scan_skipUntil few (fun d ↦ .ok (spot d)) (fun d placed stops ↦ ?_)
    (fun d b rest placed first passes ↦ ?_) placed
  · have leaves : p (peek source (spot d)) = false := by
      cases first : d.rest with
      | nil => rw [peek_end placed first, ends]
      | cons b rest =>
        rw [peek_spot placed first]
        simpa [first] using stops
    simp only [leaves]
    rfl
  · have stays : p (peek source (spot d)) = true := by
      rw [peek_spot placed first]
      simpa [first] using passes
    simp only [stays, if_true]

theorem skipInlineText_spot (placed : c.Placed source) :
    skipInlineText source (spot c) = .ok (spot (Lexer.skipInlineText c)) := by
  refine scan_skipUntil few (fun d ↦ .ok (spot (d.skip (Lexer.openTagLength d.rest))))
    (fun d placed stops ↦ ?_) (fun d b rest placed first passes ↦ ?_) placed
  · rcases stops with done | tag
    · simp only [lt_length_iff placed, done, ne_eq, not_true_eq_false, if_false, skip_of_nil done]
      rfl
    · have more : d.rest ≠ [] := by
        rintro done
        rw [done] at tag
        cases tag
      simp only [lt_length_iff placed, more, ne_eq, not_false_eq_true, if_true,
        startsWith_spot placed, startsWithCaseless_spot placed, tag, ok_bind]
      have fits : Lexer.openTagLength d.rest ≤ d.rest.length := by
        rw [Lexer.openTagLength]
        split
        · rename_i long
          have length := length_of_isPrefixOf long
          rw [List.length_map, List.length_take] at length
          exact Nat.le_trans length (Nat.min_le_right _ _)
        split
        · rename_i echo
          exact length_of_isPrefixOf echo
        · exact length_of_isPrefixOf tag
      rw [← advanceBy_spot placed few fits, Lexer.openTagLength]
      have five : (Ascii.ofString "<?php").length = 5 := rfl
      rw [five]
      split
      · rfl
      · split <;> rfl
  · simp only [lt_length_iff placed, first, ne_eq, reduceCtorEq, not_false_eq_true, if_true,
      startsWith_spot placed]
    rw [first] at passes
    simp only [passes, ok_bind]
    rfl

theorem skipLineComment_spot (placed : c.Placed source) :
    skipLineComment source (spot c) = .ok (spot (c.skipUntil Lexer.endsLineComment)) := by
  refine scan_skipUntil few (fun d ↦ .ok (spot d)) (fun d placed stops ↦ ?_)
    (fun d b rest placed first passes ↦ ?_) placed
  · cases first : d.rest with
    | nil =>
      simp only [lt_length_iff placed, first, ne_eq, not_true_eq_false, if_false]
      rfl
    | cons b rest =>
      rw [first] at stops
      have stops := stops.resolve_left (by simp)
      simp only [lt_length_iff placed, first, ne_eq, reduceCtorEq, not_false_eq_true, if_true,
        peek_spot placed first, startsWith_spot placed, ok_bind]
      split
      · rfl
      · rename_i other
        have tag : (Ascii.ofString "?>").isPrefixOf (b :: rest) = true := by
          simpa [Lexer.endsLineComment, other] using stops
        rw [if_pos tag]
        rfl
  · rw [first] at passes
    simp only [Lexer.endsLineComment, List.head?_cons, Bool.or_eq_false_iff] at passes
    obtain ⟨newline, tag⟩ := passes
    have newline : b ≠ Cursor.newline := by simpa using newline
    simp only [lt_length_iff placed, first, ne_eq, reduceCtorEq, not_false_eq_true, if_true,
      peek_spot placed first, startsWith_spot placed, ok_bind, newline, tag]
    rfl

theorem skipBlockComment_spot (line : Nat) (placed : c.Placed source) :
    skipBlockComment source line (spot c) =
      let close := c.skipUntil ((Ascii.ofString "*/").isPrefixOf ·)
      same spot
        (if close.rest.isEmpty then .error ⟨line, .unterminatedComment⟩ else .ok (close.skip 2)) := by
  refine scan_skipUntil few (fun d ↦ same spot (if d.rest.isEmpty then
      .error ⟨line, .unterminatedComment⟩ else .ok (d.skip 2))) (fun d placed stops ↦ ?_)
    (fun d b rest placed first passes ↦ ?_) placed
  · cases first : d.rest with
    | nil =>
      simp only [length_le_iff placed, first, if_true]
      rfl
    | cons b rest =>
      have closes := stops.resolve_left (by simp [first])
      have two : 2 ≤ d.rest.length := length_of_isPrefixOf closes
      rw [first] at closes
      simp only [length_le_iff placed, first, reduceCtorEq, if_false, startsWith_spot placed, closes,
        ok_bind, if_true, advanceBy_spot placed few two]
      rfl
  · rw [first] at passes
    simp only [length_le_iff placed, first, reduceCtorEq, if_false, startsWith_spot placed, passes,
      ok_bind]

/-! ## Blanks and comments -/

/-- One turn over trivia comes from `c` to `d`. -/
structure Passes (source : List UInt8) (c d : Cursor) : Prop where
  reaches : c.Reaches d
  shorter : d.rest.length < c.rest.length
  same : skipTrivia source (spot c) = skipTrivia source (spot d)

section Trivia

variable (placed : c.Placed source) (first : c.rest = b :: rest)
include placed first

theorem passes_blank (blank : isBlank b) : Passes source c (c.skip 1) := by
  have one := length_skip_one first
  refine ⟨.skip 1 c, one, scan_again placed (.skip 1 c) one ?_⟩
  simp only [peek_spot placed first, blank, if_true, advance_spot placed few first]
  rfl

theorem passes_line (dark : ¬isBlank b) (starts : Lexer.startsLineComment (b :: rest)) :
    Passes source c ((c.skip 1).skipUntil Lexer.endsLineComment) := by
  have one := length_skip_one first
  have signs := startsLineComment_iff.mp starts
  have passes : Lexer.endsLineComment (b :: rest) = false := by
    have tag : Ascii.ofString "?>" = [byte '?', byte '>'] := by decide
    rw [Lexer.endsLineComment, tag]
    rcases signs with ⟨rfl, -⟩ | ⟨rfl, -⟩ <;> rfl
  have comment := skipLineComment_spot few placed
  rw [skipUntil_skip_one first passes] at comment
  have reaches := (Cursor.Reaches.skip 1 c).trans (Cursor.reaches_skipUntil Lexer.endsLineComment _)
  have shorter := Nat.lt_of_le_of_lt (Cursor.length_skipUntil_le Lexer.endsLineComment (c.skip 1)) one
  refine ⟨reaches, shorter, scan_again placed reaches shorter ?_⟩
  simp only [peek_spot placed first, next_spot placed first, dark, comment]
  rcases signs with sign | sign
  · rw [if_pos sign]
    rfl
  · have other : ¬(b = byte '#' ∧ rest.head?.getD 0 ≠ byte '[') := by
      rw [sign.1]
      exact fun hash ↦ absurd hash.1 (by decide)
    rw [if_neg other, if_pos sign]
    rfl

/-- A block comment is passed, or it is not closed. -/
theorem skipTrivia_block {close : Cursor} (dark : ¬isBlank b)
    (noLine : ¬Lexer.startsLineComment (b :: rest))
    (opens : (Ascii.ofString "/*").isPrefixOf (b :: rest))
    (ends : (c.skip 2).skipUntil ((Ascii.ofString "*/").isPrefixOf ·) = close) :
    (close.rest.isEmpty →
      skipTrivia source (spot c) = .error (.refused ⟨c.line, .unterminatedComment⟩)) ∧
    (¬close.rest.isEmpty → Passes source c (close.skip 2)) := by
  have noLine := not_or.mp (mt startsLineComment_iff.mpr noLine)
  have two : 2 ≤ c.rest.length := by
    rw [first]
    exact length_of_isPrefixOf opens
  have signs := startsBlockComment_iff.mp opens
  have inside := skipBlockComment_spot few c.line (placed.reaches (.skip 2 c))
  dsimp only at inside
  rw [ends] at inside
  have behind : c.Reaches close := by
    rw [← ends]
    exact (Cursor.Reaches.skip 2 c).trans (Cursor.reaches_skipUntil ..)
  constructor
  · intro unclosed
    rw [if_pos unclosed] at inside
    apply loop_error
    simp only [peek_spot placed first, next_spot placed first, dark]
    rw [if_neg noLine.1, if_neg noLine.2, if_pos signs, advanceBy_spot placed few two, ok_bind]
    exact congrArg (Except.map Turn.again) inside
  · intro closed
    rw [if_neg closed] at inside
    have shorter : (close.skip 2).rest.length < c.rest.length := by
      have more := List.length_pos_iff.mpr (by simpa using closed)
      have le := behind.length_le
      rw [Cursor.length_skip]
      omega
    have reaches := behind.trans (.skip 2 close)
    refine ⟨reaches, shorter, scan_again placed reaches shorter ?_⟩
    simp only [peek_spot placed first, next_spot placed first, dark]
    rw [if_neg noLine.1, if_neg noLine.2, if_pos signs, advanceBy_spot placed few two, ok_bind]
    exact congrArg (Except.map Turn.again) inside

omit few in
theorem skipTrivia_plain (dark : ¬isBlank b) (noLine : ¬Lexer.startsLineComment (b :: rest))
    (noBlock : ¬(Ascii.ofString "/*").isPrefixOf (b :: rest)) :
    skipTrivia source (spot c) = .ok (spot c) := by
  have noLine := not_or.mp (mt startsLineComment_iff.mpr noLine)
  have noBlock := mt startsBlockComment_iff.mpr noBlock
  apply loop_leave
  simp only [peek_spot placed first, next_spot placed first, dark]
  rw [if_neg noLine.1, if_neg noLine.2, if_neg noBlock]
  rfl

end Trivia

theorem skipTrivia_spot (placed : c.Placed source) :
    skipTrivia source (spot c) = same spot (Lexer.skipTrivia c) := by
  induction c using Cursor.induction_ahead with
  | step c ih =>
  have later {d : Cursor} (passes : Passes source c d) :
      skipTrivia source (spot c) = same spot (Lexer.skipTrivia d) :=
    passes.same.trans (ih d passes.shorter (placed.reaches passes.reaches))
  cases first : c.rest with
  | nil =>
    rw [Lexer.skipTrivia_nil first]
    apply loop_leave
    simp only [peek_end placed first]
    rfl
  | cons b rest =>
    rw [Lexer.skipTrivia_cons first]
    split
    · rename_i blank
      exact later (passes_blank few placed first blank)
    rename_i dark
    split
    · rename_i starts
      exact later (passes_line few placed first dark starts)
    rename_i noLine
    split
    · rename_i opens
      obtain ⟨refuses, passes⟩ := skipTrivia_block few placed first dark noLine opens rfl
      dsimp only
      split
      · rename_i unclosed
        exact refuses unclosed
      · rename_i closed
        exact later (passes closed)
    · rename_i noBlock
      exact skipTrivia_plain placed first dark noLine noBlock

end ScriptCache.Source.Guarded
