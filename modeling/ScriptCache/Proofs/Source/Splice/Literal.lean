import ScriptCache.Proofs.Source.Splice

/-!
# Strings, groups and heredocs in front of an insertion

What is open at a cursor is compared up to the lines that are reported when it is never closed.
A string can look one byte past its end, and the search for the closing label of a heredoc can
look further; both have to read on when the text is not closed in front of the place.
-/

namespace ScriptCache.Source.Lexer

open Ascii (byte)

variable {post tail bytes rest label : List UInt8} {b : UInt8} {c c' d : Cursor}
  {frame frame' : Frame} {frames frames' : List Frame} {offset line offset' line' : Nat}
  {next : Option UInt8}

/-! ## One byte of something open -/

/-- What the byte `b` does to what is open, with the byte behind it known: how many bytes it takes,
and what is open instead. -/
def Frame.turn (b : UInt8) (next : Option UInt8) (line : Nat) : Frame → Nat × List Frame
  | .single start =>
    if b = Ascii.backslash then (2, [.single start])
    else if b = Ascii.apostrophe then (1, [])
    else (1, [.single start])
  | .quoted quote start =>
    match next with
    | none => if b = quote then (1, []) else (1, [.quoted quote start])
    | some e =>
      if b = byte '{' ∧ e = byte '$' then (1, [.group '{' '}' start, .quoted quote start])
      else if b = byte '$' ∧ e = byte '{' then (2, [.group '{' '}' start, .quoted quote start])
      else if b = Ascii.backslash then (2, [.quoted quote start])
      else if b = quote then (1, [])
      else (1, [.quoted quote start])
  | .group opener closer start =>
    if b = Ascii.apostrophe then (1, [.single line, .group opener closer start])
    else if b = Ascii.quote then (1, [.quoted b line, .group opener closer start])
    else if b = byte opener then (1, [.group opener closer start, .group opener closer start])
    else if b = byte closer then (1, [])
    else (1, [.group opener closer start])

theorem skipNested_cons {taken : Nat} {opened : List Frame}
    (turn : frame.turn b rest.head? (Cursor.lineAfter b line) = (taken, opened))
    (frames : List Frame) (offset : Nat) :
    skipNested (frame :: frames) offset line (b :: rest) =
      let c := Cursor.skip taken ⟨b :: rest, offset, line⟩
      skipNested (opened ++ frames) c.offset c.line c.rest := by
  obtain ⟨rfl, rfl⟩ := Prod.ext_iff.mp turn
  rw [skipNested.eq_def]
  cases frame with
  | single start =>
    simp only [Frame.turn]
    split
    · cases rest <;> simp [skipNested]
    · split <;> simp
  | quoted quote start =>
    cases rest with
    | nil =>
      simp only [Frame.turn, List.head?_nil]
      split <;> simp [skipNested]
    | cons e after =>
      simp only [Frame.turn, List.head?_cons]
      split
      · simp
      split
      · simp
      split
      · simp
      split <;> simp
  | group opener closer start =>
    simp only [Frame.turn]
    split
    · simp
    split
    · simp
    split
    · simp
    split <;> simp

/-- The same thing is open, from whatever line on. -/
inductive Frame.Alike : Frame → Frame → Prop where
  | single (line line' : Nat) : Alike (.single line) (.single line')
  | quoted (quote : UInt8) (line line' : Nat) : Alike (.quoted quote line) (.quoted quote line')
  | group (opener closer : Char) (line line' : Nat) :
      Alike (.group opener closer line) (.group opener closer line')

theorem Frame.Alike.turn {taken : Nat} {opened : List Frame} (alike : Frame.Alike frame frame')
    (turn : frame.turn b next line = (taken, opened)) (line' : Nat) :
    ∃ opened', frame'.turn b next line' = (taken, opened') ∧
      List.Forall₂ Frame.Alike opened opened' := by
  obtain ⟨rfl, rfl⟩ := Prod.ext_iff.mp turn
  cases alike with
  | single =>
    simp only [Frame.turn]
    split
    · exact ⟨_, rfl, .cons (.single ..) .nil⟩
    split
    · exact ⟨_, rfl, .nil⟩
    · exact ⟨_, rfl, .cons (.single ..) .nil⟩
  | quoted =>
    cases next with
    | none =>
      simp only [Frame.turn]
      split
      · exact ⟨_, rfl, .nil⟩
      · exact ⟨_, rfl, .cons (.quoted ..) .nil⟩
    | some e =>
      simp only [Frame.turn]
      split
      · exact ⟨_, rfl, .cons (.group ..) (.cons (.quoted ..) .nil)⟩
      split
      · exact ⟨_, rfl, .cons (.group ..) (.cons (.quoted ..) .nil)⟩
      split
      · exact ⟨_, rfl, .cons (.quoted ..) .nil⟩
      split
      · exact ⟨_, rfl, .nil⟩
      · exact ⟨_, rfl, .cons (.quoted ..) .nil⟩
  | group =>
    simp only [Frame.turn]
    split
    · exact ⟨_, rfl, .cons (.single ..) (.cons (.group ..) .nil)⟩
    split
    · exact ⟨_, rfl, .cons (.quoted ..) (.cons (.group ..) .nil)⟩
    split
    · exact ⟨_, rfl, .cons (.group ..) (.cons (.group ..) .nil)⟩
    split
    · exact ⟨_, rfl, .nil⟩
    · exact ⟨_, rfl, .cons (.group ..) .nil⟩

/-- A byte that closes what is open does so in front of a break too. -/
theorem Frame.turn_break {e e' : UInt8} {taken : Nat}
    (turn : frame.turn b (some e) line = (taken, [])) (breaks : isBreak e') :
    frame.turn b (some e') line = (taken, []) := by
  cases frame with
  | single | group => exact turn
  | quoted quote start =>
    have dollar : e' ≠ byte '$' := by rintro rfl; revert breaks; decide
    have brace : e' ≠ byte '\x7b' := by rintro rfl; revert breaks; decide
    simp only [Frame.turn, dollar, brace, and_false, if_false] at turn ⊢
    split at turn
    · cases turn
    split at turn
    · cases turn
    · exact turn

theorem Frame.turn_pos : 0 < (frame.turn b next line).1 := by
  cases frame <;> simp only [Frame.turn] <;> grind

/-! ## Strings and groups -/

theorem length_skipNested_lt (opened : frames ≠ [])
    (h : skipNested frames offset line rest = .ok d) : d.rest.length < rest.length := by
  fun_induction skipNested frames offset line rest with
  | case1 => contradiction
  | case2 | case3 | case8 => cases h
  | _ =>
    have := (reaches_skipNested h).length_le
    simp only [List.length_cons] at *
    omega

theorem exists_skipNested_beside (splice : Splice post tail)
    (alike : List.Forall₂ Frame.Alike frames frames')
    (h : skipNested frames offset line (bytes ++ post) = .ok d)
    (within : post.length ≤ d.rest.length) :
    ∃ d', skipNested frames' offset' line' (bytes ++ tail) = .ok d' ∧ Beside post tail d d' := by
  induction size : bytes.length using Nat.strong_induction_on
    generalizing bytes frames frames' offset line offset' line' with
  | _ size ih =>
  cases alike with
  | nil =>
    rw [skipNested] at h
    cases h
    exact ⟨_, by rw [skipNested], bytes, rfl, rfl⟩
  | @cons frame frame' frames frames' first others =>
    cases bytes with
    | nil =>
      have shorter := length_skipNested_lt (by simp) h
      rw [List.nil_append] at shorter
      omega
    | cons b bytes =>
      rcases turn : frame.turn b (bytes ++ post).head? (Cursor.lineAfter b line) with ⟨taken, opened⟩
      have pos : 0 < (frame.turn b (bytes ++ post).head? (Cursor.lineAfter b line)).1 :=
        frame.turn_pos
      obtain ⟨opened', turn', same⟩ : ∃ opened', frame'.turn b (bytes ++ tail).head?
          (Cursor.lineAfter b line') = (taken, opened') ∧ List.Forall₂ Frame.Alike opened opened' := by
        cases bytes with
        | cons => exact first.turn turn _
        | nil =>
          cases splice with
          | refl => exact first.turn turn _
          | start breaks more _ =>
            -- The last byte looks past the place, but then it closes the last frame.
            obtain ⟨e, post, rfl⟩ := List.exists_cons_of_ne_nil more
            rw [List.nil_append, List.head?_cons] at turn pos
            obtain rfl : opened = [] := by
              by_contra stays
              rw [List.singleton_append, skipNested_cons turn] at h
              have shorter := length_skipNested_lt (List.append_ne_nil_of_left_ne_nil stays _) h
              rw [Cursor.length_skip] at shorter
              rw [turn] at pos
              simp only [List.length_cons] at shorter within
              omega
            obtain ⟨_, turn', same⟩ := first.turn turn (Cursor.lineAfter b line')
            cases same
            exact ⟨[], Frame.turn_break turn' breaks, .nil⟩
      rw [List.cons_append, skipNested_cons turn] at h
      rw [List.cons_append, skipNested_cons turn']
      rw [turn] at pos
      have before : Beside post tail ⟨b :: (bytes ++ post), offset, line⟩
        ⟨b :: (bytes ++ tail), offset', line'⟩ := ⟨b :: bytes, rfl, rfl⟩
      obtain ⟨more, ahead, ahead'⟩ := before.skip splice (n := taken)
        (within.trans (reaches_skipNested h).length_le)
      have length := congrArg List.length ahead
      rw [Cursor.length_skip] at length
      simp only [List.length_append, List.length_cons] at length size pos
      dsimp only at h ⊢
      rw [ahead] at h
      rw [ahead']
      exact ih more.length (by omega) (List.rel_append same others) h rfl

theorem exists_skipFrame_beside (splice : Splice post tail) (h : Beside post tail c c')
    (alike : Frame.Alike frame frame') (skipped : skipFrame frame c = .ok d)
    (within : post.length ≤ d.rest.length) :
    ∃ d', skipFrame frame' c' = .ok d' ∧ Beside post tail d d' := by
  obtain ⟨bytes, ahead, ahead'⟩ := h
  rw [skipFrame, ahead] at skipped
  rw [skipFrame, ahead']
  exact exists_skipNested_beside splice (.cons alike .nil) skipped within

/-! ## Heredocs -/

theorem rest_skipWhile (p : UInt8 → Bool) (c : Cursor) :
    (c.skipWhile p).rest = c.rest.dropWhile p := by
  obtain ⟨rest, offset, line⟩ := c
  rw [Cursor.skipWhile, Cursor.skipUntil]
  induction rest generalizing offset line with
  | nil => rfl
  | cons b rest ih =>
    rw [Cursor.skipUntil.go, List.dropWhile_cons]
    by_cases inside : p b
    · rw [if_neg (by simp [inside]), if_pos inside]
      exact ih _ _
    · rw [if_pos (by simp [inside]), if_neg inside]

theorem bytesTo_skipWhile (p : UInt8 → Bool) (c : Cursor) :
    c.bytesTo (c.skipWhile p) = c.rest.takeWhile p := by
  apply bytesTo_of_reaches (Cursor.reaches_skipWhile p c)
  rw [rest_skipWhile, List.takeWhile_append_dropWhile]

theorem all_bytesTo_skipWhile (p : UInt8 → Bool) (c : Cursor) :
    (c.bytesTo (c.skipWhile p)).all p := by
  rw [bytesTo_skipWhile]
  exact List.all_takeWhile

/-- The text of the next line, behind its indentation. -/
def nextLine (c : Cursor) : Cursor :=
  ((c.skipWhile (· != Cursor.newline)).skip 1).skipWhile isIndent

theorem head?_skipWhile_newline (more : (c.skipWhile (· != Cursor.newline)).rest ≠ []) :
    (c.skipWhile (· != Cursor.newline)).rest.head? = some Cursor.newline := by
  have stopped := stops_skipUntil (fun ahead ↦ !ahead.head?.any (· != Cursor.newline)) c
  rw [← Cursor.skipWhile] at stopped
  have stopped := stopped.resolve_left more
  obtain ⟨b, rest, eq⟩ := List.exists_cons_of_ne_nil more
  rw [eq] at stopped ⊢
  simpa using stopped

theorem Beside.nextLine (splice : Splice post tail) (beside : Beside post tail c c')
    (more : (c.skipWhile (· != Cursor.newline)).rest ≠ [])
    (within : post.length < (nextLine c).rest.length) :
    (c'.skipWhile (· != Cursor.newline)).rest ≠ [] ∧
      Beside post tail (Lexer.nextLine c) (Lexer.nextLine c') := by
  have inLine : post.length < ((c.skipWhile (· != Cursor.newline)).skip 1).rest.length :=
    within.trans_le (Cursor.reaches_skipWhile ..).length_le
  have atEnd : post.length < (c.skipWhile (· != Cursor.newline)).rest.length :=
    inLine.trans_le (Cursor.Reaches.skip ..).length_le
  have lineEnd := beside.skipWhile splice atEnd.le (.inl atEnd)
  have next := lineEnd.skip splice inLine.le
  refine ⟨?_, next.skipWhile splice within.le (.inl within)⟩
  intro done
  have newline := lineEnd.head? atEnd
  rw [head?_skipWhile_newline more, done] at newline
  cases newline

/-- The label stands ahead as a word of its own. -/
def labelAhead (label ahead : List UInt8) : Bool :=
  label.isPrefixOf ahead && !(ahead.drop label.length).head?.any isNameByte

theorem skipHeredocBody_eq (label : List UInt8) (start : Nat) (c : Cursor) :
    skipHeredocBody label start c =
      if (c.skipWhile (· != Cursor.newline)).rest = [] then .error ⟨start, .unterminatedHeredoc⟩
      else if labelAhead label (nextLine c).rest then .ok ((nextLine c).skip label.length)
      else skipHeredocBody label start (nextLine c) := by
  rw [skipHeredocBody]
  rfl

theorem labelAhead_of_length_le (splice : Splice post tail) (h : labelAhead label (bytes ++ post))
    (fits : label.length ≤ bytes.length) : labelAhead label (bytes ++ tail) := by
  simp only [labelAhead, Bool.and_eq_true, Bool.not_eq_true'] at h ⊢
  refine ⟨isPrefixOf_of_length_le h.1 fits, ?_⟩
  have apart := h.2
  rw [List.drop_append_of_le_length fits] at apart ⊢
  apply eq_false_of_ne_true
  intro goesOn
  rw [splice.head?_any isNameByte_dark goesOn] at apart
  cases apart

/-- A break can end a label that went on as a longer word. -/
theorem labelAhead_or_eq (splice : Splice post tail) (letters : label.all isNameByte)
    (h : labelAhead label (bytes ++ tail)) : labelAhead label (bytes ++ post) ∨ bytes = label := by
  cases splice with
  | refl => exact .inl h
  | start breaks _ _ =>
    simp only [labelAhead, Bool.and_eq_true, Bool.not_eq_true'] at h ⊢
    have dark : label.all fun b ↦ !isBreak b := by
      rw [List.all_eq_true] at letters ⊢
      intro b mem
      rw [Bool.not_eq_true']
      apply eq_false_of_ne_true
      intro breaks
      have letter := letters b mem
      rw [isNameByte_dark b breaks] at letter
      cases letter
    obtain ⟨more, rfl⟩ := List.isPrefixOf_iff_prefix.mp (isPrefixOf_of_break breaks dark h.1)
    cases more with
    | nil => exact .inr (List.append_nil _)
    | cons b more =>
      left
      have apart := h.2
      rw [List.append_assoc, List.drop_left] at apart ⊢
      exact ⟨List.isPrefixOf_iff_prefix.mpr (List.prefix_append _ _), apart⟩

theorem exists_line_of_skipHeredocBody {start : Nat} (h : skipHeredocBody label start c = .ok d) :
    (c.skipWhile (· != Cursor.newline)).rest ≠ [] ∧ (nextLine c).Reaches d := by
  rw [skipHeredocBody_eq] at h
  split at h
  · cases h
  rename_i ends
  refine ⟨ends, ?_⟩
  split at h
  · cases h
    exact .skip ..
  · exact reaches_skipHeredocBody h

theorem length_nextLine_lt (more : (c.skipWhile (· != Cursor.newline)).rest ≠ []) :
    (nextLine c).rest.length < (c.skipWhile (· != Cursor.newline)).rest.length := by
  have pos := List.length_pos_iff.mpr more
  have inLine := Cursor.length_skipWhile_le isIndent ((c.skipWhile (· != Cursor.newline)).skip 1)
  rw [Cursor.length_skip] at inLine
  exact inLine.trans_lt (by omega)

theorem length_skipHeredocBody_lt {start : Nat} (h : skipHeredocBody label start c = .ok d) :
    d.rest.length < (c.skipWhile (· != Cursor.newline)).rest.length := by
  obtain ⟨ends, reaches⟩ := exists_line_of_skipHeredocBody h
  exact reaches.length_le.trans_lt (length_nextLine_lt ends)

theorem newline_mem_of_skipHeredocBody {start : Nat} (ahead : c.rest = bytes ++ post)
    (h : skipHeredocBody label start c = .ok d) (within : post.length ≤ d.rest.length) :
    Cursor.newline ∈ bytes := by
  obtain ⟨between, split⟩ := exists_rest_eq (Cursor.reaches_skipWhile (· != Cursor.newline) c)
  have newline := head?_skipWhile_newline (exists_line_of_skipHeredocBody h).1
  have atEnd := within.trans_lt (length_skipHeredocBody_lt h)
  obtain ⟨more, suffix⟩ := List.suffix_of_suffix_length_le ⟨bytes, ahead.symm⟩ ⟨between, split.symm⟩
    atEnd.le
  rw [← suffix] at split newline atEnd
  obtain rfl : bytes = between ++ more := by
    apply @List.append_cancel_right _ _ post
    rw [← ahead, split, List.append_assoc]
  cases more with
  | nil => simp at atEnd
  | cons b more =>
    obtain rfl : b = Cursor.newline := by simpa using newline
    simp

theorem exists_skipHeredocBody_beside {start : Nat} (start' : Nat) (splice : Splice post tail)
    (beside : Beside post tail c c') (letters : label.all isNameByte) (more : label ≠ [])
    (h : skipHeredocBody label start c = .ok d) (within : post.length ≤ d.rest.length) :
    ∃ d', skipHeredocBody label start' c' = .ok d' ∧ Beside post tail d d' := by
  induction c using Cursor.induction_ahead generalizing c' with
  | step c ih =>
  rw [skipHeredocBody_eq] at h ⊢
  split at h
  · cases h
  rename_i ends
  split at h
  · cases h
    rename_i closes
    rw [Cursor.length_skip] at within
    have fits : label.length ≤ (nextLine c).rest.length :=
      (List.isPrefixOf_iff_prefix.mp (Bool.and_eq_true _ _ ▸ closes).1).length_le
    have pos := List.length_pos_iff.mpr more
    obtain ⟨goesOn, text⟩ := beside.nextLine splice ends (by omega)
    have closes' : labelAhead label (nextLine c').rest := by
      obtain ⟨bytes, ahead, ahead'⟩ := text
      rw [ahead] at closes within fits
      rw [List.length_append] at within fits
      rw [ahead']
      exact labelAhead_of_length_le splice closes (by omega)
    rw [if_neg goesOn, if_pos closes']
    exact ⟨_, rfl, text.skip splice (by rwa [Cursor.length_skip])⟩
  · rename_i stays
    have further : post.length < (nextLine c).rest.length :=
      within.trans_lt ((length_skipHeredocBody_lt h).trans_le (Cursor.length_skipWhile_le ..))
    obtain ⟨goesOn, text⟩ := beside.nextLine splice ends further
    have stays' : ¬ labelAhead label (nextLine c').rest := by
      obtain ⟨bytes, ahead, ahead'⟩ := text
      rw [ahead']
      intro closes
      rcases labelAhead_or_eq splice letters closes with closes | rfl
      · rw [← ahead] at closes
        exact stays closes
      · have letter := List.all_eq_true.mp letters _ (newline_mem_of_skipHeredocBody ahead h within)
        revert letter
        decide
    rw [if_neg goesOn, if_neg stays']
    exact ih _ ((length_nextLine_lt ends).trans_le (Cursor.length_skipWhile_le ..)) text h

theorem length_skipLabelled_lt {start : Nat} {quote : Option UInt8}
    (h : skipLabelled start quote c = .ok d) : d.rest.length < c.rest.length := by
  have body {e : Cursor} {label : List UInt8} (h : skipHeredocBody label start e = .ok d) :
      d.rest.length < e.rest.length :=
    (length_skipHeredocBody_lt h).trans_le (Cursor.length_skipWhile_le ..)
  have last := Cursor.length_skipWhile_le isNameByte c
  simp only [skipLabelled] at h
  split at h
  · cases h
  split at h
  · exact (body h).trans_le last
  split at h
  · exact (body h).trans_le ((Cursor.Reaches.skip 1 _).length_le.trans last)
  · cases h

theorem exists_skipLabelled_beside {start : Nat} {quote : Option UInt8} (start' : Nat)
    (splice : Splice post tail) (beside : Beside post tail c c')
    (h : skipLabelled start quote c = .ok d) (within : post.length ≤ d.rest.length) :
    ∃ d', skipLabelled start' quote c' = .ok d' ∧ Beside post tail d d' := by
  have body {e : Cursor} {label : List UInt8} (h : skipHeredocBody label start e = .ok d) :
      post.length < e.rest.length :=
    within.trans_lt ((length_skipHeredocBody_lt h).trans_le (Cursor.length_skipWhile_le ..))
  have labelled (more : post.length < (c.skipWhile isNameByte).rest.length) :
      Beside post tail (c.skipWhile isNameByte) (c'.skipWhile isNameByte) ∧
        c'.bytesTo (c'.skipWhile isNameByte) = c.bytesTo (c.skipWhile isNameByte) := by
    have last := beside.skipWhile splice more.le (.inl more)
    exact ⟨last, beside.bytesTo last (Cursor.reaches_skipWhile ..) (Cursor.reaches_skipWhile ..)⟩
  have letters := all_bytesTo_skipWhile isNameByte c
  simp only [skipLabelled] at h ⊢
  split at h
  · cases h
  rename_i named
  have named : c.bytesTo (c.skipWhile isNameByte) ≠ [] := by simpa using named
  split at h
  · rename_i bare
    obtain ⟨last, label⟩ := labelled (body h)
    rw [label, if_neg (by simpa using named), if_pos bare]
    exact exists_skipHeredocBody_beside start' splice last letters named h within
  rename_i quoted
  split at h
  · rename_i closes
    have after := body h
    have more := after.trans_le (Cursor.Reaches.skip 1 _).length_le
    obtain ⟨last, label⟩ := labelled more
    rw [label, if_neg (by simpa using named), if_neg quoted, if_pos ((last.head? more).trans closes)]
    exact exists_skipHeredocBody_beside start' splice (last.skip splice after.le) letters named h
      within
  · cases h

theorem exists_skipHeredoc_beside {start : Nat} (start' : Nat) (splice : Splice post tail)
    (beside : Beside post tail c c') (h : skipHeredoc start c = .ok d)
    (within : post.length ≤ d.rest.length) :
    ∃ d', skipHeredoc start' c' = .ok d' ∧ Beside post tail d d' := by
  simp only [skipHeredoc] at h ⊢
  have mark (more : post.length < (c.skipWhile isIndent).rest.length) :
      Beside post tail (c.skipWhile isIndent) (c'.skipWhile isIndent) ∧
        (c'.skipWhile isIndent).rest.head? = (c.skipWhile isIndent).rest.head? := by
    have mark := beside.skipWhile splice more.le (.inl more)
    exact ⟨mark, mark.head? more⟩
  split at h
  · rename_i quoted
    have after := within.trans_lt (length_skipLabelled_lt h)
    obtain ⟨mark, head⟩ := mark (after.trans_le (Cursor.Reaches.skip 1 _).length_le)
    rw [head, quoted]
    exact exists_skipLabelled_beside start' splice (mark.skip splice after.le) h within
  · rename_i bare
    obtain ⟨mark, head⟩ := mark (within.trans_lt (length_skipLabelled_lt h))
    rw [head, bare]
    exact exists_skipLabelled_beside start' splice mark h within

end ScriptCache.Source.Lexer
