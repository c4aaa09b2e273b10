import ScriptCache.Proofs.Source.Splice.Literal

/-!
# Heredocs

A heredoc is read as one token up to the first line that begins with its label. A longer word that
begins with the label does not end it, nor does the label within a line, and what else stands in the
lines is not looked at. Without such a line the heredoc is refused on the line on which it begins.
-/

namespace ScriptCache.Source.Lexer

open Ascii (byte)

variable {bytes rest tail label line last : List UInt8} {lines : List (List UInt8)} {b : UInt8}
  {p : UInt8 → Bool} {c stop : Cursor} {start : Nat}

/-- Behind blanks and tabs, the line begins with the label and not with a longer word. -/
def Closes (label line : List UInt8) : Prop :=
  ∃ indent after, line = indent ++ (label ++ after) ∧ (∀ b ∈ indent, isIndent b) ∧
    ¬after.head?.any isNameByte

/-- A label is a word. -/
structure IsLabel (label : List UInt8) : Prop where
  ne_nil : label ≠ []
  letters : ∀ b ∈ label, isNameByte b

/-- A heredoc from its mark on, up to the line that closes it. -/
structure Heredoc where
  /-- What stands between the mark and the label. -/
  blanks : List UInt8
  blanks_indent : ∀ b ∈ blanks, isIndent b
  /-- What stands on both sides of the label. -/
  quote : Option UInt8
  quote_mem : quote ∈ [none, some Ascii.quote, some Ascii.apostrophe]
  label : List UInt8
  isLabel : IsLabel label
  /-- The rest of the line. -/
  opening : List UInt8
  opening_line : Cursor.newline ∉ opening
  opening_bare : quote = none → ¬opening.head?.any isNameByte
  lines : List (List UInt8)
  lines_line : ∀ line ∈ lines, Cursor.newline ∉ line
  lines_open : ∀ line ∈ lines, ¬Closes label line

/-- Every line behind the newline in front of it. -/
def unlines (lines : List (List UInt8)) : List UInt8 :=
  lines.flatMap (Cursor.newline :: ·)

def heredocMark : List UInt8 := Ascii.ofString "<<<"

def Heredoc.text (h : Heredoc) : List UInt8 :=
  heredocMark ++ (h.blanks ++ (h.quote.toList ++ (h.label ++ (h.quote.toList ++
    (h.opening ++ unlines h.lines)))))

/-- The whole heredoc, closed by a line with this indentation. -/
def Heredoc.closed (h : Heredoc) (indent : List UInt8) : List UInt8 :=
  h.text ++ Cursor.newline :: (indent ++ h.label)

theorem Heredoc.text_append (h : Heredoc) (tail : List UInt8) :
    h.text ++ tail = heredocMark ++ (h.blanks ++ (h.quote.toList ++ (h.label ++ (h.quote.toList ++
      (h.opening ++ (unlines h.lines ++ tail)))))) := by
  simp only [Heredoc.text, List.append_assoc]

theorem rest_skip_heredocMark (ahead : c.rest = heredocMark ++ rest) : (c.skip 3).rest = rest := by
  rw [Cursor.rest_skip, ahead]
  rfl

/-! ## Stretches of bytes -/

theorem dropWhile_append (all : ∀ b ∈ bytes, p b) (stops : ¬rest.head?.any p) :
    (bytes ++ rest).dropWhile p = rest := by
  rw [List.dropWhile_append_of_pos all]
  cases rest with
  | nil => rfl
  | cons b rest => exact List.dropWhile_cons_of_neg stops

/-- Nothing more stands on the line. -/
def LineEnds (tail : List UInt8) : Prop := tail = [] ∨ ∃ more, tail = Cursor.newline :: more

theorem LineEnds.not_any (h : LineEnds tail) (other : p Cursor.newline = false) :
    ¬tail.head?.any p := by
  rcases h with rfl | ⟨more, rfl⟩
  · simp
  · simp [other]

theorem LineEnds.unlines (h : LineEnds tail) (lines : List (List UInt8)) :
    LineEnds (unlines lines ++ tail) := by
  cases lines with
  | nil => exact h
  | cons line lines => exact .inr ⟨_, rfl⟩

/-- What stands in front of the end of a line stops there at the latest. -/
theorem head?_append_any (ends : LineEnds tail) (other : p Cursor.newline = false)
    (bytes : List UInt8) : (bytes ++ tail).head?.any p = bytes.head?.any p := by
  cases bytes with
  | nil =>
    rw [List.nil_append, Bool.eq_false_iff.mpr (ends.not_any other)]
    rfl
  | cons => rfl

theorem dropWhile_isIndent_append (ends : LineEnds tail) (line : List UInt8) :
    (line ++ tail).dropWhile isIndent = line.dropWhile isIndent ++ tail := by
  induction line with
  | nil =>
    rw [List.nil_append, List.dropWhile_nil, List.nil_append]
    exact dropWhile_append (List.forall_mem_nil _) (ends.not_any rfl)
  | cons b line ih =>
    rw [List.cons_append, List.dropWhile_cons, List.dropWhile_cons]
    split
    · exact ih
    · rfl

/-! ## Labels -/

namespace IsLabel

theorem newline_notMem (h : IsLabel label) : Cursor.newline ∉ label := by
  intro mem
  have letter := h.letters _ mem
  revert letter
  decide

/-- A byte that is no part of a word is not the first of the label. -/
theorem not_any (h : IsLabel label) (apart : ∀ b, isNameByte b → p b = false)
    (rest : List UInt8) : ¬(label ++ rest).head?.any p := by
  cases label with
  | nil => exact absurd rfl h.ne_nil
  | cons b label =>
    have first := apart b (h.letters b List.mem_cons_self)
    simp [first]

end IsLabel

theorem isIndent_of_isNameByte (letter : isNameByte b) : isIndent b = false := by
  apply eq_false_of_ne_true
  intro blank
  simp only [isIndent, Bool.or_eq_true, beq_iff_eq] at blank
  rcases blank with rfl | rfl
  · revert letter; decide
  · revert letter; decide

theorem not_isMark_of_isNameByte (letter : isNameByte b) :
    ¬(b = Ascii.quote ∨ b = Ascii.apostrophe) := by
  rintro (rfl | rfl)
  · revert letter; decide
  · revert letter; decide

theorem labelAhead_append (apart : ¬rest.head?.any isNameByte) : labelAhead label (label ++ rest) := by
  rw [labelAhead, List.drop_left, Bool.eq_false_iff.mpr apart, Bool.not_false, Bool.and_true,
    List.isPrefixOf_iff_prefix]
  exact List.prefix_append _ _

theorem exists_of_labelAhead (h : labelAhead label bytes) :
    ∃ after, bytes = label ++ after ∧ ¬after.head?.any isNameByte := by
  rw [labelAhead, Bool.and_eq_true, List.isPrefixOf_iff_prefix] at h
  obtain ⟨⟨after, rfl⟩, apart⟩ := h
  rw [List.drop_left] at apart
  exact ⟨after, rfl, by simpa using apart⟩

theorem closes_iff (isLabel : IsLabel label) :
    Closes label line ↔ labelAhead label (line.dropWhile isIndent) := by
  constructor
  · rintro ⟨indent, after, rfl, blank, apart⟩
    rw [dropWhile_append blank (isLabel.not_any (fun _ ↦ isIndent_of_isNameByte) after)]
    exact labelAhead_append apart
  · intro h
    obtain ⟨after, split, apart⟩ := exists_of_labelAhead h
    refine ⟨line.takeWhile isIndent, after, ?_, fun b mem ↦ List.mem_takeWhile_imp mem, apart⟩
    rw [← split, List.takeWhile_append_dropWhile]

/-- Whether a line begins with the label is seen on the line itself. -/
theorem closes_of_labelAhead (isLabel : IsLabel label) (ends : LineEnds tail)
    (h : labelAhead label ((line ++ tail).dropWhile isIndent)) : Closes label line := by
  rw [closes_iff isLabel]
  rw [dropWhile_isIndent_append ends] at h
  generalize line.dropWhile isIndent = text at h ⊢
  obtain ⟨after, split, apart⟩ := exists_of_labelAhead h
  obtain ⟨more, rfl, rfl⟩ | ⟨more, rfl, rfl⟩ := List.append_eq_append_iff.mp split
  · cases more with
    | nil =>
      have alone : labelAhead text (text ++ []) := labelAhead_append (by simp)
      simpa using alone
    | cons a more =>
      rcases ends with done | ⟨_, same⟩
      · cases done
      · cases same
        exact absurd (by simp) isLabel.newline_notMem
  · rw [head?_append_any ends (by decide)] at apart
    exact labelAhead_append apart

/-! ## From line to line -/

theorem rest_nextLine (line_line : Cursor.newline ∉ line)
    (ahead : c.rest = line ++ Cursor.newline :: bytes) :
    (c.skipWhile (· != Cursor.newline)).rest = Cursor.newline :: bytes ∧
      (nextLine c).rest = bytes.dropWhile isIndent := by
  have lineEnd : (c.skipWhile (· != Cursor.newline)).rest = Cursor.newline :: bytes := by
    rw [rest_skipWhile, ahead, dropWhile_append _ (by simp)]
    intro b mem
    exact bne_iff_ne.mpr fun same ↦ line_line (same ▸ mem)
  refine ⟨lineEnd, ?_⟩
  rw [nextLine, rest_skipWhile, Cursor.rest_skip, lineEnd]
  rfl

/-- Lines that do not close the heredoc are passed over. -/
theorem exists_skipHeredocBody_lines (start : Nat) (isLabel : IsLabel label) (ends : LineEnds tail)
    (lines_line : ∀ line ∈ lines, Cursor.newline ∉ line)
    (lines_open : ∀ line ∈ lines, ¬Closes label line)
    (line_line : Cursor.newline ∉ line) (ahead : c.rest = line ++ (unlines lines ++ tail)) :
    ∃ d last, d.rest = last ++ tail ∧ Cursor.newline ∉ last ∧
      skipHeredocBody label start c = skipHeredocBody label start d := by
  induction lines generalizing c line with
  | nil => exact ⟨c, line, ahead, line_line, rfl⟩
  | cons next lines ih =>
    obtain ⟨next_line, lines_line⟩ := List.forall_mem_cons.mp lines_line
    obtain ⟨next_open, lines_open⟩ := List.forall_mem_cons.mp lines_open
    have split : line ++ (unlines (next :: lines) ++ tail) =
        line ++ Cursor.newline :: (next ++ (unlines lines ++ tail)) := by
      simp [unlines]
    obtain ⟨lineEnd, text⟩ := rest_nextLine line_line (ahead.trans split)
    have stays : ¬labelAhead label (nextLine c).rest := by
      rw [text]
      exact fun closes ↦ next_open (closes_of_labelAhead isLabel (ends.unlines lines) closes)
    rw [dropWhile_isIndent_append (ends.unlines lines)] at text
    obtain ⟨d, last, behind, last_line, same⟩ := ih lines_line lines_open
      (fun mem ↦ next_line ((List.dropWhile_suffix _).subset mem)) text
    refine ⟨d, last, behind, last_line, ?_⟩
    rw [skipHeredocBody_eq, if_neg (by simp [lineEnd]), if_neg stays, same]

/-- The heredoc ends behind the label of the next line. -/
theorem exists_skipHeredocBody_closes {indent after : List UInt8} (start : Nat)
    (isLabel : IsLabel label)
    (indent_indent : ∀ b ∈ indent, isIndent b) (apart : ¬after.head?.any isNameByte)
    (line_line : Cursor.newline ∉ line)
    (ahead : c.rest = line ++ Cursor.newline :: (indent ++ (label ++ after))) :
    ∃ d, skipHeredocBody label start c = .ok d ∧ d.rest = after := by
  obtain ⟨lineEnd, text⟩ := rest_nextLine line_line ahead
  rw [dropWhile_append indent_indent (isLabel.not_any (fun _ ↦ isIndent_of_isNameByte) after)] at text
  refine ⟨(nextLine c).skip label.length, ?_, by rw [Cursor.rest_skip, text, List.drop_left]⟩
  rw [skipHeredocBody_eq, if_neg (by simp [lineEnd]), text, if_pos (labelAhead_append apart)]

theorem skipHeredocBody_last (line_line : Cursor.newline ∉ line) (ahead : c.rest = line) :
    skipHeredocBody label start c = .error ⟨start, .unterminatedHeredoc⟩ := by
  have lineEnd : (c.skipWhile (· != Cursor.newline)).rest = [] := by
    rw [rest_skipWhile, ahead, List.dropWhile_eq_nil_iff]
    intro b mem
    exact bne_iff_ne.mpr fun same ↦ line_line (same ▸ mem)
  rw [skipHeredocBody_eq, if_pos lineEnd]

/-! ## The first line -/

theorem isMark_of_mem {quote : UInt8}
    (mem : some quote ∈ [none, some Ascii.quote, some Ascii.apostrophe]) :
    quote = Ascii.quote ∨ quote = Ascii.apostrophe := by
  simpa using mem

/-- The label is read, with the quotes around it. -/
theorem exists_skipLabelled (isLabel : IsLabel label) {quote : Option UInt8}
    (quote_mem : quote ∈ [none, some Ascii.quote, some Ascii.apostrophe])
    (bare : quote = none → ¬rest.head?.any isNameByte)
    (ahead : c.rest = label ++ (quote.toList ++ rest)) :
    ∃ d, d.rest = rest ∧ skipLabelled start quote c = skipHeredocBody label start d := by
  have apart : ¬(quote.toList ++ rest).head?.any isNameByte := by
    cases quote with
    | none => exact bare rfl
    | some quote =>
      rcases isMark_of_mem quote_mem with rfl | rfl
      · exact (by decide : ¬isNameByte Ascii.quote)
      · exact (by decide : ¬isNameByte Ascii.apostrophe)
  have last : (c.skipWhile isNameByte).rest = quote.toList ++ rest := by
    rw [rest_skipWhile, ahead, dropWhile_append isLabel.letters apart]
  have word : c.bytesTo (c.skipWhile isNameByte) = label :=
    bytesTo_of_reaches (Cursor.reaches_skipWhile isNameByte c) (by rw [ahead, last])
  have named : label.isEmpty = false := by simpa using isLabel.ne_nil
  cases quote with
  | none =>
    refine ⟨_, last, ?_⟩
    simp [skipLabelled, word, named]
  | some quote =>
    refine ⟨(c.skipWhile isNameByte).skip 1, by rw [Cursor.rest_skip, last]; rfl, ?_⟩
    simp [skipLabelled, word, named, last]

theorem Heredoc.exists_skipHeredoc (h : Heredoc) (start : Nat) (ends : LineEnds tail)
    (ahead : c.rest = h.blanks ++ (h.quote.toList ++ (h.label ++ (h.quote.toList ++
      (h.opening ++ (unlines h.lines ++ tail)))))) :
    ∃ d last, d.rest = last ++ tail ∧ Cursor.newline ∉ last ∧
      skipHeredoc start c = skipHeredocBody h.label start d := by
  have bare (none : h.quote = none) :
      ¬(h.opening ++ (unlines h.lines ++ tail)).head?.any isNameByte := by
    rw [head?_append_any (ends.unlines h.lines) (by decide)]
    exact h.opening_bare none
  have dark (rest : List UInt8) : ¬(h.quote.toList ++ (h.label ++ rest)).head?.any isIndent := by
    have mem := h.quote_mem
    cases eq : h.quote with
    | none => exact h.isLabel.not_any (fun _ ↦ isIndent_of_isNameByte) rest
    | some quote =>
      rw [eq] at mem
      rcases isMark_of_mem mem with rfl | rfl
      · exact (by decide : ¬isIndent Ascii.quote)
      · exact (by decide : ¬isIndent Ascii.apostrophe)
  have mark : (c.skipWhile isIndent).rest = h.quote.toList ++ (h.label ++ (h.quote.toList ++
      (h.opening ++ (unlines h.lines ++ tail)))) := by
    rw [rest_skipWhile, ahead, dropWhile_append h.blanks_indent (dark _)]
  have first : (c.skipWhile isIndent).rest.head?.filter
      (fun b ↦ b == Ascii.quote || b == Ascii.apostrophe) = h.quote := by
    have mem := h.quote_mem
    rw [mark]
    cases eq : h.quote with
    | none =>
      obtain ⟨b, label, split⟩ := List.exists_cons_of_ne_nil h.isLabel.ne_nil
      have letter := h.isLabel.letters b (by simp [split])
      rw [split]
      exact Option.filter_some_neg (by simpa using not_isMark_of_isNameByte letter)
    | some quote =>
      rw [eq] at mem
      rcases isMark_of_mem mem with rfl | rfl <;> rfl
  have behind : ∃ d, d.rest = h.opening ++ (unlines h.lines ++ tail) ∧
      skipHeredoc start c = skipHeredocBody h.label start d := by
    rw [skipHeredoc, first]
    cases eq : h.quote with
    | none =>
      rw [eq] at mark bare
      exact exists_skipLabelled h.isLabel (by simp) bare mark
    | some quote =>
      have mem := h.quote_mem
      rw [eq] at mark mem
      refine exists_skipLabelled h.isLabel mem (by simp) ?_
      rw [Cursor.rest_skip, mark]
      rfl
  obtain ⟨d, there, same⟩ := behind
  obtain ⟨e, last, ahead, last_line, onward⟩ :=
    exists_skipHeredocBody_lines start h.isLabel ends h.lines_line h.lines_open h.opening_line there
  exact ⟨e, last, ahead, last_line, same.trans onward⟩

/-! ## The token -/

theorem readToken_heredocMark (ahead : c.rest = heredocMark ++ rest) :
    readToken c (byte '<') (c.skip 1) = (skipHeredoc c.line (c.skip 3)).map (.literal, ·) := by
  have next : (c.skip 1).rest = byte '<' :: byte '<' :: rest := by
    rw [Cursor.rest_skip, ahead]
    rfl
  have opens : (Ascii.ofString "<<").isPrefixOf (c.skip 1).rest := by
    rw [next]
    rfl
  have notTag : byte '<' ≠ byte '?' := by decide
  have notGroup : byte '<' ≠ byte '#' := by decide
  simp only [readToken, notTag, notGroup, false_and, if_false, opens, and_self, if_true]
  rw [← Cursor.skip_add]

/-- A heredoc is one token that ends behind the label of the first line that closes it. Without such
a line it is refused, on the line of its mark. -/
theorem heredoc_ends_at_label (h : Heredoc) (c : Cursor) :
    (∀ indent after, (∀ b ∈ indent, isIndent b) → ¬after.head?.any isNameByte →
      c.rest = h.closed indent ++ after →
        readToken c (byte '<') (c.skip 1) = .ok (.literal, c.skip (h.closed indent).length) ∧
          (c.skip (h.closed indent).length).rest = after ∧
          readTokens c = (readTokens (c.skip (h.closed indent).length)).map fun s ↦
            { s with tokens := ⟨.literal, c.line, c.offset⟩ :: s.tokens }) ∧
      (c.rest = h.text →
        readToken c (byte '<') (c.skip 1) = .error ⟨c.line, .unterminatedHeredoc⟩ ∧
          readTokens c = .error ⟨c.line, .unterminatedHeredoc⟩) := by
  have mark {rest : List UInt8} (ahead : c.rest = heredocMark ++ rest) : skipTrivia c = .ok c :=
    skipTrivia_dark (b := byte '<') ahead (by decide)
  constructor
  · intro indent after indent_indent apart ahead
    have split : c.rest = h.text ++ Cursor.newline :: (indent ++ (h.label ++ after)) := by
      rw [ahead, Heredoc.closed, List.append_assoc, List.cons_append, List.append_assoc]
    rw [Heredoc.text_append] at split
    obtain ⟨d, last, there, last_line, same⟩ := h.exists_skipHeredoc c.line
      (.inr ⟨_, rfl⟩) (rest_skip_heredocMark split)
    obtain ⟨stop, closed, behind⟩ := exists_skipHeredocBody_closes c.line h.isLabel
      indent_indent apart last_line there
    have token : readToken c (byte '<') (c.skip 1) = .ok (.literal, stop) := by
      rw [readToken_heredocMark split, same, closed]
      rfl
    obtain rfl : stop = c.skip (h.closed indent).length :=
      eq_skip_of_reaches ((Cursor.Reaches.skip 1 c).trans (reaches_readToken token))
        (by rw [ahead, behind])
    exact ⟨token, behind, readTokens_token (mark split) split token rfl⟩
  · intro ahead
    rw [← List.append_nil h.text, Heredoc.text_append] at ahead
    obtain ⟨d, last, there, last_line, same⟩ := h.exists_skipHeredoc c.line
      (.inl rfl) (rest_skip_heredocMark ahead)
    have token : readToken c (byte '<') (c.skip 1) = .error ⟨c.line, .unterminatedHeredoc⟩ := by
      rw [readToken_heredocMark ahead, same,
        skipHeredocBody_last last_line (there.trans (List.append_nil _))]
      rfl
    exact ⟨token, readTokens_error (mark ahead) ahead token⟩

namespace Sample

def eot : List UInt8 := [byte 'E', byte 'O', byte 'T']

/-- A longer word, an empty line and the label within a line. -/
def eotLines : List (List UInt8) :=
  [byte ' ' :: (eot ++ [byte 'X', byte '}']), [], byte '"' :: eot]

theorem isLabel_eot : IsLabel eot := ⟨by decide, List.all_eq_true.mp (by decide)⟩

theorem eotLines_open : ∀ line ∈ eotLines, Cursor.newline ∉ line ∧ ¬Closes eot line := by
  simp only [eotLines, List.forall_mem_cons, closes_iff isLabel_eot]
  exact ⟨by decide, by decide, by decide, List.forall_mem_nil _⟩

def heredoc : Heredoc where
  blanks := [byte ' ']
  blanks_indent := List.all_eq_true.mp (by decide)
  quote := some Ascii.apostrophe
  quote_mem := by decide
  label := eot
  isLabel := isLabel_eot
  opening := [byte ')']
  opening_line := by decide
  opening_bare := by decide
  lines := eotLines
  lines_line := fun line mem ↦ (eotLines_open line mem).1
  lines_open := fun line mem ↦ (eotLines_open line mem).2

/-- The label behind a tab, and more on its line. -/
def heredocCursor : Cursor := ⟨heredoc.closed [0x09] ++ [byte ';'], 8, 2⟩

end Sample

theorem heredoc_ends_at_label_sample :
    (∀ b ∈ ([0x09] : List UInt8), isIndent b) ∧ ¬[byte ';'].head?.any isNameByte ∧
      readToken Sample.heredocCursor (byte '<') (Sample.heredocCursor.skip 1) =
        .ok (.literal, ⟨[byte ';'], 36, 6⟩) ∧
      readToken ⟨Sample.heredoc.text, 8, 2⟩ (byte '<') (Cursor.skip 1 ⟨Sample.heredoc.text, 8, 2⟩) =
        .error ⟨2, .unterminatedHeredoc⟩ := by
  have indent : ∀ b ∈ ([0x09] : List UInt8), isIndent b := List.all_eq_true.mp (by decide)
  exact ⟨indent, by decide,
    ((heredoc_ends_at_label Sample.heredoc Sample.heredocCursor).1 [0x09] [byte ';'] indent
      (by decide) rfl).1,
    ((heredoc_ends_at_label Sample.heredoc ⟨Sample.heredoc.text, 8, 2⟩).2 rfl).1⟩

end ScriptCache.Source.Lexer
