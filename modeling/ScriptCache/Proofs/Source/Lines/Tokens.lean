import ScriptCache.Proofs.Source.Trivia

/-!
# The lines of tokens

A line is counted at every byte that is passed, in every loop of the lexer. The invariant ties it to
the offset: wherever a cursor stands, its line is one more than the newlines in front of it. What the
lexer reports, in a token or in an error, is the line of some cursor on its way.
-/

namespace ScriptCache.Source

/-- The line of the place behind the first `offset` bytes. -/
def lineAt (source : List UInt8) (offset : Nat) : Nat :=
  (source.take offset).count Cursor.newline + 1

variable {source : List UInt8} {m n : Nat}

theorem lineAt_mono (source : List UInt8) (h : m ≤ n) : lineAt source m ≤ lineAt source n := by
  have inside : source.take m <+: source.take n := List.take_prefix_take_left h
  exact Nat.succ_le_succ (inside.sublist.count_le _)

theorem lineAt_pos (source : List UInt8) (offset : Nat) : 1 ≤ lineAt source offset :=
  Nat.succ_pos _

theorem lineAt_le (source : List UInt8) (offset : Nat) :
    lineAt source offset ≤ source.count Cursor.newline + 1 :=
  Nat.succ_le_succ ((List.take_sublist offset source).count_le _)

namespace Cursor

/-- The cursor stands in the source, on the line that its offset is on. -/
structure Placed (source : List UInt8) (c : Cursor) : Prop where
  inSource : Lexer.InSource source c
  within : c.offset ≤ source.length
  line : c.line = lineAt source c.offset

variable {c d : Cursor}

theorem placed_ofSource (source : List UInt8) : (ofSource source).Placed source :=
  ⟨List.drop_zero, Nat.zero_le _, rfl⟩

theorem Placed.length (h : c.Placed source) : c.offset + c.rest.length = source.length := by
  have rest := congrArg List.length h.inSource
  rw [List.length_drop] at rest
  have within := h.within
  omega

/-- One byte further, the line has counted it. -/
theorem Placed.next {b : UInt8} {rest : List UInt8} {offset line : Nat}
    (h : Placed source ⟨b :: rest, offset, line⟩) :
    Placed source ⟨rest, offset + 1, lineAfter b line⟩ := by
  have ahead : source.drop offset = b :: rest := h.inSource
  have length := h.length
  have behind : source.drop (offset + 1) = rest := by
    rw [← List.drop_drop, ahead]
    rfl
  have taken : source.take (offset + 1) = source.take offset ++ [b] := by
    rw [List.take_add, ahead]
    rfl
  have counted : lineAfter b line = lineAt source (offset + 1) := by
    have line_eq : line = lineAt source offset := h.line
    rw [lineAt, taken, List.count_append, lineAfter, line_eq, lineAt]
    split
    · rename_i newline
      rw [newline, List.count_singleton_self]
    · rename_i other
      rw [List.count_singleton, beq_false_of_ne other]
      rfl
  simp only [List.length_cons] at length
  exact ⟨behind, by dsimp only; omega, counted⟩

theorem Placed.reaches (h : c.Placed source) (reaches : c.Reaches d) : d.Placed source := by
  obtain ⟨n, rfl⟩ := reaches
  induction n generalizing c with
  | zero => exact h
  | succ n ih =>
    obtain ⟨rest, offset, line⟩ := c
    cases rest with
    | nil => exact h
    | cons b rest => exact ih h.next

theorem Reaches.offset_le (h : c.Reaches d) : c.offset ≤ d.offset := by
  obtain ⟨n, rfl⟩ := h
  rw [Lexer.offset_skip]
  exact Nat.le_add_right ..

theorem offset_next {b : UInt8} {rest : List UInt8} (first : c.rest = b :: rest) :
    (c.skip 1).offset = c.offset + 1 := by
  rw [Lexer.offset_skip, first]
  simp

end Cursor

/-- The tokens as they are handed to the parser, with the mark of the end behind them. -/
def TokenStream.listed (s : TokenStream) : List (Option TokenKind × Nat) :=
  s.tokens.map (fun t ↦ (some t.kind, t.line)) ++ [(none, s.endLine)]

def TokenStream.lines (s : TokenStream) : List Nat := s.listed.map (·.2)

/-- The token is read off the bytes of the source from its offset on, up to `stop`. -/
def Token.Spans (source : List UInt8) (t : Token) (stop : Nat) : Prop :=
  ∃ b rest behind, source.drop t.offset = b :: rest ∧
    Lexer.readToken ⟨b :: rest, t.offset, t.line⟩ b
      (Cursor.skip 1 ⟨b :: rest, t.offset, t.line⟩) = .ok (t.kind, behind) ∧ behind.offset = stop

/-- Where the tokens of a stream stand in the source, from `start` on, and where reading stopped: at
the end, or behind the name that ends the script. -/
structure TokenStream.Lined (source : List UInt8) (start : Nat) (s : TokenStream) (stop : Nat) :
    Prop where
  lines : s.lines = (s.tokens.map (·.offset) ++ [stop]).map (lineAt source)
  ascending : (s.tokens.map (·.offset) ++ [stop]).Pairwise (· < ·)
  start_le : ∀ offset ∈ s.tokens.map (·.offset) ++ [stop], start ≤ offset
  within : stop ≤ source.length
  spans : ∀ t ∈ s.tokens, ∃ stop', t.Spans source stop'
  stopped : stop = source.length ∨
    ∃ t ∈ s.tokens.getLast?, Lexer.isHalt t.kind ∧ t.Spans source stop

namespace TokenStream

variable {s : TokenStream} {start stop : Nat} {t : Token}

theorem lines_cons (t : Token) (s : TokenStream) :
    lines { s with tokens := t :: s.tokens } = t.line :: s.lines := rfl

/-- A token in front of the others. -/
theorem Lined.cons {behind : Nat} (spans : t.Spans source behind)
    (line : t.line = lineAt source t.offset) (start_le : start ≤ t.offset) (lt : t.offset < behind)
    (h : s.Lined source behind stop) :
    Lined source start { s with tokens := t :: s.tokens } stop where
  lines := by
    rw [lines_cons, h.lines, line]
    rfl
  ascending := by
    refine List.pairwise_cons.mpr ⟨fun offset mem ↦ ?_, h.ascending⟩
    exact Nat.lt_of_lt_of_le lt (h.start_le offset mem)
  start_le := by
    refine List.forall_mem_cons.mpr ⟨start_le, fun offset mem ↦ ?_⟩
    have behind_le := h.start_le offset mem
    omega
  within := h.within
  spans := List.forall_mem_cons.mpr ⟨⟨behind, spans⟩, h.spans⟩
  stopped := by
    rcases h.stopped with done | ⟨last, mem, halts, last_spans⟩
    · exact .inl done
    · refine .inr ⟨last, ?_, halts, last_spans⟩
      cases tokens : s.tokens with
      | nil =>
        rw [tokens] at mem
        cases mem
      | cons u tokens' =>
        rw [tokens] at mem
        exact mem

theorem Lined.nondecreasing (h : s.Lined source start stop) : s.lines.Pairwise (· ≤ ·) := by
  rw [h.lines]
  exact List.pairwise_map.mpr (h.ascending.imp fun lt ↦ lineAt_mono source (Nat.le_of_lt lt))

theorem Lined.bounds (h : s.Lined source start stop) :
    ∀ line ∈ s.lines, 1 ≤ line ∧ line ≤ source.count Cursor.newline + 1 := by
  rw [h.lines]
  intro line mem
  obtain ⟨offset, -, rfl⟩ := List.mem_map.mp mem
  exact ⟨lineAt_pos source offset, lineAt_le source offset⟩

end TokenStream

namespace Lexer

variable {c start stop : Cursor} {b : UInt8} {rest : List UInt8} {kind : TokenKind}
  {s : TokenStream}

theorem spans_of_readToken (placed : start.Placed source) (first : start.rest = b :: rest)
    (token : readToken start b (start.skip 1) = .ok (kind, stop)) :
    Token.Spans source ⟨kind, start.line, start.offset⟩ stop.offset ∧ start.offset < stop.offset := by
  have here : start = ⟨b :: rest, start.offset, start.line⟩ := by rw [← first]
  have onward := (reaches_readToken token).offset_le
  rw [Cursor.offset_next first] at onward
  rw [here] at token
  exact ⟨⟨b, rest, stop, by rw [placed.inSource, first], token, rfl⟩, onward⟩

/-- The invariant of the lexer's main loop. -/
theorem exists_lined (placed : c.Placed source) (h : readTokens c = .ok s) :
    ∃ stop, s.Lined source c.offset stop := by
  fun_induction readTokens c generalizing s with
  | case1 | case3 => cases h
  | case2 c start trivia first =>
    cases h
    have behind := reaches_skipTrivia trivia
    have start_placed := placed.reaches behind
    have length := start_placed.length
    rw [first, List.length_nil, Nat.add_zero] at length
    refine ⟨start.offset, ?_, ?_, ?_, start_placed.within, ?_, .inl length⟩
    · exact congrArg (fun line ↦ [line]) start_placed.line
    · exact List.pairwise_singleton _ _
    · exact List.forall_mem_singleton.mpr behind.offset_le
    · simp
  | case4 c start trivia _ _ first _ stop token =>
    rename_i halts
    cases h
    have behind := reaches_skipTrivia trivia
    have start_placed := placed.reaches behind
    have onward := (Cursor.Reaches.skip 1 start).trans (reaches_readToken token)
    have stop_placed := start_placed.reaches onward
    obtain ⟨spans, lt⟩ := spans_of_readToken start_placed first token
    refine ⟨stop.offset, ?_, ?_, ?_, stop_placed.within, ?_, .inr ⟨_, rfl, halts, spans⟩⟩
    · have lines : [start.line, stop.line] =
          [lineAt source start.offset, lineAt source stop.offset] := by
        rw [start_placed.line, stop_placed.line]
      exact lines
    · exact List.pairwise_pair.mpr lt
    · refine List.forall_mem_cons.mpr ⟨behind.offset_le, List.forall_mem_singleton.mpr ?_⟩
      exact (behind.trans onward).offset_le
    · exact List.forall_mem_singleton.mpr ⟨_, spans⟩
  | case5 c start trivia _ _ first _ stop token =>
    rename_i ih
    have behind := reaches_skipTrivia trivia
    have start_placed := placed.reaches behind
    have onward := (Cursor.Reaches.skip 1 start).trans (reaches_readToken token)
    obtain ⟨spans, lt⟩ := spans_of_readToken start_placed first token
    obtain ⟨s', others, rfl⟩ := eq_ok_of_map_eq_ok h
    obtain ⟨stop', lined⟩ := ih (start_placed.reaches onward) others
    exact ⟨stop', lined.cons spans start_placed.line behind.offset_le lt⟩

/-! ## Lines of errors -/

/-- The line is that of a cursor that comes from `c`. -/
def OnWay (c : Cursor) (line : Nat) : Prop := ∃ d, c.Reaches d ∧ line = d.line

variable {d : Cursor} {e : ParseError} {frames : List Frame}

theorem OnWay.here (c : Cursor) : OnWay c c.line := ⟨c, .refl c, rfl⟩

theorem OnWay.behind {line : Nat} (reaches : c.Reaches d) (h : OnWay d line) : OnWay c line := by
  obtain ⟨d', onward, rfl⟩ := h
  exact ⟨d', reaches.trans onward, rfl⟩

theorem onWay_of_skipTrivia (h : skipTrivia c = .error e) : OnWay c e.line := by
  fun_induction skipTrivia c with
  | case1 | case6 => cases h
  | case2 c _ _ _ _ ih => exact (ih h).behind (.skip 1 c)
  | case3 c _ _ _ _ _ ih =>
    exact (ih h).behind ((Cursor.Reaches.skip 1 c).trans (Cursor.reaches_skipUntil ..))
  | case4 c => cases h; exact .here c
  | case5 c _ _ _ _ _ _ close _ ih =>
    have closed : c.Reaches close := (Cursor.Reaches.skip 2 c).trans (Cursor.reaches_skipUntil ..)
    exact (ih h).behind (closed.trans (.skip ..))

def Frame.line : Frame → Nat
  | .single line => line
  | .quoted _ line => line
  | .group _ _ line => line

theorem line_unclosed (frame : Frame) : frame.unclosed.line = frame.line := by
  cases frame <;> rfl

/-- The line is one on which something was opened, or one of a place further on. -/
def Blames (frames : List Frame) (c : Cursor) (line : Nat) : Prop :=
  (∃ frame ∈ frames, line = frame.line) ∨ OnWay c line

theorem Blames.behind {frames' : List Frame} {line : Nat} (reaches : c.Reaches d)
    (opened : ∀ frame ∈ frames', Blames frames c frame.line) (h : Blames frames' d line) :
    Blames frames c line := by
  rcases h with ⟨frame, mem, rfl⟩ | onWay
  · exact opened frame mem
  · exact .inr (onWay.behind reaches)

theorem blames_of_mem {frame : Frame} (mem : frame ∈ frames) : Blames frames c frame.line :=
  .inl ⟨frame, mem, rfl⟩

theorem blames_unclosed {frame : Frame} : Blames (frame :: frames) c frame.unclosed.line := by
  rw [line_unclosed]
  exact blames_of_mem List.mem_cons_self

/-- What is never closed is reported with the line on which it was opened. -/
theorem blames_of_skipNested {offset line : Nat} {rest : List UInt8}
    (h : skipNested frames offset line rest = .error e) :
    Blames frames ⟨rest, offset, line⟩ e.line := by
  have one {b : UInt8} {rest : List UInt8} {offset line : Nat} :
      Cursor.Reaches ⟨b :: rest, offset, line⟩ ⟨rest, offset + 1, Cursor.lineAfter b line⟩ :=
    .cons (.refl _)
  -- no frame is opened
  have kept {frames frames' : List Frame} {c d : Cursor} (reaches : c.Reaches d)
      (inside : frames' ⊆ frames) (h : Blames frames' d e.line) : Blames frames c e.line :=
    h.behind reaches fun frame mem ↦ blames_of_mem (inside mem)
  -- one more frame is opened
  have opened {frame : Frame} {frames : List Frame} {c d : Cursor} (reaches : c.Reaches d)
      (first : Blames frames c frame.line) (h : Blames (frame :: frames) d e.line) :
      Blames frames c e.line :=
    h.behind reaches (List.forall_mem_cons.mpr ⟨first, fun _ ↦ blames_of_mem⟩)
  fun_induction skipNested frames offset line rest with
  | case1 => cases h
  | case2 | case3 | case8 => cases h; exact blames_unclosed
  | case4 | case11 =>
    rename_i ih
    exact kept (.cons one) (List.Subset.refl _) (ih h)
  | case5 | case7 | case12 | case17 =>
    rename_i ih
    exact kept one (List.subset_cons_self _ _) (ih h)
  | case6 | case13 | case18 =>
    rename_i ih
    exact kept one (List.Subset.refl _) (ih h)
  | case9 =>
    rename_i ih
    refine opened one ?_ (ih h)
    exact .inl ⟨_, List.mem_cons_self, rfl⟩
  | case10 =>
    rename_i ih
    refine opened (.cons one) ?_ (ih h)
    exact .inl ⟨_, List.mem_cons_self, rfl⟩
  | case14 | case15 =>
    rename_i ih
    exact opened one (.inr ⟨_, one, rfl⟩) (ih h)
  | case16 =>
    rename_i ih
    exact opened one (.inl ⟨_, List.mem_cons_self, rfl⟩) (ih h)

theorem onWay_of_skipFrame {frame : Frame} (reaches : c.Reaches d) (line : frame.line = c.line)
    (h : skipFrame frame d = .error e) : OnWay c e.line := by
  rcases blames_of_skipNested h with ⟨_, mem, eq⟩ | onWay
  · rw [List.mem_singleton.mp mem, line] at eq
    exact ⟨c, .refl c, eq⟩
  · exact onWay.behind reaches

theorem line_of_skipHeredocBody {label : List UInt8} {line : Nat}
    (h : skipHeredocBody label line c = .error e) : e.line = line := by
  fun_induction skipHeredocBody label line c with
  | case1 => cases h; rfl
  | case2 => cases h
  | case3 _ _ _ _ _ ih => exact ih h

theorem line_of_skipLabelled {line : Nat} {quote : Option UInt8}
    (h : skipLabelled line quote c = .error e) : e.line = line := by
  simp only [skipLabelled] at h
  split at h
  · cases h; rfl
  split at h
  · exact line_of_skipHeredocBody h
  split at h
  · exact line_of_skipHeredocBody h
  · cases h; rfl

theorem line_of_skipHeredoc {line : Nat} (h : skipHeredoc line c = .error e) : e.line = line := by
  simp only [skipHeredoc] at h
  split at h <;> exact line_of_skipLabelled h

theorem eq_error_of_map_eq_error {α β : Type} {f : α → β} {x : Read α}
    (h : x.map f = .error e) : x = .error e := by
  cases x with
  | error => cases h; rfl
  | ok => cases h

theorem onWay_of_readToken (h : readToken c b (c.skip 1) = .error e) : OnWay c e.line := by
  have one : c.Reaches (c.skip 1) := .skip 1 c
  have two : c.Reaches ((c.skip 1).skip 1) := one.trans (.skip ..)
  revert h
  fun_cases readToken c b (c.skip 1) with
  | case2 => exact fun h ↦ onWay_of_skipFrame two rfl (eq_error_of_map_eq_error h)
  | case3 => exact fun h ↦ ⟨c, .refl c, line_of_skipHeredoc (eq_error_of_map_eq_error h)⟩
  | case6 | case7 => exact fun h ↦ onWay_of_skipFrame one rfl (eq_error_of_map_eq_error h)
  | _ => exact fun h ↦ nomatch h

/-- What the lexer refuses a source for, it reports with the line of a place that it came to. -/
theorem onWay_of_readTokens (h : readTokens c = .error e) : OnWay c e.line := by
  fun_induction readTokens c with
  | case1 _ _ trivia =>
    cases h
    exact onWay_of_skipTrivia trivia
  | case2 | case4 => cases h
  | case3 _ _ trivia _ _ _ _ token =>
    cases h
    exact (onWay_of_readToken token).behind (reaches_skipTrivia trivia)
  | case5 _ start trivia _ _ _ _ _ token =>
    rename_i ih
    have onward := (Cursor.Reaches.skip 1 start).trans (reaches_readToken token)
    exact (ih (eq_error_of_map_eq_error h)).behind ((reaches_skipTrivia trivia).trans onward)

end Lexer

/-! ## Whole sources -/

variable {s : TokenStream} {e : ParseError}

theorem exists_lined_of_ofSource (h : TokenStream.ofSource source = .ok s) :
    ∃ stop, s.Lined source 0 stop := by
  have opened := (Cursor.placed_ofSource source).reaches (Lexer.reaches_skipInlineText _)
  obtain ⟨stop, lined⟩ := Lexer.exists_lined opened h
  exact ⟨stop, { lined with start_le := fun offset _ ↦ Nat.zero_le offset }⟩

theorem exists_line_of_ofSource (h : TokenStream.ofSource source = .error e) :
    ∃ offset ≤ source.length, e.line = lineAt source offset := by
  obtain ⟨d, reaches, eq⟩ := Lexer.onWay_of_readTokens h
  have placed := (Cursor.placed_ofSource source).reaches
    ((Lexer.reaches_skipInlineText _).trans reaches)
  exact ⟨d.offset, placed.within, eq.trans placed.line⟩

end ScriptCache.Source
