import ScriptCache.Proofs.Source.Splice.Literal

/-!
# What stands between quotes and brackets

Strings with interpolations and groups of one kind of bracket nest in each other. `Enclosed` is the
grammar of what stands between the first and the last byte of one: reading passes over it as a whole,
and whatever was passed over has this form. A group knows its own brackets and the quotes of strings,
and nothing else; what is a comment elsewhere is read in it like any other bytes.
-/

namespace ScriptCache.Source

namespace Bracket

def opener : Bracket → Char
  | .brace => '{'
  | .paren => '('
  | .square => '['

def closer : Bracket → Char
  | .brace => '}'
  | .paren => ')'
  | .square => ']'

end Bracket

namespace Lexer

open Ascii (byte)

variable {bytes first second inner rest : List UInt8} {a quote : UInt8} {b : Bracket} {n m k : Nat}
  {frame : Frame} {frames frames' frames'' : List Frame} {offset line : Nat} {d : Cursor}

/-! ## The grammar -/

/-- Where bytes stand: in a string, up to its quote, or in a group. There, `n` further brackets of
the group's kind are open in front of the bytes, and `m` behind them. -/
inductive Place where
  | string (quote : UInt8)
  | group (b : Bracket) (n m : Nat)

inductive Enclosed : Place → List UInt8 → Prop where
  | ended {quote : UInt8} : Enclosed (.string quote) []
  | letter {quote a : UInt8} {bytes : List UInt8} (inside : a ≠ quote) (plain : a ≠ Ascii.backslash)
      (notBrace : ¬(a = byte '{' ∧ bytes.head? = some (byte '$')))
      (notDollar : ¬(a = byte '$' ∧ bytes.head? = some (byte '{')))
      (rest : Enclosed (.string quote) bytes) : Enclosed (.string quote) (a :: bytes)
  | escape {quote a : UInt8} {bytes : List UInt8} (rest : Enclosed (.string quote) bytes) :
      Enclosed (.string quote) (Ascii.backslash :: a :: bytes)
  /-- The dollar sign behind the brace is part of what the braces hold. -/
  | braced {quote : UInt8} {inner bytes : List UInt8} (dollar : inner.head? = some (byte '$'))
      (within : Enclosed (.group .brace 0 0) inner) (rest : Enclosed (.string quote) bytes) :
      Enclosed (.string quote) (byte '{' :: (inner ++ byte '}' :: bytes))
  | dollar {quote : UInt8} {inner bytes : List UInt8} (within : Enclosed (.group .brace 0 0) inner)
      (rest : Enclosed (.string quote) bytes) :
      Enclosed (.string quote) (byte '$' :: byte '{' :: (inner ++ byte '}' :: bytes))
  | here {b : Bracket} {n : Nat} : Enclosed (.group b n n) []
  | plain {b : Bracket} {n m : Nat} {a : UInt8} {bytes : List UInt8} (apostrophe : a ≠ Ascii.apostrophe)
      (quote : a ≠ Ascii.quote) (opener : a ≠ byte b.opener) (closer : a ≠ byte b.closer)
      (rest : Enclosed (.group b n m) bytes) : Enclosed (.group b n m) (a :: bytes)
  | single {b : Bracket} {n m : Nat} {inner bytes : List UInt8} (within : Quoted inner)
      (rest : Enclosed (.group b n m) bytes) :
      Enclosed (.group b n m) (Ascii.apostrophe :: (inner ++ Ascii.apostrophe :: bytes))
  | double {b : Bracket} {n m : Nat} {inner bytes : List UInt8}
      (within : Enclosed (.string Ascii.quote) inner) (rest : Enclosed (.group b n m) bytes) :
      Enclosed (.group b n m) (Ascii.quote :: (inner ++ Ascii.quote :: bytes))
  | opening {b : Bracket} {n m : Nat} {bytes : List UInt8} (rest : Enclosed (.group b (n + 1) m) bytes) :
      Enclosed (.group b n m) (byte b.opener :: bytes)
  | closing {b : Bracket} {n m : Nat} {bytes : List UInt8} (rest : Enclosed (.group b n m) bytes) :
      Enclosed (.group b (n + 1) m) (byte b.closer :: bytes)

namespace Enclosed

/-- Further brackets around a group do not matter. -/
theorem within (h : Enclosed (.group b n m) bytes) (k : Nat) :
    Enclosed (.group b (n + k) (m + k)) bytes := by
  generalize place : Place.group b n m = p at h
  induction h generalizing n m with
  | ended | letter | escape | braced | dollar => cases place
  | here => cases place; exact .here
  | plain apostrophe quote opener closer _ ih =>
    cases place
    exact .plain apostrophe quote opener closer (ih rfl)
  | single inner _ ih => cases place; exact .single inner (ih rfl)
  | double inner _ _ ih => cases place; exact .double inner (ih rfl)
  | opening _ ih =>
    cases place
    refine .opening ?_
    rw [Nat.add_right_comm]
    exact ih rfl
  | closing _ ih =>
    cases place
    rw [Nat.add_right_comm]
    exact .closing (ih rfl)

theorem append (h : Enclosed (.group b n k) first) (h' : Enclosed (.group b k m) second) :
    Enclosed (.group b n m) (first ++ second) := by
  generalize place : Place.group b n k = p at h
  induction h generalizing n with
  | ended | letter | escape | braced | dollar => cases place
  | here => cases place; exact h'
  | plain apostrophe quote opener closer _ ih =>
    cases place
    exact .plain apostrophe quote opener closer (ih rfl)
  | single inner _ ih =>
    cases place
    rw [List.cons_append, List.append_assoc]
    exact .single inner (ih rfl)
  | double inner _ _ ih =>
    cases place
    rw [List.cons_append, List.append_assoc]
    exact .double inner (ih rfl)
  | opening _ ih => cases place; exact .opening (ih rfl)
  | closing _ ih => cases place; exact .closing (ih rfl)

/-- A group in a group of its kind. -/
theorem nest (h : Enclosed (.group b 0 0) inner) (h' : Enclosed (.group b n m) bytes) :
    Enclosed (.group b n m) (byte b.opener :: (inner ++ byte b.closer :: bytes)) := by
  have inside := h.within (n + 1)
  rw [Nat.zero_add] at inside
  exact .opening (inside.append (.closing h'))

/-- Bytes that are neither quotes nor brackets of the group's kind. -/
theorem of_plain (plain : ∀ a ∈ bytes, a ≠ Ascii.apostrophe ∧ a ≠ Ascii.quote ∧
      a ≠ byte b.opener ∧ a ≠ byte b.closer) (n : Nat) : Enclosed (.group b n n) bytes := by
  induction bytes with
  | nil => exact .here
  | cons a bytes ih =>
    obtain ⟨⟨apostrophe, quote, opener, closer⟩, others⟩ := List.forall_mem_cons.mp plain
    exact .plain apostrophe quote opener closer (ih others)

end Enclosed

/-! ## Reading passes over it -/

namespace Turns

theorem nil (frames : List Frame) : Turns frames frames [] :=
  fun offset line _ ↦ ⟨offset, line, rfl⟩

theorem trans (h : Turns frames frames' first) (h' : Turns frames' frames'' second) :
    Turns frames frames'' (first ++ second) := by
  intro offset line rest
  obtain ⟨offset', line', step⟩ := h offset line (second ++ rest)
  obtain ⟨offset'', line'', step'⟩ := h' offset' line' rest
  exact ⟨offset'', line'', by rw [List.append_assoc, step, step']⟩

/-- One turn of the reader, whatever stands behind the bytes read after it. -/
theorem of_turn (bytes second : List UInt8) (opened : Nat → List Frame)
    (turn : ∀ (line : Nat) (rest : List UInt8),
      frame.turn a (bytes ++ (second ++ rest)).head? line = (bytes.length + 1, opened line))
    (onward : ∀ line, Turns (opened line ++ frames) frames' second) :
    Turns (frame :: frames) frames' (a :: (bytes ++ second)) := by
  intro offset line rest
  have skipped : (Cursor.skip (bytes.length + 1) ⟨a :: (bytes ++ (second ++ rest)), offset, line⟩).rest =
      second ++ rest := by
    rw [Cursor.rest_skip, List.drop_succ_cons, List.drop_left]
  rw [List.cons_append, List.append_assoc, skipNested_cons (turn _ _)]
  dsimp only
  rw [skipped]
  exact onward _ _ _ _

end Turns

/-- The quotes of strings with interpolations. -/
def IsQuote (quote : UInt8) : Prop := quote = Ascii.quote ∨ quote = Ascii.backtick

theorem IsQuote.plain (h : IsQuote quote) :
    quote ≠ byte '{' ∧ quote ≠ byte '$' ∧ quote ≠ Ascii.backslash := by
  rcases h with rfl | rfl <;> decide

theorem Frame.turn_letter {next : Option UInt8} (inside : a ≠ quote) (plain : a ≠ Ascii.backslash)
    (notBrace : ¬(a = byte '{' ∧ next = some (byte '$')))
    (notDollar : ¬(a = byte '$' ∧ next = some (byte '{'))) (start line : Nat) :
    (Frame.quoted quote start).turn a next line = (1, [.quoted quote start]) := by
  cases next with
  | none => simp only [Frame.turn, if_neg inside]
  | some e =>
    rw [Option.some.injEq] at notBrace notDollar
    simp only [Frame.turn, if_neg notBrace, if_neg notDollar, if_neg plain, if_neg inside]

theorem Frame.turn_quote {next : Option UInt8} (isQuote : IsQuote quote) (start line : Nat) :
    (Frame.quoted quote start).turn quote next line = (1, []) := by
  obtain ⟨brace, dollar, backslash⟩ := isQuote.plain
  cases next <;> simp only [Frame.turn, brace, dollar, backslash, false_and, if_false, if_true]

/-- A group of brackets that is open. -/
def Frame.bracket (b : Bracket) (start : Nat) : Frame := .group b.opener b.closer start

/-- Reading passes over the bytes: over a string with its quote, and over the inside of a group. -/
def Place.Passed : Place → List UInt8 → Prop
  | .string quote, bytes => IsQuote quote → ∀ start frames,
      Turns (.quoted quote start :: frames) frames (bytes ++ [quote])
  | .group b n m, bytes => ∀ start frames,
      Turns (List.replicate (n + 1) (.bracket b start) ++ frames)
        (List.replicate (m + 1) (.bracket b start) ++ frames) bytes

theorem turns_closer (b : Bracket) (start : Nat) (frames : List Frame) :
    Turns (.bracket b start :: frames) frames [byte b.closer] := by
  refine Turns.of_turn [] [] (fun _ ↦ []) (fun line rest ↦ ?_) fun _ ↦ .nil _
  cases b <;> rfl

theorem Enclosed.passed {place : Place} (h : Enclosed place bytes) : place.Passed bytes := by
  induction h with
  | @ended quote =>
    intro isQuote start frames
    exact Turns.of_turn [] [] (fun _ ↦ []) (fun line rest ↦ Frame.turn_quote isQuote start line)
      fun _ ↦ .nil _
  | @letter quote a bytes inside plain notBrace notDollar _ ih =>
    intro isQuote start frames
    obtain ⟨brace, dollar, -⟩ := isQuote.plain
    have next {e : UInt8} {rest : List UInt8} (other : quote ≠ e)
        (h : (bytes ++ [quote] ++ rest).head? = some e) : bytes.head? = some e := by
      cases bytes with
      | nil => exact (other (Option.some.inj h)).elim
      | cons => exact h
    exact Turns.of_turn [] _ (fun _ ↦ [.quoted quote start])
      (fun line rest ↦ Frame.turn_letter inside plain (fun both ↦ notBrace ⟨both.1, next dollar both.2⟩)
        (fun both ↦ notDollar ⟨both.1, next brace both.2⟩) start line)
      fun _ ↦ ih isQuote start frames
  | @escape quote a bytes _ ih =>
    intro isQuote start frames
    refine Turns.of_turn [a] _ (fun _ ↦ [.quoted quote start]) (fun line rest ↦ ?_)
      fun _ ↦ ih isQuote start frames
    have brace : Ascii.backslash ≠ byte '{' := by decide
    have dollar : Ascii.backslash ≠ byte '$' := by decide
    simp only [List.singleton_append, List.head?_cons, Frame.turn, brace, dollar, false_and, if_false,
      if_true, List.length_singleton]
  | @braced quote inner bytes dollar _ _ within others =>
    intro isQuote start frames
    have inside := (within start (.quoted quote start :: frames)).trans
      ((turns_closer .brace start _).trans (others isQuote start frames))
    have split : byte '{' :: (inner ++ byte '}' :: bytes) ++ [quote] =
        byte '{' :: ([] ++ (inner ++ ([byte '}'] ++ (bytes ++ [quote])))) := by simp
    rw [split]
    refine Turns.of_turn [] _ (fun _ ↦ [.bracket .brace start, .quoted quote start])
      (fun line rest ↦ ?_) fun _ ↦ inside
    rw [List.nil_append, List.append_assoc, List.head?_append, dollar]
    rfl
  | @dollar quote inner bytes _ _ within others =>
    intro isQuote start frames
    have inside := (within start (.quoted quote start :: frames)).trans
      ((turns_closer .brace start _).trans (others isQuote start frames))
    have split : byte '$' :: byte '{' :: (inner ++ byte '}' :: bytes) ++ [quote] =
        byte '$' :: ([byte '{'] ++ (inner ++ ([byte '}'] ++ (bytes ++ [quote])))) := by simp
    rw [split]
    exact Turns.of_turn [byte '{'] _ (fun _ ↦ [.bracket .brace start, .quoted quote start])
      (fun line rest ↦ rfl) fun _ ↦ inside
  | here =>
    intro start frames
    exact .nil _
  | @plain b n m a bytes apostrophe quote opener closer _ ih =>
    intro start frames
    refine Turns.of_turn [] _ (fun _ ↦ [.bracket b start]) (fun line rest ↦ ?_)
      fun _ ↦ ih start frames
    simp only [Frame.turn, Frame.bracket, if_neg apostrophe, if_neg quote, if_neg opener,
      if_neg closer, List.length_nil]
  | @single b n m inner bytes within _ ih =>
    intro start frames
    rw [List.append_cons]
    exact Turns.of_turn [] _ (fun line ↦ [.single line, .bracket b start]) (fun line rest ↦ rfl)
      fun line ↦ (within.turns line _).trans (ih start frames)
  | @double b n m inner bytes _ _ within ih =>
    intro start frames
    rw [List.append_cons]
    exact Turns.of_turn [] _ (fun line ↦ [.quoted Ascii.quote line, .bracket b start])
      (fun line rest ↦ rfl) fun line ↦ (within (.inl rfl) line _).trans (ih start frames)
  | @opening b n m bytes _ ih =>
    intro start frames
    refine Turns.of_turn [] _ (fun _ ↦ [.bracket b start, .bracket b start]) (fun line rest ↦ ?_)
      fun _ ↦ ih start frames
    cases b <;> rfl
  | @closing b n m bytes _ ih =>
    intro start frames
    exact (turns_closer b start _).trans (ih start frames)

/-! ## What was passed over -/

/-- The byte that closes what is open. -/
def Frame.last : Frame → UInt8
  | .single _ => Ascii.apostrophe
  | .quoted quote _ => quote
  | .group _ closer _ => byte closer

/-- What the bytes in front of that byte look like. -/
inductive Frame.Holds : Frame → List UInt8 → Prop where
  | single {start : Nat} {bytes : List UInt8} (h : Quoted bytes) : Holds (.single start) bytes
  | quoted {quote : UInt8} {start : Nat} {bytes : List UInt8} (isQuote : IsQuote quote)
      (h : Enclosed (.string quote) bytes) : Holds (.quoted quote start) bytes
  | bracket {b : Bracket} {start : Nat} {bytes : List UInt8} (h : Enclosed (.group b 0 0) bytes) :
      Holds (.bracket b start) bytes

/-- Strings and groups of brackets. -/
inductive Frame.Proper : Frame → Prop where
  | single (start : Nat) : Proper (.single start)
  | quoted {quote : UInt8} (isQuote : IsQuote quote) (start : Nat) : Proper (.quoted quote start)
  | bracket (b : Bracket) (start : Nat) : Proper (.bracket b start)

theorem Frame.Holds.of_bracket {start : Nat} (h : Holds (.bracket b start) bytes) :
    Enclosed (.group b 0 0) bytes := by
  generalize same : Frame.bracket b start = frame at h
  cases h with
  | single | quoted => cases b <;> cases same
  | @bracket b' start' _ h =>
    have brackets : b = b' := by
      revert same
      cases b <;> cases b' <;> simp [Frame.bracket, Bracket.opener]
    rwa [brackets]

theorem Frame.Holds.of_single {start : Nat} (h : Holds (.single start) bytes) : Quoted bytes := by
  generalize same : Frame.single start = frame at h
  cases h with
  | single h => exact h
  | quoted => cases same
  | @bracket b => cases b <;> cases same

theorem Frame.Holds.of_quoted {start : Nat} (h : Holds (.quoted quote start) bytes) :
    Enclosed (.string quote) bytes := by
  generalize same : Frame.quoted quote start = frame at h
  cases h with
  | single => cases same
  | quoted _ h => cases same; exact h
  | @bracket b => cases b <;> cases same

/-- The bytes go on to the one that closes the frame, and reading goes on behind it. -/
def Closed (d : Cursor) (frame : Frame) (frames : List Frame) (bytes : List UInt8) : Prop :=
  ∃ inner rest offset line, bytes = inner ++ frame.last :: rest ∧ frame.Holds inner ∧
    skipNested frames offset line rest = .ok d

theorem Closed.here (h : skipNested frames offset line rest = .ok d) (holds : frame.Holds []) :
    Closed d frame frames (frame.last :: rest) :=
  ⟨[], rest, offset, line, rfl, holds, h⟩

theorem Closed.behind (h : Closed d frame frames rest) (front : List UInt8)
    (holds : ∀ inner, inner ++ [frame.last] <+: rest → frame.Holds inner →
      frame.Holds (front ++ inner)) : Closed d frame frames (front ++ rest) := by
  obtain ⟨inner, rest, offset, line, rfl, held, h⟩ := h
  refine ⟨front ++ inner, rest, offset, line, (List.append_assoc ..).symm, holds inner ?_ held, h⟩
  exact ⟨rest, by simp⟩

/-- In front of what is read behind it stands something of its own, up to the byte that closes
it. -/
theorem Closed.around (h : Closed d frame frames rest) (front inner : List UInt8) (last : UInt8)
    (holds : ∀ behind, frame.Holds behind → frame.Holds (front ++ (inner ++ last :: behind))) :
    Closed d frame frames (front ++ (inner ++ last :: rest)) := by
  have all := h.behind (front ++ (inner ++ [last])) fun behind _ held ↦ by
    simpa using holds behind held
  simpa using all

/-- Whatever is open in front of fewer bytes is closed. -/
def Later (d : Cursor) (bytes : List UInt8) : Prop :=
  ∀ (frame : Frame) (frames : List Frame) (offset line : Nat) (rest : List UInt8),
    rest.length < bytes.length → frame.Proper →
    skipNested (frame :: frames) offset line rest = .ok d → Closed d frame frames rest

/-- First what is open within is closed, then what is open around it. -/
theorem Later.within (later : Later d bytes) (shorter : rest.length < bytes.length)
    {frame' : Frame} (proper : frame.Proper) (proper' : frame'.Proper)
    (h : skipNested (frame :: frame' :: frames) offset line rest = .ok d) :
    ∃ inner more, rest = inner ++ frame.last :: more ∧ frame.Holds inner ∧
      Closed d frame' frames more := by
  obtain ⟨inner, more, offset', line', rfl, held, h⟩ := later _ _ _ _ _ shorter proper h
  refine ⟨inner, more, rfl, held, later _ _ _ _ _ ?_ proper' h⟩
  simp only [List.length_append, List.length_cons] at shorter
  omega

theorem closed_single {start : Nat} (later : Later d bytes)
    (h : skipNested (.single start :: frames) offset line bytes = .ok d) :
    Closed d (.single start) frames bytes := by
  rw [skipNested.eq_def] at h
  rcases bytes with - | ⟨a, bytes⟩
  · cases h
  dsimp only at h
  split at h
  · rename_i escapes
    subst escapes
    rcases bytes with - | ⟨e, bytes⟩
    · cases h
    · exact (later _ _ _ _ _ (by simp) (.single start) h).behind [Ascii.backslash, e]
        fun inner _ held ↦ .single (.escape held.of_single)
  rename_i backslash
  split at h
  · rename_i ends
    subst ends
    exact .here h (.single .nil)
  · rename_i apostrophe
    exact (later _ _ _ _ _ (by simp) (.single start) h).behind [a]
      fun inner _ held ↦ .single (.plain backslash apostrophe held.of_single)

theorem closed_quoted {start : Nat} (isQuote : IsQuote quote) (later : Later d bytes)
    (h : skipNested (.quoted quote start :: frames) offset line bytes = .ok d) :
    Closed d (.quoted quote start) frames bytes := by
  rw [skipNested.eq_def] at h
  rcases bytes with - | ⟨a, - | ⟨e, bytes⟩⟩
  · cases h
  · dsimp only at h
    split at h
    · rename_i ends
      subst ends
      exact .here h (.quoted isQuote .ended)
    · cases h
  dsimp only at h
  split at h
  · rename_i both
    obtain ⟨rfl, rfl⟩ := both
    obtain ⟨inner, more, split, held, closed⟩ :=
      later.within (by simp) (.bracket .brace start) (.quoted isQuote start) h
    have dollar : inner.head? = some (byte '$') := by
      cases inner with
      | nil => cases split
      | cons => exact congrArg List.head? split.symm
    rw [split]
    exact closed.around [byte '{'] inner (byte '}') fun _ others ↦
      .quoted isQuote (.braced dollar held.of_bracket others.of_quoted)
  rename_i notBrace
  split at h
  · rename_i both
    obtain ⟨rfl, rfl⟩ := both
    obtain ⟨inner, more, rfl, held, closed⟩ :=
      later.within (by simp) (.bracket .brace start) (.quoted isQuote start) h
    exact closed.around [byte '$', byte '{'] inner (byte '}') fun _ others ↦
      .quoted isQuote (.dollar held.of_bracket others.of_quoted)
  rename_i notDollar
  split at h
  · rename_i escapes
    subst escapes
    exact (later _ _ _ _ _ (by simp) (.quoted isQuote start) h).behind [Ascii.backslash, e]
      fun inner _ held ↦ .quoted isQuote (.escape held.of_quoted)
  rename_i plain
  split at h
  · rename_i ends
    subst ends
    exact .here h (.quoted isQuote .ended)
  · rename_i inside
    refine (later _ _ _ _ _ (by simp) (.quoted isQuote start) h).behind [a] fun inner ahead held ↦ ?_
    have next {f : UInt8} (first : inner.head? = some f) : e = f := by
      cases inner with
      | nil => cases first
      | cons g inner =>
        rw [List.cons_append, List.cons_prefix_cons] at ahead
        exact ahead.1.symm.trans (Option.some.inj first)
    exact .quoted isQuote (.letter inside plain (fun both ↦ notBrace ⟨both.1, next both.2⟩)
      (fun both ↦ notDollar ⟨both.1, next both.2⟩) held.of_quoted)

theorem closed_bracket {start : Nat} (later : Later d bytes)
    (h : skipNested (.bracket b start :: frames) offset line bytes = .ok d) :
    Closed d (.bracket b start) frames bytes := by
  rw [Frame.bracket, skipNested.eq_def] at h
  rcases bytes with - | ⟨a, bytes⟩
  · cases h
  dsimp only at h
  split at h
  · rename_i opens
    subst opens
    obtain ⟨inner, more, rfl, held, closed⟩ :=
      later.within (by simp) (.single _) (.bracket b start) h
    exact closed.around [Ascii.apostrophe] inner Ascii.apostrophe fun _ others ↦
      .bracket (.single held.of_single others.of_bracket)
  rename_i apostrophe
  split at h
  · rename_i opens
    subst opens
    obtain ⟨inner, more, rfl, held, closed⟩ :=
      later.within (by simp) (.quoted (.inl rfl) _) (.bracket b start) h
    exact closed.around [Ascii.quote] inner Ascii.quote fun _ others ↦
      .bracket (.double held.of_quoted others.of_bracket)
  rename_i quote
  split at h
  · rename_i opens
    subst opens
    obtain ⟨inner, more, rfl, held, closed⟩ :=
      later.within (by simp) (.bracket b start) (.bracket b start) h
    exact closed.around [byte b.opener] inner (byte b.closer) fun _ others ↦
      .bracket (held.of_bracket.nest others.of_bracket)
  rename_i opener
  split at h
  · rename_i ends
    subst ends
    exact .here h (.bracket .here)
  · rename_i closer
    exact (later _ _ _ _ _ (by simp) (.bracket b start) h).behind [a]
      fun inner _ held ↦ .bracket (.plain apostrophe quote opener closer held.of_bracket)

/-- What is open when reading succeeds is closed: the grammar covers all that is passed over. -/
theorem closed_of_skipNested (proper : frame.Proper)
    (h : skipNested (frame :: frames) offset line bytes = .ok d) : Closed d frame frames bytes := by
  induction size : bytes.length using Nat.strong_induction_on
    generalizing bytes frame frames offset line with
  | _ size ih =>
  have later : Later d bytes := fun _ _ _ _ _ shorter proper h ↦ ih _ (size ▸ shorter) proper h rfl
  cases proper with
  | single => exact closed_single later h
  | quoted isQuote => exact closed_quoted isQuote later h
  | bracket => exact closed_bracket later h

end Lexer

end ScriptCache.Source
