import ScriptCache.Proofs.Toml.Reads
import ScriptCache.Toml.Quoted

/-!
# Strings read back

Whatever form a string is written in, it is read back from its text.
-/

namespace ScriptCache.Toml

open Reader

variable {rest : List Char} {c : Char} {s : List Char} {tripled : Bool}

namespace Reader

/-! ## Escapes -/

theorem reads_escape_short {e : Char} (short : escapes.lookup e = some c) (small : e ≠ 'u')
    (large : e ≠ 'U') (rest : List Char) : Reads escape ('\\' :: e :: rest) c rest := by
  refine (reads_text ['\\'] _).bind (Reads.bind (reads_satisfy rfl _) ?_)
  rw [if_neg small, if_neg large, short]
  exact .pure c rest

theorem reads_hexDigits {a b d e : Char} {v w x y : Nat} (ha : Text.hexValue? a = some v)
    (hb : Text.hexValue? b = some w) (hd : Text.hexValue? d = some x)
    (he : Text.hexValue? e = some y) (rest : List Char) :
    Reads (hexDigits 4) (a :: b :: d :: e :: rest) (((v * 16 + w) * 16 + x) * 16 + y) rest := by
  have digit {c : Char} {n : Nat} (h : Text.hexValue? c = some n) (rest : List Char) :
      Reads (satisfy fun c ↦ (Text.hexValue? c).isSome) (c :: rest) c rest :=
    reads_satisfy (by simp [h]) rest
  have digits : Reads ((List.range 4).mapM fun _ ↦ satisfy fun c ↦ (Text.hexValue? c).isSome)
      (a :: b :: d :: e :: rest) [a, b, d, e] rest := by
    have range : List.range 4 = [0, 1, 2, 3] := rfl
    rw [range]
    simp only [List.mapM_cons, List.mapM_nil]
    refine (digit ha _).bind (Reads.bind ?_ (.pure _ _))
    refine (digit hb _).bind (Reads.bind ?_ (.pure _ _))
    refine (digit hd _).bind (Reads.bind ?_ (.pure _ _))
    exact (digit he _).bind (Reads.bind (.pure _ _) (.pure _ _))
  have number : Text.number 16 [a, b, d, e] = ((v * 16 + w) * 16 + x) * 16 + y := by
    simp [Text.number, ha, hb, hd, he]
  rw [← number]
  exact digits.bind (.pure _ _)

theorem reads_escape_unit {n : Nat} (ascii : n < 0x80) (rest : List Char) :
    Reads escape ('\\' :: 'u' :: '0' :: '0' :: Text.hexDigit (n / 16) :: Text.hexDigit (n % 16) ::
      rest) (Char.ofNat n) rest := by
  have digit : ∀ n < 16, Text.hexValue? (Text.hexDigit n) = some n := by decide
  have zero : Text.hexValue? '0' = some 0 := by decide
  have digits := reads_hexDigits zero zero (digit (n / 16) (by omega)) (digit (n % 16) (by omega))
    rest
  have value : ((0 * 16 + 0) * 16 + n / 16) * 16 + n % 16 = n := by omega
  rw [value] at digits
  refine (reads_text ['\\'] _).bind (Reads.bind (reads_satisfy rfl _) ?_)
  rw [if_pos rfl]
  refine digits.bind ?_
  have valid : n.isValidChar := .inl (by omega)
  rw [scalar, if_pos valid]
  exact .pure _ _

theorem refuses_escape (h : c ≠ '\\') (rest : List Char) : Refuses escape (c :: rest) :=
  (refuses_text h.symm ..).bind _

theorem refuses_lineContinuation (h : c ≠ '\\') (rest : List Char) :
    Refuses lineContinuation (c :: rest) :=
  (refuses_text h.symm ..).bind _

/-- A backslash in front of a character that shows does not continue the line. -/
theorem refuses_lineContinuation_mark (mark : isMark c) (rest : List Char) :
    Refuses lineContinuation ('\\' :: c :: rest) := by
  simp only [isMark, Bool.not_eq_true', Bool.or_eq_false_iff, decide_eq_false_iff_not] at mark
  obtain ⟨⟨⟨indent, line⟩, carriage⟩, -⟩ := mark
  have blanks := reads_blanks_nil (stops_cons indent rest)
  refine (reads_text ['\\'] _).refuses_bind (blanks.refuses_bind (Refuses.bind ?_ _))
  apply refuses_newline
  rintro _ ⟨⟩
  exact ⟨line, carriage⟩

end Reader

/-- What a character is written as between double quotes. -/
inductive Piece (tripled : Bool) (c : Char) : List Char → Prop where
  | escaped {e : Char} {more : List Char} (mark : isMark e)
      (reads : ∀ rest, Reads escape ('\\' :: e :: (more ++ rest)) c rest) :
      Piece tripled c ('\\' :: e :: more)
  | plain (plain : isPlain c) (quote : c ≠ '"') (backslash : c ≠ '\\') : Piece tripled c [c]
  | newline (many : tripled) (line : c = '\n') : Piece tripled c [c]

theorem piece_escape (tripled : Bool) (c : Char) : Piece tripled c (Quoted.escape tripled 0 c) := by
  have short {e : Char} (lookup : escapes.lookup e = some c) (mark : isMark e) (small : e ≠ 'u')
      (large : e ≠ 'U') : Piece tripled c ['\\', e] :=
    .escaped mark (reads_escape_short lookup small large)
  unfold Quoted.escape
  split
  · subst c
    exact short (by rfl) (by decide) (by decide) (by decide)
  split
  · subst c
    exact short (by rfl) (by decide) (by decide) (by decide)
  split
  · subst c
    cases tripled
    · exact short (by rfl) (by decide) (by decide) (by decide)
    · exact .newline rfl rfl
  split
  · subst c
    exact short (by rfl) (by decide) (by decide) (by decide)
  split
  · subst c
    exact short (by rfl) (by decide) (by decide) (by decide)
  split
  · rename_i code
    obtain rfl : c = Char.ofNat 0x08 := by rw [← code, Char.ofNat_toNat]
    exact short (by rfl) (by decide) (by decide) (by decide)
  split
  · rename_i code
    obtain rfl : c = Char.ofNat 0x0C := by rw [← code, Char.ofNat_toNat]
    exact short (by rfl) (by decide) (by decide) (by decide)
  split
  · rename_i control
    have reads (rest : List Char) := reads_escape_unit (by omega : c.toNat < 0x80) rest
    rw [Char.ofNat_toNat] at reads
    exact .escaped (by decide) reads
  · rename_i quote backslash line tab carriage _ _ shown
    have plain : isPlain c := by
      simp only [isPlain, Bool.or_eq_true, Bool.and_eq_true, decide_eq_true_eq]
      exact .inr (by omega)
    exact .plain plain quote backslash

/-! ## One line -/

/-- A character of a string on one line. -/
def basicChar : Reader Char := escape <|> satisfy fun c ↦ isPlain c && c ≠ '"' && c ≠ '\\'

theorem refuses_quote (rest : List Char) : Refuses basicChar ('"' :: rest) :=
  (refuses_escape (by decide) rest).and (refuses_satisfy (stops_cons (by decide) rest))

theorem Piece.reads {text : List Char} (piece : Piece false c text) (rest : List Char) :
    Reads basicChar (text ++ rest) c rest := by
  cases piece with
  | escaped mark reads => exact (reads rest).orElse _
  | plain plain quote backslash =>
    exact (refuses_escape backslash rest).orElse
      (reads_satisfy (by simp [plain, quote, backslash]) rest)
  | newline many => cases many

theorem Piece.ne_nil {text : List Char} (piece : Piece tripled c text) : text ≠ [] := by
  cases piece <;> exact List.cons_ne_nil _ _

theorem escapeAll_cons (c : Char) (s : List Char) :
    Quoted.escapeAll false 0 (c :: s) =
      Quoted.escape false 0 c ++ Quoted.escapeAll false 0 s := by
  simp [Quoted.escapeAll, Quoted.looseQuotes]

theorem reads_basicChars (s rest : List Char) :
    Reads (many basicChar) (Quoted.escapeAll false 0 s ++ '"' :: rest) s ('"' :: rest) := by
  induction s with
  | nil => exact (refuses_quote rest).many
  | cons c s ih =>
    have piece := piece_escape false c
    rw [escapeAll_cons, List.append_assoc]
    refine (piece.reads _).many ?_ ih
    have some_char := List.length_pos_iff.mpr piece.ne_nil
    simp only [List.length_append] at some_char ⊢
    omega

theorem reads_basicString (s rest : List Char) :
    Reads basicString ('"' :: Quoted.escapeAll false 0 s ++ '"' :: rest) (String.ofList s) rest :=
  (reads_text ['"'] _).bind ((reads_basicChars s rest).bind ((reads_text ['"'] rest).bind
    (.pure _ rest)))

theorem reads_literalString (plain : ∀ c ∈ s, isPlain c ∧ c ≠ apostrophe) (rest : List Char) :
    Reads literalString (apostrophe :: s ++ apostrophe :: rest) (String.ofList s) rest := by
  have chars : Reads (takeWhile fun c ↦ isPlain c && c ≠ apostrophe) (s ++ apostrophe :: rest) s
      (apostrophe :: rest) := by
    apply reads_takeWhile
    · simpa using plain
    · exact stops_cons (by decide) rest
  exact (reads_text [apostrophe] _).bind (chars.bind ((reads_text [apostrophe] rest).bind
    (.pure _ rest)))

/-! ## Several lines -/

variable {quote : Char} {part : Reader (List Char)} {text meaning : List Char}

/-- The text between triple quotes, and what it means. Of its quotes at most two stand in a row. -/
inductive Body (quote : Char) (part : Reader (List Char)) : List Char → List Char → Prop where
  | close {n : Nat} (few : n ≤ 2) :
      Body quote part (List.replicate n quote) (List.replicate n quote)
  | piece {c d : Char} {more text meaning : List Char} (line : c ≠ '\n') (carriage : c ≠ '\r')
      (reads : ∀ rest, Reads part (c :: (more ++ rest)) [d] rest)
      (body : Body quote part text meaning) :
      Body quote part (c :: (more ++ text)) (d :: meaning)
  | line {text meaning : List Char} (body : Body quote part text meaning) :
      Body quote part ('\n' :: text) ('\n' :: meaning)
  | quotes {n : Nat} {text meaning : List Char} (some_quote : 0 < n) (few : n ≤ 2)
      (other : ∃ c ∈ text.head?, c ≠ quote) (body : Body quote part text meaning) :
      Body quote part (List.replicate n quote ++ text) (List.replicate n quote ++ meaning)

/-- Neither quotes nor line ends are for the part. -/
structure Inner (quote : Char) (part : Reader (List Char)) : Prop where
  line : ∀ rest, Refuses part ('\n' :: rest)
  closing : ∀ rest, Refuses part (quote :: rest)
  visible : quote ≠ '\n' ∧ quote ≠ '\r'

theorem reads_run (n : Nat) (other : quote ∉ rest.head?) :
    Reads (takeWhile (· = quote)) (List.replicate n quote ++ rest) (List.replicate n quote)
      rest := by
  apply reads_takeWhile
  · intro c mem
    simp [List.eq_of_mem_replicate mem]
  · rintro c next
    apply decide_eq_false
    rintro rfl
    exact other next

theorem reads_looseQuotes {n : Nat} (some_quote : 0 < n) (few : n ≤ 2)
    (other : quote ∉ rest.head?) :
    Reads (looseQuotes quote) (List.replicate n quote ++ rest) (List.replicate n quote) rest := by
  refine (reads_run n other).bind ?_
  rw [if_neg (by simp; omega)]
  exact .pure _ rest

theorem refuses_looseQuotes {n : Nat} (many : 3 ≤ n) (other : quote ∉ rest.head?) :
    Refuses (looseQuotes quote) (List.replicate n quote ++ rest) := by
  refine (reads_run n other).refuses_bind ?_
  rw [if_pos (by simp; omega)]
  rfl

theorem reads_closingQuotes {n : Nat} (few : n ≤ 2) (other : quote ∉ rest.head?) :
    Reads (closingQuotes quote) (List.replicate (n + 3) quote ++ rest) (List.replicate n quote)
      rest := by
  refine (reads_run (n + 3) other).bind ?_
  rw [if_pos (by simp; omega), List.drop_replicate]
  exact .pure _ rest

theorem replicate_closing (n : Nat) (quote : Char) (rest : List Char) :
    List.replicate n quote ++ (List.replicate 3 quote ++ rest) =
      List.replicate (n + 3) quote ++ rest := by
  rw [← List.append_assoc, List.replicate_append_replicate]

/-- The parts of the text are read one after the other, up to quotes that the text ends with. -/
theorem Body.reads (inner : Inner quote part) (body : Body quote part text meaning)
    (other : quote ∉ rest.head?) :
    ∃ parts n, Reads (many (part <|> lineBreak <|> looseQuotes quote))
        (text ++ (List.replicate 3 quote ++ rest)) parts (List.replicate (n + 3) quote ++ rest) ∧
      n ≤ 2 ∧ parts.flatten ++ List.replicate n quote = meaning := by
  have no_break (rest : List Char) : Refuses lineBreak (quote :: rest) := by
    refine Refuses.bind (refuses_newline ?_) _
    rintro _ ⟨⟩
    exact inner.visible
  induction body with
  | @close n few =>
    refine ⟨[], n, ?_, few, rfl⟩
    rw [replicate_closing]
    exact Refuses.many (.and (inner.closing _) (.and (no_break _)
      (refuses_looseQuotes (Nat.le_add_left 3 n) other)))
  | @piece _ d _ _ _ line carriage reads body ih =>
    obtain ⟨parts, n, more, few, meant⟩ := ih
    refine ⟨[d] :: parts, n, ?_, few, ?_⟩
    · rw [List.cons_append, List.append_assoc]
      exact Reads.many ((reads _).orElse _) (by simp) more
    · rw [List.flatten_cons, List.append_assoc, meant]
      rfl
  | line body ih =>
    obtain ⟨parts, n, more, few, meant⟩ := ih
    refine ⟨['\n'] :: parts, n, ?_, few, ?_⟩
    · have line (rest : List Char) : Reads lineBreak ('\n' :: rest) ['\n'] rest :=
        (reads_newline rest).bind (.pure ['\n'] rest)
      exact Reads.many ((inner.line _).orElse ((line _).orElse _)) (by simp) more
    · rw [List.flatten_cons, List.append_assoc, meant]
      rfl
  | @quotes n text meaning some_quote few next body ih =>
    obtain ⟨parts, m, more, few', meant⟩ := ih
    obtain ⟨c, head, ne⟩ := next
    refine ⟨List.replicate n quote :: parts, m, ?_, few', ?_⟩
    · have behind : quote ∉ (text ++ (List.replicate 3 quote ++ rest)).head? := by
        rw [List.head?_append, head]
        simpa using ne
      have loose := reads_looseQuotes some_quote few behind
      rw [List.append_assoc]
      obtain ⟨k, rfl⟩ := Nat.exists_eq_add_one.mpr some_quote
      exact Reads.many ((inner.closing _).orElse ((no_break _).orElse loose)) (by simp) more
    · rw [List.flatten_cons, List.append_assoc, meant]

/-- No line end stands right behind the opening quotes of a text without line ends. -/
theorem Body.refuses_newline (inner : Inner quote part) (body : Body quote part text meaning)
    (unbroken : '\n' ∉ meaning) (rest : List Char) :
    Refuses newline (text ++ (List.replicate 3 quote ++ rest)) := by
  apply Reader.refuses_newline
  cases body with
  | @close n =>
    rw [replicate_closing]
    rintro _ ⟨⟩
    exact inner.visible
  | piece line carriage =>
    rintro _ ⟨⟩
    exact ⟨line, carriage⟩
  | line => exact (unbroken List.mem_cons_self).elim
  | quotes some_quote =>
    obtain ⟨k, rfl⟩ := Nat.exists_eq_add_one.mpr some_quote
    rintro _ ⟨⟩
    exact inner.visible

theorem Body.reads_manyLines (inner : Inner quote part) (body : Body quote part text meaning)
    (other : quote ∉ rest.head?) :
    Reads (manyLines quote part)
      (List.replicate 3 quote ++ ((if meaning.contains '\n' then ['\n'] else []) ++
        (text ++ (List.replicate 3 quote ++ rest)))) (String.ofList meaning) rest := by
  obtain ⟨parts, n, read, few, meant⟩ := body.reads inner other
  have first : Reads (Reader.optional newline)
      ((if meaning.contains '\n' then ['\n'] else []) ++
        (text ++ (List.replicate 3 quote ++ rest))) ()
      (text ++ (List.replicate 3 quote ++ rest)) := by
    by_cases broken : meaning.contains '\n'
    · rw [if_pos broken]
      exact (reads_newline _).optional
    · rw [if_neg broken]
      exact (body.refuses_newline inner (by simpa using broken) rest).optional
  rw [← meant]
  rw [← meant] at first
  exact (reads_text [quote, quote, quote] _).bind (first.bind (read.bind
    ((reads_closingQuotes few other).bind (.pure _ rest))))

/-! ## Several lines in double quotes -/

/-- What stands between line ends and quotes in a string in triple double quotes. -/
def basicPart : Reader (List Char) :=
  lineContinuation <|> (do pure [← escape])
    <|> (do pure [← satisfy fun c ↦ isPlain c && c ≠ '"' && c ≠ '\\'])

theorem inner_basicPart : Inner '"' basicPart where
  line rest := by
    refine (refuses_lineContinuation (by decide) rest).and (.and ?_ ?_)
    · exact (refuses_escape (by decide) rest).bind _
    · exact (refuses_satisfy (stops_cons (by decide) rest)).bind _
  closing rest := by
    refine (refuses_lineContinuation (by decide) rest).and (.and ?_ ?_)
    · exact (refuses_escape (by decide) rest).bind _
    · exact (refuses_satisfy (stops_cons (by decide) rest)).bind _
  visible := by decide

theorem ne_of_isPlain (plain : isPlain c) : c ≠ '\n' ∧ c ≠ '\r' := by
  constructor
  · rintro rfl
    exact absurd plain (by decide)
  · rintro rfl
    exact absurd plain (by decide)

/-- A character that is written as it is. -/
theorem Body.plain (plain : isPlain c) (reads : ∀ rest, Reads part (c :: rest) [c] rest)
    (body : Body quote part text meaning) : Body quote part (c :: text) (c :: meaning) := by
  obtain ⟨line, carriage⟩ := ne_of_isPlain plain
  have read (rest : List Char) : Reads part (c :: ([] ++ rest)) [c] rest := reads rest
  exact .piece line carriage read body

theorem Piece.body {piece : List Char} (written : Piece true c piece)
    (body : Body '"' basicPart text meaning) :
    Body '"' basicPart (piece ++ text) (c :: meaning) := by
  cases written with
  | @escaped e more mark reads =>
    have part (rest : List Char) : Reads basicPart ('\\' :: (e :: more ++ rest)) [c] rest :=
      (refuses_lineContinuation_mark mark _).orElse
        (((reads rest).bind (.pure [c] rest)).orElse _)
    exact .piece (by decide) (by decide) part body
  | plain plain quote backslash =>
    have part (rest : List Char) : Reads basicPart (c :: rest) [c] rest := by
      have taken : Reads (satisfy fun c ↦ isPlain c && c ≠ '"' && c ≠ '\\') (c :: rest) c rest :=
        reads_satisfy (by simp [plain, quote, backslash]) rest
      exact (refuses_lineContinuation backslash rest).orElse
        (((refuses_escape backslash rest).bind _).orElse (taken.bind (.pure [c] rest)))
    exact .plain plain part body
  | newline _ line =>
    subst line
    exact body.line

theorem Piece.exists_head {piece : List Char} (written : Piece tripled c piece)
    (rest : List Char) : ∃ d ∈ (piece ++ rest).head?, d ≠ '"' := by
  cases written with
  | escaped => exact ⟨_, rfl, by decide⟩
  | plain plain quote => exact ⟨_, rfl, quote⟩
  | newline _ line =>
    subst line
    exact ⟨_, rfl, by decide⟩

theorem escape_of_ne (allowed : Nat) (h : c ≠ '"') :
    Quoted.escape tripled allowed c = Quoted.escape tripled 0 c := by
  simp [Quoted.escape, h]

theorem body_escapeAll : (s : List Char) →
    Body '"' basicPart (Quoted.escapeAll true 2 s) s
  | [] => .close (Nat.zero_le 2)
  | c :: s => by
    have piece := piece_escape true
    by_cases quote : c = '"'
    · subst quote
      match s with
      | [] => exact .close (Nat.le_succ 1)
      | d :: s =>
        by_cases again : d = '"'
        · subst again
          match s with
          | [] => exact .close (Nat.le_refl 2)
          | e :: s =>
            -- no third quote is loose: behind two of them nothing but an escaped one may follow
            have text : Quoted.escapeAll true 2 ('"' :: '"' :: e :: s) =
                List.replicate 2 '"' ++ (Quoted.escape true 0 e ++ Quoted.escapeAll true 2 s) := by
              simp [Quoted.escapeAll, Quoted.escape, Quoted.looseQuotes, List.replicate]
            rw [text]
            exact .quotes (Nat.zero_lt_succ 1) (Nat.le_refl 2) ((piece e).exists_head _)
              ((piece e).body (body_escapeAll s))
        · have text : Quoted.escapeAll true 2 ('"' :: d :: s) =
              List.replicate 1 '"' ++ (Quoted.escape true 0 d ++ Quoted.escapeAll true 2 s) := by
            rw [← escape_of_ne 1 again]
            simp [Quoted.escapeAll, Quoted.escape, Quoted.looseQuotes, again]
          rw [text]
          exact .quotes (Nat.zero_lt_succ 0) (Nat.le_succ 1) ((piece d).exists_head _)
            ((piece d).body (body_escapeAll s))
    · have text : Quoted.escapeAll true 2 (c :: s) =
          Quoted.escape true 0 c ++ Quoted.escapeAll true 2 s := by
        rw [← escape_of_ne 2 quote]
        simp [Quoted.escapeAll, Quoted.looseQuotes, quote]
      rw [text]
      exact (piece c).body (body_escapeAll s)
termination_by s => s.length

/-! ## Several lines in apostrophes -/

def literalPart : Reader (List Char) :=
  do pure [← satisfy fun c ↦ isPlain c && c ≠ apostrophe]

theorem inner_literalPart : Inner apostrophe literalPart where
  line rest := (refuses_satisfy (stops_cons (by decide) rest)).bind _
  closing rest := (refuses_satisfy (stops_cons (by decide) rest)).bind _
  visible := by decide

theorem Body.literal (shown : isPlain c ∨ c = '\n') (other : c ≠ apostrophe)
    (body : Body apostrophe literalPart text meaning) :
    Body apostrophe literalPart (c :: text) (c :: meaning) := by
  rcases shown with plain | rfl
  · have part (rest : List Char) : Reads literalPart (c :: rest) [c] rest :=
      (reads_satisfy (by simp [plain, other]) rest).bind (.pure [c] rest)
    exact .plain plain part body
  · exact body.line

theorem le_longestRun (run : Nat) (s : List Char) : run ≤ Quoted.longestRun c run s := by
  induction s generalizing run with
  | nil => exact Nat.le_refl run
  | cons d s ih =>
    rw [Quoted.longestRun]
    split
    · exact Nat.le_trans (Nat.le_succ run) (ih (run + 1))
    · exact Nat.le_max_left _ _

/-- A run that is left out makes the longest run no longer. -/
theorem longestRun_le_cons {d : Char} (ne : d ≠ c) (run : Nat) (s : List Char) :
    Quoted.longestRun c 0 s ≤ Quoted.longestRun c run (d :: s) := by
  rw [Quoted.longestRun, if_neg ne]
  exact Nat.le_max_right _ _

theorem body_literal : (s : List Char) → (∀ c ∈ s, isPlain c ∨ c = '\n') →
    Quoted.longestRun apostrophe 0 s ≤ 2 → Body apostrophe literalPart s s
  | [] => fun _ _ ↦ .close (Nat.zero_le 2)
  | c :: s => fun shown few ↦ by
    by_cases quote : c = apostrophe
    · subst quote
      match s with
      | [] => exact .close (Nat.le_succ 1)
      | d :: s =>
        by_cases again : d = apostrophe
        · subst again
          match s with
          | [] => exact .close (Nat.le_refl 2)
          | e :: s =>
            simp only [List.forall_mem_cons] at shown
            obtain ⟨-, -, first, others⟩ := shown
            have other : e ≠ apostrophe := by
              -- it would make a run of three
              rintro rfl
              simp only [Quoted.longestRun, if_true] at few
              exact absurd (Nat.le_trans (le_longestRun _ s) few) (by decide)
            have fewer : Quoted.longestRun apostrophe 0 s ≤ 2 := by
              simp only [Quoted.longestRun, if_true, if_neg other] at few
              omega
            have body : Body apostrophe literalPart (e :: s) (e :: s) :=
              .literal first other (body_literal s others fewer)
            exact body.quotes (by decide : 0 < 2) (by decide) ⟨e, rfl, other⟩
        · simp only [List.forall_mem_cons] at shown
          obtain ⟨-, first, others⟩ := shown
          have fewer : Quoted.longestRun apostrophe 0 s ≤ 2 := by
            simp only [Quoted.longestRun, if_true, if_neg again] at few
            omega
          have body : Body apostrophe literalPart (d :: s) (d :: s) :=
            .literal first again (body_literal s others fewer)
          exact body.quotes (by decide : 0 < 1) (by decide) ⟨d, rfl, again⟩
    · obtain ⟨first, others⟩ := List.forall_mem_cons.mp shown
      have fewer := Nat.le_trans (longestRun_le_cons quote 0 s) few
      exact .literal first quote (body_literal s others fewer)
termination_by s => s.length

/-! ## The four forms -/

/-- No quotes go on in the rest. -/
def Unquoted (rest : List Char) : Prop := ∀ c ∈ rest.head?, c ≠ '"' ∧ c ≠ apostrophe

theorem ne_of_longestRun (none : Quoted.longestRun c 0 s = 0) : ∀ d ∈ s, d ≠ c := by
  induction s with
  | nil => simp
  | cons d s ih =>
    have other : d ≠ c := by
      rintro rfl
      rw [Quoted.longestRun, if_pos rfl] at none
      exact absurd (none ▸ le_longestRun 1 s) (by decide)
    have fewer := none ▸ longestRun_le_cons other 0 s
    exact List.forall_mem_cons.mpr ⟨other, ih (Nat.le_zero.mp fewer)⟩

theorem shown_of_not_control (control : s.any Quoted.isControl = false) :
    ∀ c ∈ s, isPlain c ∨ c = '\n' := by
  intro c mem
  have shown : Quoted.isControl c = false := by
    simpa using List.any_eq_false.mp control c mem
  simp only [Quoted.isControl, Bool.or_eq_false_iff, Bool.and_eq_false_iff, decide_eq_false_iff_not,
    not_not] at shown
  obtain ⟨(large | tab) | line, delete⟩ := shown
  · simp only [isPlain, Bool.or_eq_true, Bool.and_eq_true, decide_eq_true_eq]
    exact .inl (.inr ⟨Nat.le_of_not_lt large, by simpa using delete⟩)
  · exact .inl (by simpa [isPlain] using .inl tab)
  · exact .inr line

/-- Between single quotes there is no quote at the front, so they are not taken for three. -/
theorem refuses_manyLines {body : List Char} (inside : ∀ c ∈ body.head?, c ≠ quote)
    (behind : quote ∉ rest.head?) (part : Reader (List Char)) :
    Refuses (manyLines quote part) (quote :: (body ++ quote :: rest)) := by
  have three : Refuses (text [quote, quote, quote]) (quote :: (body ++ quote :: rest)) := by
    apply Refuses.text_cons
    cases body with
    | nil => exact (refuses_text_of_head behind _).text_cons quote
    | cons c body => exact refuses_text (inside c rfl).symm ..
  exact three.bind _

theorem head_escapeAll (s : List Char) : ∀ c ∈ (Quoted.escapeAll false 0 s).head?, c ≠ '"' := by
  cases s with
  | nil => simp [Quoted.escapeAll]
  | cons c s =>
    obtain ⟨d, head, ne⟩ := (piece_escape false c).exists_head (Quoted.escapeAll false 0 s)
    rw [escapeAll_cons, head]
    rintro _ ⟨⟩
    exact ne

theorem reads_string_basic (s : List Char) (unquoted : Unquoted rest) :
    Reads Reader.string ('"' :: (Quoted.escapeAll false 0 s ++ '"' :: rest)) (String.ofList s)
      rest := by
  have behind : '"' ∉ rest.head? := fun mem ↦ (unquoted _ mem).1 rfl
  have single := refuses_manyLines (head_escapeAll s) behind basicPart
  exact single.orElse ((reads_basicString s rest).orElse _)

theorem reads_string_literal (plain : ∀ c ∈ s, isPlain c ∧ c ≠ apostrophe)
    (unquoted : Unquoted rest) :
    Reads Reader.string (apostrophe :: (s ++ apostrophe :: rest)) (String.ofList s) rest := by
  have behind : apostrophe ∉ rest.head? := fun mem ↦ (unquoted _ mem).2 rfl
  have inside : ∀ c ∈ s.head?, c ≠ apostrophe := fun c mem ↦ (plain c (List.mem_of_mem_head? mem)).2
  have other (text : List Char) (t : List Char) :
      Refuses (Reader.text ('"' :: t)) (apostrophe :: text) := refuses_text (by decide) ..
  refine Refuses.orElse ((other _ _).bind _) (Refuses.orElse ((other _ _).bind _) ?_)
  exact (refuses_manyLines inside behind literalPart).orElse (reads_literalString plain rest)

theorem reads_string_basicLines (s : List Char) (unquoted : Unquoted rest) :
    Reads Reader.string (List.replicate 3 '"' ++ ((if s.contains '\n' then ['\n'] else []) ++
      (Quoted.escapeAll true 2 s ++ (List.replicate 3 '"' ++ rest)))) (String.ofList s) rest :=
  ((body_escapeAll s).reads_manyLines inner_basicPart fun mem ↦ (unquoted _ mem).1 rfl).orElse _

theorem reads_string_literalLines (shown : ∀ c ∈ s, isPlain c ∨ c = '\n')
    (few : Quoted.longestRun apostrophe 0 s ≤ 2) (unquoted : Unquoted rest) :
    Reads Reader.string (List.replicate 3 apostrophe ++
      ((if s.contains '\n' then ['\n'] else []) ++ (s ++ (List.replicate 3 apostrophe ++ rest))))
      (String.ofList s) rest := by
  have other (text : List Char) (t : List Char) :
      Refuses (Reader.text ('"' :: t)) (apostrophe :: text) := refuses_text (by decide) ..
  refine Refuses.orElse ((other _ _).bind _) (Refuses.orElse ((other _ _).bind _) ?_)
  exact ((body_literal s shown few).reads_manyLines inner_literalPart
    fun mem ↦ (unquoted _ mem).2 rfl).orElse _

/-- A string is read back from its text, whatever form that has. -/
theorem reads_encode (s : List Char) (unquoted : Unquoted rest) :
    Reads Reader.string (Quoted.encode s ++ rest) (String.ofList s) rest := by
  have basic := reads_string_basic s unquoted
  have basicLines := reads_string_basicLines s unquoted
  simp only [Quoted.encode, Quoted.Form.of, Quoted.looseQuotes]
  split
  · simpa using basic
  split
  · rename_i form
    simp only [Bool.and_eq_true, Bool.not_eq_true', decide_eq_true_eq] at form
    obtain ⟨⟨control, unbroken⟩, none⟩ := form
    have plain : ∀ c ∈ s, isPlain c ∧ c ≠ apostrophe := by
      intro c mem
      refine ⟨(shown_of_not_control control c mem).resolve_right ?_, ne_of_longestRun none c mem⟩
      rintro rfl
      simp [mem] at unbroken
    simpa using reads_string_literal plain unquoted
  split
  · simpa using basicLines
  split
  · rename_i form
    simp only [Bool.and_eq_true, Bool.not_eq_true', decide_eq_true_eq] at form
    obtain ⟨control, few⟩ := form
    simpa using reads_string_literalLines (shown_of_not_control control) few unquoted
  · cases broken : s.contains '\n'
    · simpa using basic
    · rw [broken] at basicLines
      simpa using basicLines

end ScriptCache.Toml
