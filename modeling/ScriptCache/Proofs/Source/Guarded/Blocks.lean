import ScriptCache.Proofs.Source.Guarded.Statements
import ScriptCache.Proofs.Source.Lines.Statements

/-!
# The guarded parser reads the same statements

Where a block opens, the parser calls itself and returns behind the block. The parser without guards
keeps a stack of open blocks, and the innermost is popped there. With the lexer, no source whose
lines can be counted leads to a fault.
-/

namespace ScriptCache.Source.Guarded

variable {α β : Type} {stream : TokenStream} {t : Token} {rest tokens : List Token}

/-! ## Blocks -/

section Step

variable (inBlock : Bool) (items : List Item) (inside : t :: rest <:+ stream.tokens)
  (notClosing : t.kind ≠ .closing .brace)
include inside notClosing

theorem readStatements_cons :
    readStatements stream inBlock (place stream (t :: rest)) items =
      onward stream.tokens.length (place stream (t :: rest)) Prod.snd
        (readStatement stream (place stream (t :: rest))) fun read _ ↦
          readStatements stream inBlock read.2 (read.1 :: items) := by
  have here := kindHere_cons inside
  rw [readStatements]
  cases kind : t.kind with
  | closing b =>
    cases b with
    | brace => contradiction
    | _ => simp only [here, kind]
  | _ => simp only [here, kind]

theorem readStatements_item {item : Item} {after : List Token} (within : after <:+ stream.tokens)
    (shorter : after.length < (t :: rest).length)
    (h : readStatement stream (place stream (t :: rest)) = .ok (item, place stream after)) :
    readStatements stream inBlock (place stream (t :: rest)) items =
      readStatements stream inBlock (place stream after) (item :: items) := by
  rw [readStatements_cons inBlock items inside notClosing, h]
  refine onward_ok ?_
  exact place_further inside within shorter

theorem readStatements_error {f : Fault}
    (h : readStatement stream (place stream (t :: rest)) = .error f) :
    readStatements stream inBlock (place stream (t :: rest)) items = .error f := by
  rw [readStatements_cons inBlock items inside notClosing, h]
  rfl

end Step

/-- What a call for a block finds, with the tokens behind the block. Where the open blocks are kept
on a stack, the innermost one ends there. -/
structure Block (stream : TokenStream) (items : List Item) (tokens : List Token)
    (found : Except ParseError (List Statement × List Token)) : Prop where
  reads : readStatements stream true (place stream tokens) items =
    same (fun read ↦ (read.1, place stream read.2)) found
  suffix : ∀ read, found = .ok read → read.2 <:+ tokens
  pops : ∀ (block : Parser.OpenBlock) (outer : List Parser.OpenBlock),
    Parser.readItems stream.endLine (block :: outer) items tokens =
      found.bind fun read ↦ Parser.readItems stream.endLine outer
        (.statement (.namespaceBlock block.name block.line read.1) :: block.before) read.2

section Block

variable {items : List Item} (inside : t :: rest <:+ stream.tokens)
  (notClosing : t.kind ≠ .closing .brace)
include inside notClosing

/-- A block goes on behind an item. -/
theorem Block.item {item : Item} {after : List Token}
    {found : Except ParseError (List Statement × List Token)}
    (block : Block stream (item :: items) after found) (behind : after <:+ t :: rest)
    (shorter : after.length < (t :: rest).length)
    (h : readStatement stream (place stream (t :: rest)) = .ok (item, place stream after))
    (h' : ∀ blocks, Parser.readItems stream.endLine blocks items (t :: rest) =
      Parser.readItems stream.endLine blocks (item :: items) after) :
    Block stream items (t :: rest) found where
  reads :=
    (readStatements_item true items inside notClosing (behind.trans inside) shorter h).trans
      block.reads
  suffix read h := (block.suffix read h).trans behind
  pops open' outer := (h' _).trans (block.pops open' outer)

theorem Block.error {e : ParseError}
    (h : readStatement stream (place stream (t :: rest)) = .error (.refused e))
    (h' : ∀ blocks, Parser.readItems stream.endLine blocks items (t :: rest) = .error e) :
    Block stream items (t :: rest) (.error e) where
  reads := readStatements_error true items inside notClosing h
  suffix _ h := nomatch h
  pops _ _ := h' _

/-- A statement is refused, or it is read as an item. A block in it is read by a call of its own,
which is over where the block is popped. -/
theorem statement_cases (items : List Item)
    (blocks : ∀ after, after <:+ stream.tokens → after.length < (t :: rest).length →
      ∃ found, Block stream [] after found) :
    (∃ e, readStatement stream (place stream (t :: rest)) = .error (.refused e) ∧
      ∀ outer, Parser.readItems stream.endLine outer items (t :: rest) = .error e) ∨
    ∃ item after, after <:+ t :: rest ∧ after.length < (t :: rest).length ∧
      readStatement stream (place stream (t :: rest)) = .ok (item, place stream after) ∧
      ∀ outer, Parser.readItems stream.endLine outer items (t :: rest) =
        Parser.readItems stream.endLine outer (item :: items) after := by
  have reads := readStatement_place inside notClosing
  have goes (outer : List Parser.OpenBlock) :=
    (Parser.readItems_cons stream.endLine outer items t rest).trans (if_neg notClosing)
  cases read : Parser.readStatement stream.endLine (t :: rest) with
  | error e =>
    rw [read] at reads goes
    exact .inl ⟨e, reads, goes⟩
  | ok step =>
    have behind := Parser.suffix_of_readStatement read
    have shorter := Parser.length_readStatement_lt notClosing read
    rw [read] at reads goes
    cases step with
    | item i after => exact .inr ⟨i, after, behind, shorter, reads, goes⟩
    | enter name line after =>
      rw [Parser.Step.rest] at behind shorter
      obtain ⟨found, inner⟩ := blocks after (behind.trans inside) shorter
      replace reads : readStatement stream (place stream (t :: rest)) =
          (readStatements stream true (place stream after) []).map _ := reads
      have opened (outer : List Parser.OpenBlock) :=
        (goes outer).trans (inner.pops ⟨name, line, items⟩ outer)
      rw [inner.reads] at reads
      cases found with
      | error e => exact .inl ⟨e, reads, opened⟩
      | ok own =>
        obtain ⟨body, after'⟩ := own
        have behind' := inner.suffix _ rfl
        have shorter' := Nat.lt_of_le_of_lt behind'.length_le shorter
        exact .inr ⟨_, after', behind'.trans behind, shorter', reads, opened⟩

end Block

theorem exists_block (inside : tokens <:+ stream.tokens) (items : List Item) :
    ∃ found, Block stream items tokens found := by
  induction tokens using induction_behind generalizing items with
  | nil =>
    refine ⟨Parser.fail stream.endLine [] .unclosedNamespace, ?_, nofun, fun block outer ↦ ?_⟩
    · rw [readStatements, kindHere_place inside, ← refuse_place inside]
      rfl
    · rw [Parser.readItems]
      rfl
  | cons t rest ih =>
    have here := kindHere_cons inside
    by_cases closes : t.kind = .closing .brace
    · refine ⟨.ok (Statement.ofItems items.reverse, rest), ?_, ?_, fun block outer ↦ ?_⟩
      · rw [readStatements]
        simp only [here, closes, if_true, pass_place inside]
        rfl
      · rintro _ ⟨⟩
        exact List.suffix_cons ..
      · rw [Parser.readItems_cons, if_pos closes]
        rfl
    have blocks (after : List Token) (within : after <:+ stream.tokens)
        (shorter : after.length < (t :: rest).length) :=
      ih after (Nat.le_of_lt_succ shorter) within []
    rcases statement_cases inside closes items blocks with
      ⟨e, refused, fails⟩ | ⟨item, after, behind, shorter, reads, goes⟩
    · exact ⟨.error e, .error inside closes refused fails⟩
    · have fewer := Nat.le_of_lt_succ shorter
      obtain ⟨found, block⟩ := ih after fewer (behind.trans inside) (item :: items)
      exact ⟨found, block.item inside closes behind shorter reads goes⟩

/-- Where no block is open, the statements are read up to the end. -/
theorem readStatements_place (inside : tokens <:+ stream.tokens) (items : List Item) :
    readStatements stream false (place stream tokens) items =
      same (fun found ↦ (Statement.ofItems found, stream.tokens.length))
        (Parser.readItems stream.endLine [] items tokens) := by
  induction tokens using induction_behind generalizing items with
  | nil =>
    rw [readStatements, kindHere_place inside, Parser.readItems]
    rfl
  | cons t rest ih =>
    have here := kindHere_cons inside
    by_cases closes : t.kind = .closing .brace
    · rw [Parser.readItems_cons, if_pos closes, ← refuse_place inside, readStatements]
      simp only [here, closes]
      rfl
    rcases statement_cases inside closes items fun _ within _ ↦ exists_block within [] with
      ⟨e, refused, fails⟩ | ⟨item, after, behind, shorter, reads, goes⟩
    · rw [fails, readStatements_error false items inside closes refused, same_error]
    · have within := behind.trans inside
      rw [goes, readStatements_item false items inside closes within shorter reads]
      exact ih after (Nat.le_of_lt_succ shorter) within (item :: items)

/-- The guarded parser reads what the parser reads. -/
theorem parse_eq (stream : TokenStream) : parse stream = same id (Statement.ofTokens stream) := by
  have start : place stream stream.tokens = 0 := Nat.sub_self _
  have read := readStatements_place (List.suffix_refl stream.tokens) []
  rw [parse, ← start, read, Statement.ofTokens]
  cases Parser.readItems stream.endLine [] [] stream.tokens <;> rfl

/-! ## Runs without faults -/

theorem exists_of_same {f : α → β} {x : Except ParseError α} {fault : Fault}
    (h : same f x = .error fault) : ∃ e, fault = .refused e ∧ x = .error e := by
  cases x with
  | error e =>
    cases h
    exact ⟨e, rfl, rfl⟩
  | ok a => cases h

theorem bind_parse_eq {source : List UInt8} (few : Countable source) :
    (readTokens source >>= parse) = same id (Statement.ofSource source) := by
  rw [readTokens_eq few, Statement.ofSource]
  cases TokenStream.ofSource source with
  | error e => rfl
  | ok stream => exact parse_eq stream

/-- Every loop and every call comes forward and stays inside, every byte that is read is there, and
no counter goes below zero: what ends a run of the lexer or of the parser without a result is an
error in what they read. With their guards they find what they find without. -/
theorem reads_without_fault {source : List UInt8} (few : Countable source) :
    readTokens source = same id (TokenStream.ofSource source) ∧
      (∀ stream, parse stream = same id (Statement.ofTokens stream)) ∧
      (readTokens source >>= parse) = same id (Statement.ofSource source) ∧
      ∀ fault, (readTokens source = .error fault ∨ (∃ stream, parse stream = .error fault) ∨
        (readTokens source >>= parse) = .error fault) → ∃ e, fault = .refused e := by
  have tokens := readTokens_eq few
  have both := bind_parse_eq few
  refine ⟨tokens, parse_eq, both, fun fault failed ↦ ?_⟩
  rcases failed with lexing | ⟨stream, parsing⟩ | reading
  · rw [tokens] at lexing
    obtain ⟨e, refused, -⟩ := exists_of_same lexing
    exact ⟨e, refused⟩
  · rw [parse_eq] at parsing
    obtain ⟨e, refused, -⟩ := exists_of_same parsing
    exact ⟨e, refused⟩
  · rw [both] at reading
    obtain ⟨e, refused, -⟩ := exists_of_same reading
    exact ⟨e, refused⟩

theorem reads_spread_without_fault : Countable Lexer.Sample.spread ∧
    readTokens Lexer.Sample.spread = .ok ⟨Lexer.Sample.spreadTokens, 3⟩ ∧
    (readTokens Lexer.Sample.spread >>= parse) = .ok [.declaration .classType "C" 2] := by
  have few : Countable Lexer.Sample.spread := by
    rw [Countable]
    decide
  obtain ⟨tokens, -, both, -⟩ := reads_without_fault few
  rw [Lexer.Sample.ofSource_spread] at tokens
  rw [Lexer.Sample.ofSource_spread_ok] at both
  exact ⟨few, tokens, both⟩

end ScriptCache.Source.Guarded
