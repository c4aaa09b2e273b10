import ScriptCache.Proofs.Source.Accepted.Sources
import ScriptCache.Proofs.Source.Lines.Errors
import ScriptCache.Proofs.Source.Lines.Tokens

/-!
# The lines of statements

A namespace or a type carries the line of the token that it begins with: the first modifier, or else
the keyword. The parser reads the tokens from front to back, so these lines stand in a tree in the
order of the source.
-/

namespace ScriptCache.Source

/-! ## Lines in a tree -/

/-- A namespace or a type as it stands in a tree, with the line that it carries. -/
inductive Head where
  | space (name : Option String) (line : Nat)
  | type (kind : TypeKind) (name : String) (line : Nat)
  deriving DecidableEq, Repr

def Head.line : Head → Nat
  | .space _ line => line
  | .type _ _ line => line

namespace Statement

mutual

/-- The namespaces and types of a statement, each in front of those in it. -/
def heads : Statement → List Head
  | .namespaceBlock name line body => .space name line :: headsOfAll body
  | .declaration kind name line => [.type kind name line]
  | .other => []

def headsOfAll : List Statement → List Head
  | [] => []
  | s :: statements => heads s ++ headsOfAll statements

end

theorem headsOfAll_append (first second : List Statement) :
    headsOfAll (first ++ second) = headsOfAll first ++ headsOfAll second := by
  induction first with
  | nil => rfl
  | cons s first ih => rw [List.cons_append, headsOfAll, headsOfAll, ih, List.append_assoc]

end Statement

def Item.heads : Item → List Head
  | .header name line => [.space (some name) line]
  | .statement s => s.heads

/-- Giving headers their statements keeps the order. -/
theorem headsOfAll_ofItems (items : List Item) :
    Statement.headsOfAll (Statement.ofItems items) = items.flatMap Item.heads := by
  induction items with
  | nil => rfl
  | cons i items ih =>
    rw [List.flatMap_cons, ← ih]
    cases i with
    | header name line =>
      rw [Statement.ofItems, Statement.headsOfAll_append, Statement.ofItems,
        Statement.headsOfAll_append, Statement.splitItems]
      dsimp only
      rw [Statement.headsOfAll, Statement.headsOfAll, Statement.heads]
      rfl
    | statement s => rw [Grouped.ofItems_statement, Statement.headsOfAll, Item.heads]

def Token.IsModifier (t : Token) : Prop := ∃ text, t.kind = .name text ∧ Parser.isModifier text

/-- What the tokens of a namespace or a type begin with, and the line of their first one. -/
inductive Head.Written : Head → List Token → Prop where
  | header {own rest : List Token} {name : String} {line : Nat}
      (own_header : HeaderTokens own name line) : Written (.space (some name) line) (own ++ rest)
  | block {own rest : List Token} {name : Option String} {line : Nat}
      (own_block : BlockTokens own name line) : Written (.space name line) (own ++ rest)
  | type {modifiers rest : List Token} {keyword nameToken : Token} {word name : String}
      {kind : TypeKind} (modifiers_kind : ∀ t ∈ modifiers, t.IsModifier)
      (keyword_kind : keyword.kind = .name word) (isKeyword_word : isKeyword word kind.keyword)
      (nameToken_kind : nameToken.kind = .name name) (unqualified : '\\' ∉ name.toList) :
      Written (.type kind name ((modifiers ++ [keyword]).head (by simp)).line)
        (modifiers ++ keyword :: nameToken :: rest)

/-- No modifier stands at the end. -/
def Unmodified (before : List Token) : Prop := ∀ u ∈ before.getLast?, ¬u.IsModifier

/-- In the tokens behind `before`, the heads are written in their order. Each has a token of its own
that it begins with, which has its line, and in front of which there is no modifier. -/
inductive Heads : List Token → List Token → List Head → Prop where
  | nil {before tokens : List Token} : Heads before tokens []
  | cons {before skipped rest : List Token} {t : Token} {head : Head} {heads : List Head}
      (written : head.Written (t :: rest)) (line : head.line = t.line)
      (first : Unmodified (before ++ skipped)) (others : Heads (before ++ skipped ++ [t]) rest heads) :
      Heads before (skipped ++ t :: rest) (head :: heads)

namespace Heads

variable {before taken tokens rest : List Token} {heads : List Head}

theorem skip (taken : List Token) (h : Heads (before ++ taken) rest heads) :
    Heads before (taken ++ rest) heads := by
  cases h with
  | nil => exact .nil
  | @cons _ skipped _ _ _ _ written line first others =>
    rw [← List.append_assoc]
    rw [List.append_assoc before] at first others
    exact .cons written line first others

theorem lines_sublist (h : Heads before tokens heads) :
    (heads.map Head.line).Sublist (tokens.map (·.line)) := by
  induction h with
  | nil => exact List.nil_sublist _
  | cons _ line _ _ ih =>
    rw [List.map_cons, List.map_append, List.map_cons, line]
    exact (ih.cons_cons _).trans (List.sublist_append_right ..)

end Heads

/-! ## Where modifiers end -/

variable {before taken tokens rest : List Token} {t : Token}

theorem Unmodified.append (h : Unmodified before) (h' : Unmodified taken) :
    Unmodified (before ++ taken) := by
  intro u mem
  rw [List.getLast?_append] at mem
  rcases Option.or_eq_some_iff.mp mem with last | ⟨-, last⟩
  · exact h' u last
  · exact h u last

theorem unmodified_concat (before : List Token) (plain : ¬t.IsModifier) :
    Unmodified (before ++ [t]) := by
  intro u mem
  rw [List.getLast?_concat] at mem
  cases mem
  exact plain

theorem not_isModifier (notName : ∀ text, t.kind ≠ .name text) : ¬t.IsModifier :=
  fun ⟨text, kind, _⟩ ↦ notName text kind

theorem Group.unmodified {b : Bracket} (h : Group b taken) (before : List Token) :
    Unmodified (before ++ taken) := by
  obtain @⟨opener, closer, inner, -, -, closes⟩ := h
  have last := unmodified_concat (before ++ opener :: inner)
    (not_isModifier (t := closer) (by simp [closes]))
  simpa using last

/-- No modifier stands in front of what comes next, if that is no end of a block. -/
def Separated (taken rest : List Token) : Prop :=
  Unmodified taken ∨ ∀ u ∈ rest.head?, u.kind = .closing .brace

namespace Parser

variable {endLine : Nat} {step : Step}

/-- The tokens up to `rest` end apart from it, whatever stands in front of them. -/
def Parts (tokens rest : List Token) : Prop :=
  ∃ taken, tokens = taken ++ rest ∧ ∀ front, Separated (front ++ taken) rest

theorem Parts.behind (h : Parts tokens rest) (front : List Token) : Parts (front ++ tokens) rest := by
  obtain ⟨taken, rfl, apart⟩ := h
  refine ⟨front ++ taken, by rw [List.append_assoc], fun before ↦ ?_⟩
  rw [← List.append_assoc]
  exact apart _

theorem parts_of_skipExpression (h : skipExpression endLine 0 tokens = .ok rest) :
    Parts tokens rest := by
  obtain ⟨own, rfl, closed⟩ := exists_of_skipExpression h
  cases closed with
  | @ended run _ _ _ ending =>
    refine ⟨_, rfl, fun front ↦ .inl ?_⟩
    rw [← List.append_assoc]
    cases ending with
    | semicolon kind => exact unmodified_concat _ (not_isModifier (by simp [kind]))
    | block group => exact group.unmodified _
  | cut _ next => exact ⟨_, rfl, fun _ ↦ .inr next⟩

theorem not_isModifier_of_closesControl {text : String} (kind : t.kind = .name text)
    (closes : closesControl text) : ¬t.IsModifier := by
  rintro ⟨other, kind', modifier⟩
  rw [kind] at kind'
  cases kind'
  obtain ⟨keyword, mem, isKeyword⟩ := List.any_eq_true.mp closes
  have none : ∀ keyword ∈ controlKeywords, "end" ++ keyword ∉ ["abstract", "final", "readonly"] := by
    decide
  rw [not_isKeyword_of_isModifier modifier (none keyword mem)] at isKeyword
  cases isKeyword

theorem parts_of_skipControl (h : skipControl endLine 0 tokens = .ok rest) : Parts tokens rest := by
  obtain ⟨body, last, text, after, rfl, -, kind, closes, leaves⟩ := exists_of_skipControl h
  rw [Leaves] at leaves
  subst leaves
  split
  · rename_i semicolon
    cases after with
    | nil => cases semicolon
    | cons mark after =>
      have kind : mark.kind = .semicolon := by simpa using semicolon
      refine ⟨body ++ [last] ++ [mark], by simp, fun front ↦ .inl ?_⟩
      rw [← List.append_assoc]
      exact unmodified_concat _ (not_isModifier (by simp [kind]))
  · refine ⟨body ++ [last], by simp, fun front ↦ .inl ?_⟩
    rw [← List.append_assoc]
    exact unmodified_concat _ (not_isModifier_of_closesControl kind closes)

theorem parts_of_skipStatement (h : skipStatement endLine t tokens = .ok rest) :
    Parts (t :: tokens) rest := by
  rw [skipStatement_eq] at h
  split at h
  · rename_i text inner kind condition
    split at h
    · obtain ⟨opener, rfl, round⟩ := exists_of_condition? condition
      obtain ⟨after, skipped, h⟩ := exists_of_bind h
      obtain ⟨group, eq, -⟩ := exists_group_of_skipGroup round skipped
      rw [eq, ← List.cons_append]
      refine Parts.behind ?_ _
      split at h
      · rename_i colon
        obtain ⟨mark, rfl, -⟩ := exists_of_skipColon colon
        exact (parts_of_skipControl h).behind [mark]
      · exact parts_of_skipExpression h
    · exact parts_of_skipExpression h
  · exact parts_of_skipExpression h

def Step.heads : Step → List Head
  | .item i _ => i.heads
  | .enter name line _ => [.space name line]

/-- The tokens that a step takes end apart from the rest, and what it reads begins with the first. -/
def Step.Spells (tokens : List Token) (step : Step) : Prop :=
  ∃ taken, tokens = taken ++ step.rest ∧ (∀ front, Separated (front ++ taken) step.rest) ∧
    (step.heads = [] ∨ ∃ t own head, taken = t :: own ∧ step.heads = [head] ∧
      head.Written tokens ∧ head.line = t.line)

theorem spells_readOther (h : readOther endLine t tokens = .ok step) :
    step.Spells (t :: tokens) := by
  obtain ⟨after, skipped, e⟩ := Lexer.eq_ok_of_map_eq_ok h
  cases e
  obtain ⟨taken, eq, apart⟩ := parts_of_skipStatement skipped
  exact ⟨taken, eq, apart, .inl rfl⟩

theorem spells_readNamespace {word : String} (kind : t.kind = .name word)
    (isNamespace : isKeyword word "namespace") (h : readNamespace endLine t.line tokens = .ok step) :
    step.Spells (t :: tokens) := by
  have ends {last : Token} (before : List Token) (notName : ∀ text, last.kind ≠ .name text)
      (rest front : List Token) : Separated (front ++ (before ++ [last])) rest := by
    rw [← List.append_assoc]
    exact .inl (unmodified_concat _ (not_isModifier notName))
  unfold readNamespace at h
  split at h
  · rename_i text line offset after
    dsimp only at h
    split at h
    · cases h
      refine ⟨_, rfl, ends [t, _] (by simp) _, .inr ⟨_, _, _, rfl, rfl, ?_, rfl⟩⟩
      exact .header (.mk kind isNamespace rfl rfl)
    · cases h
      refine ⟨_, rfl, ends [t, _] (by simp) _, .inr ⟨_, _, _, rfl, rfl, ?_, rfl⟩⟩
      exact .block (.named kind isNamespace rfl rfl)
    · cases h
  · cases h
    refine ⟨_, rfl, ends [t] (by simp) _, .inr ⟨_, _, _, rfl, rfl, ?_, rfl⟩⟩
    exact .block (.unnamed kind isNamespace rfl)
  · cases h

theorem spells_readType {kind : TypeKind} {after : List Token}
    (declared : declared? (t :: tokens) = some (kind, after))
    (h : readType endLine t.line kind after = .ok step) : step.Spells (t :: tokens) := by
  obtain ⟨modifiers, keyword, word, eq, modifiers_kind, keyword_kind, isKeyword_word⟩ :=
    exists_of_declared? declared
  unfold readType at h
  split at h
  · rename_i name line offset after
    split at h
    · cases h
    · rename_i unqualified
      obtain ⟨rest, skipped, e⟩ := Lexer.eq_ok_of_map_eq_ok h
      cases e
      obtain ⟨header, body, rfl, -, braces⟩ := exists_of_skipTypeBody skipped
      have written : Head.Written (.type kind name ((modifiers ++ [keyword]).head (by simp)).line)
          (modifiers ++ keyword :: ⟨.name name, line, offset⟩ :: (header ++ body ++ rest)) :=
        .type modifiers_kind keyword_kind isKeyword_word rfl (by simpa using unqualified)
      have first : ∃ own,
          t :: own = modifiers ++ keyword :: ⟨.name name, line, offset⟩ :: (header ++ body) ∧
          (modifiers ++ [keyword]).head (by simp) = t := by
        cases modifiers <;> cases eq <;> exact ⟨_, rfl, rfl⟩
      obtain ⟨own, taken, first⟩ := first
      rw [first, ← eq] at written
      refine ⟨t :: own, ?_, fun front ↦ .inl ?_, .inr ⟨t, own, _, rfl, rfl, written, rfl⟩⟩
      · rw [taken, eq]
        simp [Step.rest]
      · rw [taken]
        have last := braces.unmodified
          (front ++ (modifiers ++ keyword :: ⟨.name name, line, offset⟩ :: header))
        simpa using last
  · cases h

theorem spells_readPlain (last : HaltsLast (t :: tokens))
    (h : readPlain endLine t tokens = .ok step) : step.Spells (t :: tokens) := by
  unfold readPlain at h
  split at h
  · rename_i text kind
    split at h
    · exact spells_readNamespace kind ‹_› h
    split at h
    · rename_i halts
      cases h
      have isHalt : Lexer.isHalt t.kind := by rw [kind]; exact halts
      obtain rfl := last [] t tokens rfl isHalt
      exact ⟨[t], rfl, fun _ ↦ .inr (by simp [Step.rest]), .inl rfl⟩
    split at h
    · exact spells_readOther h
    split at h
    · exact spells_readType ‹_› h
    · exact spells_readOther h
  · exact spells_readOther h

theorem unmodified_attributes (tokens : List Token) :
    Unmodified (tokens.takeWhile isAttribute) := by
  intro u mem
  have kind := List.mem_takeWhile_imp (List.mem_of_getLast? mem)
  exact not_isModifier (by simp_all [isAttribute])

/-- One statement: what it reads is written in front of what is read behind it. -/
theorem heads_readStatement (last : HaltsLast tokens) (clear : Unmodified before)
    (h : readStatement endLine tokens = .ok step) :
    ∃ taken, tokens = taken ++ step.rest ∧ Separated (before ++ taken) step.rest ∧
      ∀ heads, Heads (before ++ taken) step.rest heads →
        Heads before tokens (step.heads ++ heads) := by
  have attributes := unmodified_attributes tokens
  have whole := List.takeWhile_append_dropWhile (p := isAttribute) (l := tokens)
  generalize tokens.takeWhile isAttribute = front at attributes whole
  have nothing (ends : ∀ u ∈ (tokens.dropWhile isAttribute).head?, u.kind = .closing .brace) :
      ∃ taken, tokens = taken ++ tokens.dropWhile isAttribute ∧
        Separated (before ++ taken) (tokens.dropWhile isAttribute) ∧
        ∀ heads, Heads (before ++ taken) (tokens.dropWhile isAttribute) heads →
          Heads before tokens heads := by
    refine ⟨front, whole.symm, .inr ends, fun heads written ↦ ?_⟩
    rw [← whole]
    exact written.skip front
  unfold readStatement at h
  split at h
  · rename_i none
    cases h
    rw [none] at nothing
    exact nothing (by simp)
  · rename_i t rest ahead
    rw [ahead] at nothing whole
    split at h
    · rename_i closes
      cases h
      exact nothing (by simpa using closes)
    · have behind : HaltsLast (t :: rest) := last.suffix ⟨front, whole⟩
      obtain ⟨taken, eq, apart, spelled⟩ := spells_readPlain behind h
      have apart := apart (before ++ front)
      rw [List.append_assoc] at apart
      refine ⟨front ++ taken, by rw [← whole, eq, List.append_assoc], apart, fun heads written ↦ ?_⟩
      rw [← List.append_assoc] at written
      rcases spelled with none | ⟨t', own, head, rfl, one, head_written, line⟩
      · rw [none, ← whole, eq]
        exact (written.skip taken).skip front
      · cases eq
        rw [one, ← whole]
        refine .cons head_written line (clear.append attributes) ?_
        refine Heads.skip own ?_
        simpa using written

/-- The heads of what is open, and of what stands in front of it. -/
def opened : List OpenBlock → List Head
  | [] => []
  | block :: outer =>
    opened outer ++ block.before.reverse.flatMap Item.heads ++ [.space block.name block.line]

/-- From front to back, the parser reads the heads in the order of the tokens. -/
theorem exists_heads_of_readItems {blocks : List OpenBlock} {items all : List Item}
    (last : HaltsLast tokens) (apart : Separated before tokens)
    (h : readItems endLine blocks items tokens = .ok all) :
    ∃ heads, Heads before tokens heads ∧
      all.flatMap Item.heads = opened blocks ++ items.reverse.flatMap Item.heads ++ heads := by
  replace h := readsItems_of_readItems h
  induction h generalizing before with
  | ended => exact ⟨[], .nil, by simp [opened]⟩
  | @closes _ _ _ _ t _ closes _ ih =>
    have clear := unmodified_concat before (not_isModifier (t := t) (by simp [closes]))
    obtain ⟨heads, written, eq⟩ := ih (last.suffix (List.suffix_cons ..)) (.inl clear)
    refine ⟨heads, written.skip [t], ?_⟩
    rw [eq, opened]
    simp [Item.heads, Statement.heads, headsOfAll_ofItems]
  | @item _ _ _ t i _ _ stays read _ ih =>
    have clear : Unmodified before := apart.resolve_right fun next ↦ stays (next t rfl)
    obtain ⟨taken, whole, apart, later⟩ := heads_readStatement last clear read
    obtain ⟨heads, written, eq⟩ := ih (last.suffix ⟨taken, whole.symm⟩) apart
    refine ⟨i.heads ++ heads, later heads written, ?_⟩
    rw [eq]
    simp
  | @enter _ _ _ t name line _ _ stays read _ ih =>
    have clear : Unmodified before := apart.resolve_right fun next ↦ stays (next t rfl)
    obtain ⟨taken, whole, apart, later⟩ := heads_readStatement last clear read
    obtain ⟨heads, written, eq⟩ := ih (last.suffix ⟨taken, whole.symm⟩) apart
    refine ⟨.space name line :: heads, later heads written, ?_⟩
    rw [eq, opened]
    simp

end Parser

/-! ## Whole sources -/

variable {source : List UInt8} {stream : TokenStream} {statements : List Statement} {e : ParseError}

theorem heads_ofTokens (last : Parser.HaltsLast stream.tokens)
    (h : Statement.ofTokens stream = .ok statements) :
    Heads [] stream.tokens (Statement.headsOfAll statements) := by
  obtain ⟨items, read, rfl⟩ := Lexer.eq_ok_of_map_eq_ok h
  have start : Separated [] stream.tokens := .inl fun _ mem ↦ nomatch mem
  obtain ⟨heads, written, eq⟩ := Parser.exists_heads_of_readItems last start read
  rw [headsOfAll_ofItems, eq]
  exact written

theorem mem_lines_of_ofTokens (last : Parser.HaltsLast stream.tokens)
    (h : Statement.ofTokens stream = .error e) : e.line ∈ stream.lines := by
  have failed : Parser.FailsOn stream.endLine stream.tokens (Statement.ofTokens stream) :=
    (Parser.failsOn_readItems [] [] last).map Statement.ofItems
  have line := failed e h
  simpa [TokenStream.lines, TokenStream.listed] using line

theorem ofSource_cases (source : List UInt8) :
    (∃ e, TokenStream.ofSource source = .error e ∧ Statement.ofSource source = .error e) ∨
      ∃ stream, TokenStream.ofSource source = .ok stream ∧ Parser.HaltsLast stream.tokens ∧
        Statement.ofSource source = Statement.ofTokens stream := by
  rw [Statement.ofSource]
  cases lexed : TokenStream.ofSource source with
  | error e => exact .inl ⟨e, rfl, rfl⟩
  | ok stream =>
    exact .inr ⟨stream, rfl, Lexer.haltsLast_of_lexes (Lexer.lexes_of_readTokens lexed), rfl⟩

/-- Reported lines are true. The tokens of a source, and the one mark of the end behind them, have
the lines of the places at which they stand, from front to back; the namespaces and types of a tree
have the lines of the tokens that they begin with, in the order of the source; and an error has a
line of the source, which is that of a token or of the end where the tokens could be read. No line
is too large for the counter. -/
theorem lines_of_source (source : List UInt8)
    (few : source.count Cursor.newline < UInt32.size - 1) :
    (∀ stream, TokenStream.ofSource source = .ok stream →
      (∃ stop, stream.Lined source 0 stop) ∧ stream.lines.Pairwise (· ≤ ·) ∧
        (stream.listed.map (·.1)).count none = 1 ∧ (stream.listed.map (·.1)).getLast? = some none ∧
        ∀ line ∈ stream.lines, line < UInt32.size) ∧
      (∀ statements, Statement.ofSource source = .ok statements →
        ∃ stream, TokenStream.ofSource source = .ok stream ∧
          Heads [] stream.tokens (Statement.headsOfAll statements) ∧
          ((Statement.headsOfAll statements).map Head.line).Pairwise (· ≤ ·)) ∧
      ∀ e, Statement.ofSource source = .error e →
        1 ≤ e.line ∧ e.line ≤ source.count Cursor.newline + 1 ∧ e.line < UInt32.size ∧
          ∀ stream, TokenStream.ofSource source = .ok stream → e.line ∈ stream.lines := by
  have fits {line : Nat} (le : line ≤ source.count Cursor.newline + 1) : line < UInt32.size := by
    omega
  refine ⟨fun stream lexed ↦ ?_, fun statements parsed ↦ ?_, fun e failed ↦ ?_⟩
  · obtain ⟨stop, lined⟩ := exists_lined_of_ofSource lexed
    have marks : stream.listed.map (·.1) = stream.tokens.map (fun t ↦ some t.kind) ++ [none] := by
      simp [TokenStream.listed]
    refine ⟨⟨stop, lined⟩, lined.nondecreasing, ?_, ?_, fun line mem ↦ fits (lined.bounds line mem).2⟩
    · rw [marks, List.count_append, List.count_singleton_self, List.count_eq_zero_of_not_mem (by simp)]
    · rw [marks, List.getLast?_concat]
  · rcases ofSource_cases source with ⟨e, -, failed⟩ | ⟨stream, lexed, last, same⟩
    · rw [failed] at parsed
      cases parsed
    · rw [same] at parsed
      obtain ⟨stop, lined⟩ := exists_lined_of_ofSource lexed
      have ordered : (stream.tokens.map (·.line)).Pairwise (· ≤ ·) := by
        have all := lined.nondecreasing
        rw [TokenStream.lines, TokenStream.listed, List.map_append, List.map_map] at all
        exact (List.pairwise_append.mp all).1
      have written := heads_ofTokens last parsed
      exact ⟨stream, lexed, written, ordered.sublist written.lines_sublist⟩
  · rcases ofSource_cases source with ⟨e', lexed, same⟩ | ⟨stream, lexed, last, same⟩
    · rw [same] at failed
      cases failed
      obtain ⟨offset, -, line⟩ := exists_line_of_ofSource lexed
      have le : e.line ≤ source.count Cursor.newline + 1 := by
        rw [line]
        exact lineAt_le source offset
      refine ⟨by rw [line]; exact lineAt_pos source offset, le, fits le, fun stream lexed' ↦ ?_⟩
      rw [lexed] at lexed'
      cases lexed'
    · rw [same] at failed
      have mem := mem_lines_of_ofTokens last failed
      obtain ⟨stop, lined⟩ := exists_lined_of_ofSource lexed
      obtain ⟨pos, le⟩ := lined.bounds _ mem
      refine ⟨pos, le, fits le, fun stream' lexed' ↦ ?_⟩
      rw [lexed] at lexed'
      cases lexed'
      exact mem

namespace Lexer.Sample

/-- A type on the second line, with its body on the third. -/
def spread : List UInt8 := Ascii.ofString "<?php\nclass C\n\x7b\x7d"

def spreadTokens : List Token :=
  [⟨.name "class", 2, 6⟩, ⟨.name "C", 2, 12⟩, ⟨.opening .brace, 3, 14⟩, ⟨.closing .brace, 3, 15⟩]

theorem ofSource_spread : TokenStream.ofSource spread = .ok ⟨spreadTokens, 3⟩ := by
  have opened : skipInlineText (.ofSource spread) =
      ⟨Ascii.ofString "\nclass C\n\x7b\x7d", 5, 1⟩ := by cbv
  have declares : readToken ⟨Ascii.ofString "class C\n\x7b\x7d", 6, 2⟩ 0x63
      ⟨Ascii.ofString "lass C\n\x7b\x7d", 7, 2⟩ =
      .ok (.name "class", ⟨Ascii.ofString " C\n\x7b\x7d", 11, 2⟩) := by cbv
  have own : readToken ⟨Ascii.ofString "C\n\x7b\x7d", 12, 2⟩ 0x43
      ⟨Ascii.ofString "\n\x7b\x7d", 13, 2⟩ =
      .ok (.name "C", ⟨Ascii.ofString "\n\x7b\x7d", 13, 2⟩) := by cbv
  have opener : readToken ⟨Ascii.ofString "\x7b\x7d", 14, 3⟩ 0x7B ⟨Ascii.ofString "\x7d", 15, 3⟩ =
      .ok (.opening .brace, ⟨Ascii.ofString "\x7d", 15, 3⟩) := by cbv
  have closer : readToken ⟨Ascii.ofString "\x7d", 15, 3⟩ 0x7D ⟨[], 16, 3⟩ =
      .ok (.closing .brace, ⟨[], 16, 3⟩) := by cbv
  rw [TokenStream.ofSource, opened,
    readTokens_token (by cbv) (by rfl) declares (by cbv),
    readTokens_token (by cbv) (by rfl) own (by cbv),
    readTokens_token (by cbv) (by rfl) opener rfl,
    readTokens_token (by cbv) (by rfl) closer rfl,
    readTokens_done (skipTrivia_nil rfl) rfl]
  rfl

theorem ofSource_spread_ok : Statement.ofSource spread = .ok [.declaration .classType "C" 2] := by
  have body : Group .brace (spreadTokens.drop 2) := .mk rfl .nil rfl
  have declaration : DeclarationTokens spreadTokens .classType "C" 2 :=
    @DeclarationTokens.mk [] [] [] _ _ _ _ _ _ (by simp) (by simp) rfl (by cbv) rfl (by decide)
      .nil body
  have read : Statement.ofTokens ⟨spreadTokens, 3⟩ = .ok (Statement.ofItems _) :=
    Statement.ofTokens_eq (.declaration declaration .nil)
  rw [Statement.ofSource, ofSource_spread]
  exact read

end Lexer.Sample

theorem lines_of_source_spread :
    Lexer.Sample.spread.count Cursor.newline = 2 ∧
      (∃ stop, TokenStream.Lined Lexer.Sample.spread 0 ⟨Lexer.Sample.spreadTokens, 3⟩ stop) ∧
      Heads [] Lexer.Sample.spreadTokens [.type .classType "C" 2] := by
  obtain ⟨tokens, trees, -⟩ := lines_of_source Lexer.Sample.spread (by decide)
  obtain ⟨stream, lexed, written, -⟩ := trees _ Lexer.Sample.ofSource_spread_ok
  rw [Lexer.Sample.ofSource_spread] at lexed
  cases lexed
  exact ⟨by decide, (tokens _ Lexer.Sample.ofSource_spread).1, written⟩

end ScriptCache.Source
