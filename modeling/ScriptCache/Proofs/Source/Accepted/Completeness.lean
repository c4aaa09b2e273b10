import ScriptCache.Proofs.Source.Accepted.Soundness

/-!
# What the grammar allows

No reader of the parser fails on tokens that the grammar allows at its place. With the other
direction, the parser succeeds on accepted tokens, and on no others.
-/

namespace ScriptCache.Source

theorem Lexer.exists_of_isHalt {kind : TokenKind} (h : isHalt kind) :
    ∃ text, kind = .name text ∧ isKeyword text "__halt_compiler" := by
  cases kind with
  | name text => exact ⟨text, rfl, h⟩
  | _ => cases h

namespace Parser

variable {endLine depth n : Nat} {t : Token} {tokens rest : List Token}

/-! ## Expressions -/

/-- Inside a bracket of an expression, brackets need not match. -/
theorem skipExpression_crossed {inner : List Token} (h : Crossed inner) (depth : Nat)
    (rest : List Token) :
    skipExpression endLine (depth + 1) (inner ++ rest) =
      skipExpression endLine (depth + 1) rest := by
  induction h generalizing depth rest with
  | nil => rfl
  | token plain _ ih => rw [List.cons_append, skipExpression_plain plain (by omega), ih]
  | block body _ ih =>
    rw [List.append_assoc, skipExpression_braces endLine body, if_neg (by omega), ih]
  | pair opens round _ closes round' _ within others =>
    rw [List.append_assoc, List.cons_append, List.cons_append, skipExpression_opening round opens,
      within, skipExpression_closing round' closes, others]

theorem skipExpression_crossedRun {run : List Token} (h : CrossedRun run) (rest : List Token) :
    skipExpression endLine 0 (run ++ rest) = skipExpression endLine 0 rest := by
  induction h with
  | nil => rfl
  | token plain unending _ ih =>
    rw [List.cons_append, skipExpression_plain plain fun _ ↦ unending, ih]
  | pair opens round within closes round' _ others =>
    rw [List.append_assoc, List.cons_append, List.cons_append, skipExpression_opening round opens,
      skipExpression_crossed within, skipExpression_closing round' closes, others]

theorem skipExpression_expression {own : List Token} (h : Expression own rest) :
    skipExpression endLine 0 (own ++ rest) = .ok rest := by
  cases h with
  | ended run ending =>
    rw [List.append_assoc, skipExpression_crossedRun run, skipExpression_ending ending]
  | cut run next =>
    rw [skipExpression_crossedRun run]
    cases rest with
    | nil => rw [skipExpression, if_pos rfl]
    | cons t rest =>
      rw [skipExpression_cons, next t rfl]
      rfl

/-! ## Declarations -/

theorem skipTypeBody_header {header : List Token} (h : TypeHeader header) (name : String)
    (rest : List Token) :
    skipTypeBody endLine name (header ++ rest) = skipTypeBody endLine name rest := by
  induction h with
  | nil => rfl
  | token plain unending _ ih =>
    rw [List.cons_append, skipTypeBody_cons]
    split <;> simp_all [TokenKind.isBracket]
  | group round body _ ih => rw [List.append_assoc, skipTypeBody_group round body, ih]
  | stray closes round _ ih =>
    rw [List.cons_append, skipTypeBody_cons, closes]
    split <;> simp_all

/-! ## Control blocks -/

theorem not_isKeyword_of_opensControl {word other : String} (h : opensControl word)
    (ne : other ∉ controlKeywords) : isKeyword word other = false := by
  obtain ⟨keyword, mem, eq⟩ := List.any_eq_true.mp h
  exact not_isKeyword eq fun e ↦ ne (e ▸ mem)

theorem closesControl_eq_false {word : String} (h : opensControl word) :
    closesControl word = false := by
  refine List.any_eq_false.mpr fun keyword mem ↦ ?_
  rw [not_isKeyword_of_opensControl h]
  · simp
  · revert keyword
    decide

theorem skipControl_group {b : Bracket} {group : List Token} (h : Group b group)
    (rest : List Token) :
    skipControl endLine depth (group ++ rest) = skipControl endLine depth rest := by
  obtain ⟨opener, inner, eq, opens, skipped⟩ := skipGroup_group endLine h rest
  rw [eq, skipControl_cons, opens]
  dsimp only
  rw [skipped]
  rfl

theorem skipControl_head {head : List Token} {text : String} (h : ControlHead head text)
    (rest : List Token) :
    skipControl endLine depth (head ++ rest) =
      match skipColon rest with
      | some body => skipControl endLine (depth + 1) body
      | none => skipControl endLine depth rest := by
  obtain ⟨keyword_kind, opens, condition_group⟩ := h
  obtain ⟨opener, inner, eq, round, skipped⟩ := skipGroup_group endLine condition_group rest
  rw [List.cons_append, eq, skipControl_cons, keyword_kind]
  dsimp only
  rw [if_neg (by simp [closesControl_eq_false opens]), if_pos opens, condition?, if_pos round]
  dsimp only
  rw [skipped]
  rfl

theorem skipColon_eq_none (h : ∀ t ∈ tokens.head?, t.kind ≠ .colon) : skipColon tokens = none := by
  unfold skipColon
  split
  · exact (h _ rfl rfl).elim
  · rfl

/-- What is left behind a `;` that may stand in front. -/
def behindSemicolon (tokens : List Token) : List Token :=
  if tokens.head?.any (·.kind = .semicolon) then tokens.tail else tokens

/-- An `end` keyword ends the innermost block that is open. -/
theorem skipControl_last {last : Token} {text : String} (kind : last.kind = .name text)
    (closes : closesControl text) (after : List Token) :
    skipControl endLine depth (last :: after) =
      match depth with
      | 0 => .ok (behindSemicolon after)
      | depth + 1 => skipControl endLine depth after := by
  rw [skipControl_cons, kind]
  dsimp only
  rw [if_pos closes]
  rfl

/-- A token that neither ends nor opens a block is passed over. -/
theorem skipControl_token (plain : t.kind.isBracket = false)
    (notClosing : ∀ text, t.kind = .name text → ¬closesControl text)
    (notOpening : ∀ text, t.kind = .name text → opensControl text → condition? tokens = none) :
    skipControl endLine depth (t :: tokens) = skipControl endLine depth tokens := by
  rw [skipControl_cons]
  split
  · rename_i text kind
    rw [if_neg (notClosing text kind)]
    split
    · rename_i opens
      rw [notOpening text kind opens]
    · rfl
  · rename_i kind
    simp [kind, TokenKind.isBracket] at plain
  · rename_i kind
    simp [kind, TokenKind.isBracket] at plain
  · rfl

/-- The body of a block is skipped up to the keyword that ends it. -/
theorem skipControl_body {body : List Token} {last : Token} {text : String}
    (h : ControlBody anyEnd body) (last_kind : last.kind = .name text) (closes : closesControl text)
    (after : List Token) :
    skipControl endLine depth (body ++ last :: after) =
      skipControl endLine depth (last :: after) := by
  induction h generalizing depth last text after with
  | nil => rfl
  | @token t tokens plain notClosing notControl _ ih =>
    rw [List.cons_append, skipControl_token plain notClosing]
    · exact ih last_kind closes after
    intro text' kind opens
    cases tokens with
    | nil => simp [condition?, last_kind]
    | cons u tokens => exact if_neg fun round ↦ notControl (.mk kind opens round)
  | group body _ ih =>
    rw [List.append_assoc, skipControl_group body, ih last_kind closes]
  | @condition head tokens text' head_head noColon _ ih =>
    have noColon : skipColon (tokens ++ last :: after) = none := by
      refine skipColon_eq_none fun t first ↦ ?_
      cases tokens with
      | nil => cases first; simp [last_kind]
      | cons u tokens => exact noColon t first
    rw [List.append_assoc, skipControl_head head_head, noColon]
    exact ih last_kind closes after
  | block head_head colon_kind _ last_kind' closes' _ within others =>
    simp only [List.append_assoc, List.cons_append]
    rw [skipControl_head head_head, skipColon_cons colon_kind]
    dsimp only
    rw [within last_kind' closes', skipControl_last last_kind' closes']
    exact others last_kind closes after

/-! ## Statements -/

theorem readPlain_eq_readOther (unreserved : t.Unreserved)
    (notDeclaration : ¬BeginsDeclaration (t :: tokens)) :
    readPlain endLine t tokens = readOther endLine t tokens := by
  rw [readPlain]
  split
  · rename_i text kind
    obtain ⟨notNamespace, notHalt⟩ := unreserved.2 text kind
    rw [if_neg notNamespace, if_neg notHalt]
    split
    · rfl
    · rename_i notOther
      cases declared : declared? (t :: tokens) with
      | none => rfl
      | some found =>
        refine (notDeclaration (beginsDeclaration_iff.mpr ⟨by rw [declared]; rfl, ?_⟩)).elim
        intro text' kind' isEnum
        rw [kind] at kind'
        cases kind'
        simpa [isEnum] using notOther
  · rfl

/-- The statement is read as one that declares nothing. -/
theorem readStatement_eq_readOther (unreserved : t.Unreserved)
    (notDeclaration : ¬BeginsDeclaration (t :: tokens)) (notClosing : t.kind ≠ .closing .brace) :
    readStatement endLine (t :: tokens) = readOther endLine t tokens := by
  rw [← List.nil_append (t :: tokens), readStatement_attributes (by simp) unreserved.1 notClosing,
    readPlain_eq_readOther unreserved notDeclaration]

theorem declared?_eq_none {text : String} (kind : t.kind = .name text) (opens : opensControl text) :
    declared? (t :: tokens) = none := by
  have notModifier : isModifier text = false := by
    refine List.any_eq_false.mpr fun modifier mem ↦ ?_
    rw [not_isKeyword_of_opensControl opens]
    · simp
    · revert modifier
      decide
  have notType (kind : TypeKind) : ¬isKeyword text kind.keyword := by
    rw [not_isKeyword_of_opensControl opens (by cases kind <;> decide)]
    simp
  obtain ⟨_, line, offset⟩ := t
  cases kind
  rw [declared?, notModifier, typeKeyword_eq_none notType]
  rfl

theorem readStatement_control {text : String} (kind : t.kind = .name text)
    (opens : opensControl text) :
    readStatement endLine (t :: tokens) = readOther endLine t tokens := by
  have other (keyword : String) (ne : keyword ∉ controlKeywords) : ¬isKeyword text keyword := by
    simp [not_isKeyword_of_opensControl opens ne]
  refine readStatement_eq_readOther ⟨by simp [kind], fun text' kind' ↦ ?_⟩ ?_ (by simp [kind])
  · rw [kind] at kind'
    cases kind'
    exact ⟨other _ (by decide), other _ (by decide)⟩
  · simp [beginsDeclaration_iff, declared?_eq_none kind opens]

/-- The statement of a control keyword is a block where `:` is ahead of the condition, and an
expression elsewhere. -/
theorem readStatement_head {head : List Token} {text : String} (h : ControlHead head text)
    (after : List Token) :
    readStatement endLine (head ++ after) =
      (match skipColon after with
        | some body => skipControl endLine 0 body
        | none => skipExpression endLine 0 after).map (.item (.statement .other)) := by
  obtain ⟨keyword_kind, opens, condition_group⟩ := h
  obtain ⟨opener, inner, eq, round, group⟩ := skipGroup_group endLine condition_group after
  rw [List.cons_append, eq, readStatement_control keyword_kind opens, readOther, skipStatement_eq,
    keyword_kind, condition?, if_pos round]
  dsimp only
  rw [if_pos opens, group]
  rfl

theorem readStatement_expression {own : List Token}
    (begins : ∀ t ∈ (own ++ rest).head?, t.Unreserved)
    (notDeclaration : ¬BeginsDeclaration (own ++ rest))
    (notControl : ¬BeginsControl (own ++ rest)) (own_expression : Expression own rest)
    (ne_nil : own ≠ []) :
    readStatement endLine (own ++ rest) = .ok (.item (.statement .other) rest) := by
  have skipped : skipExpression endLine 0 (own ++ rest) = .ok rest :=
    skipExpression_expression own_expression
  obtain ⟨t, tokens, rfl⟩ := List.exists_cons_of_ne_nil ne_nil
  rw [List.cons_append] at *
  have notClosing : t.kind ≠ .closing .brace := by
    -- such an expression would leave its own first token
    intro closes
    rw [skipExpression_cons, closes] at skipped
    have left := congrArg List.length (Except.ok.inj skipped)
    simp only [List.length_cons, List.length_append] at left
    omega
  have statement : skipStatement endLine t (tokens ++ rest) = .ok rest := by
    rw [skipStatement_eq]
    split
    · rename_i text inner kind condition
      refine (if_neg fun opens ↦ notControl ?_).trans skipped
      exact beginsControl_iff.mpr ⟨⟨text, kind, opens⟩, by rw [condition]; rfl⟩
    · exact skipped
  rw [readStatement_eq_readOther (begins t rfl) notDeclaration notClosing, readOther, statement]
  rfl

/-! ## Items -/

/-- Whether reading succeeds does not depend on what was read before. -/
theorem isOk_readItems_eq {blocks blocks' : List OpenBlock} {items items' : List Item}
    (same : blocks.length = blocks'.length) :
    (readItems endLine blocks items tokens).isOk =
      (readItems endLine blocks' items' tokens).isOk := by
  induction tokens using induction_behind generalizing blocks blocks' items items' with
  | nil =>
    rw [readItems, readItems]
    rcases blocks with - | ⟨block, blocks⟩ <;> rcases blocks' with - | ⟨block', blocks'⟩
    · rfl
    · cases same
    · cases same
    · rfl
  | cons t tokens ih =>
    rw [readItems_cons, readItems_cons]
    split
    · rcases blocks with - | ⟨block, blocks⟩ <;> rcases blocks' with - | ⟨block', blocks'⟩
      · rfl
      · cases same
      · cases same
      · exact ih tokens le_rfl (by simpa using same)
    · rename_i stays
      cases read : readStatement endLine (t :: tokens) with
      | error => rfl
      | ok step =>
        have shorter := Nat.le_of_lt_succ (length_readStatement_lt stays read)
        cases step with
        | item i after => exact ih after shorter same
        | enter name line after => exact ih after shorter (by simpa using same)

/-- The tokens can be read where `n` namespace blocks are open, and close all of them. -/
def Reads (endLine n : Nat) (tokens : List Token) : Prop :=
  ∀ blocks items, blocks.length = n → (readItems endLine blocks items tokens).isOk

theorem Reads.item {own : List Token} {i : Item} (ne_nil : own ≠ [])
    (read : readStatement endLine (own ++ rest) = .ok (.item i rest)) (h : Reads endLine n rest) :
    Reads endLine n (own ++ rest) := by
  intro blocks items length
  rw [readItems_item ne_nil read]
  exact h blocks _ length

theorem Reads.attribute (kind : t.kind = .attributeGroup) (h : Reads endLine n rest) :
    Reads endLine n (t :: rest) := by
  have dropped : (t :: rest).dropWhile isAttribute = rest.dropWhile isAttribute :=
    List.dropWhile_cons_of_pos (by simp [isAttribute, kind])
  have item (read : readStatement endLine ([t] ++ rest) = .ok (.item (.statement .other) rest)) :
      Reads endLine n ([t] ++ rest) := h.item (by simp) read
  cases rest with
  | nil => exact item (by rw [List.singleton_append, readStatement, dropped]; rfl)
  | cons u rest =>
    by_cases closes : u.kind = .closing .brace
    · refine item ?_
      rw [List.singleton_append, readStatement, dropped, List.dropWhile_cons_of_neg]
      · exact if_pos closes
      · simp [isAttribute, closes]
    · -- the statement behind the attribute group is read with it
      have read : readStatement endLine (t :: u :: rest) = readStatement endLine (u :: rest) := by
        rw [readStatement, readStatement, dropped]
      intro blocks items length
      rw [readItems_cons, if_neg (by simp [kind]), read]
      have onward := h blocks items length
      rwa [readItems_cons, if_neg closes] at onward

theorem Reads.semicolon (kind : t.kind = .semicolon) (h : Reads endLine n (t :: rest)) :
    Reads endLine n rest := by
  have read : readStatement endLine ([t] ++ rest) = .ok (.item (.statement .other) rest) := by
    have notName (text : String) : t.kind ≠ .name text := by simp [kind]
    refine readStatement_expression ?_ (not_beginsDeclaration notName) (not_beginsControl notName)
      (.ended .nil (.semicolon kind)) (by simp)
    rintro u ⟨⟩
    exact ⟨by simp [kind], fun text name ↦ (notName text name).elim⟩
  intro blocks items length
  have onward := h blocks items length
  rw [← List.singleton_append, readItems_item (by simp) read] at onward
  rwa [isOk_readItems_eq rfl] at onward

theorem Reads.delimited {own : List Token} (own_delimited : Delimited anyEnd own)
    (h : Reads endLine n rest) : Reads endLine n (own ++ rest) := by
  cases own_delimited with
  | attributeGroup kind => exact h.attribute kind
  | @declaration modifiers header body keyword nameToken word name kind modifiers_kind keyword_kind
      isKeyword_word nameToken_kind unqualified header_header body_group =>
    have skipped : skipTypeBody endLine name (header ++ body ++ rest) = .ok rest := by
      rw [List.append_assoc, skipTypeBody_header header_header, skipTypeBody_body body_group]
    have named : nameToken.kind.isName := by rw [nameToken_kind]; rfl
    have declared := readStatement_declared endLine (List.forall_mem_nil _) modifiers_kind
      keyword_kind isKeyword_word named (header ++ body ++ rest)
    have read := declared.trans (readType_name nameToken_kind unqualified skipped _ _)
    exact h.item (by simp) (by simpa using read)
  | header own_header => exact h.item own_header.ne_nil (readStatement_header own_header _)
  | @control head body colon last text text' head_head colon_kind within last_kind closes =>
    have read : readStatement endLine (head ++ colon :: (body ++ last :: rest)) =
        .ok (.item (.statement .other) (behindSemicolon rest)) := by
      rw [readStatement_head head_head, skipColon_cons colon_kind]
      dsimp only
      rw [skipControl_body within last_kind closes, skipControl_last last_kind closes]
      rfl
    cases semicolon : rest.head?.any (·.kind = .semicolon) with
    | false =>
      rw [behindSemicolon, semicolon, if_neg (by simp)] at read
      exact h.item (by simp) (by simpa using read)
    | true =>
      -- the block takes a `;` behind it as its own
      cases rest with
      | nil => cases semicolon
      | cons t rest =>
        have kind : t.kind = .semicolon := by simpa using semicolon
        rw [behindSemicolon, semicolon, if_pos rfl, List.tail_cons] at read
        rw [List.append_cons]
        exact (h.semicolon kind).item (by simp) (by simpa using read)

theorem Reads.statement {own : List Token} (first : Accepted.Statement anyEnd own rest)
    (h : Reads endLine n rest) : Reads endLine n (own ++ rest) := by
  cases first with
  | delimited own_delimited => exact h.delimited own_delimited
  | @condition head own _ text head_head noColon own_expression =>
    have read : readStatement endLine (head ++ (own ++ rest)) =
        .ok (.item (.statement .other) rest) := by
      rw [readStatement_head head_head, skipColon_eq_none noColon]
      dsimp only
      rw [skipExpression_expression own_expression]
      rfl
    refine h.item ?_ (by rwa [List.append_assoc])
    obtain ⟨-, -, -⟩ := head_head
    simp
  | expression begins notDeclaration notControl own_expression =>
    by_cases empty : own = []
    · rwa [empty, List.nil_append]
    · exact h.item empty
        (readStatement_expression begins notDeclaration notControl own_expression empty)
  | @halt keyword halts =>
    have read : readStatement endLine ([keyword] ++ []) = .ok (.item (.statement .other) []) := by
      obtain ⟨text, kind, isKeyword⟩ := Lexer.exists_of_isHalt halts
      rw [List.append_nil, ← List.nil_append [keyword], readStatement_attributes (by simp)
        (by simp [kind]) (by simp [kind]), readPlain, kind]
      dsimp only
      have notNamespace : Source.isKeyword text "namespace" = false :=
        not_isKeyword isKeyword (by decide)
      rw [if_neg (by simp [notNamespace]), if_pos isKeyword]
    exact h.item (by simp) read

/-- Accepted tokens can be read up to the end of their block. -/
theorem Reads.accepted (last : HaltsLast (tokens ++ rest)) (accepted : Accepted anyEnd tokens)
    (next : ∀ t ∈ rest.head?, t.kind = .closing .brace) (h : Reads endLine n rest) :
    Reads endLine n (tokens ++ rest) := by
  induction accepted generalizing n rest with
  | nil => exact h
  | @statement own inner first _ ih =>
    rw [List.append_assoc] at last ⊢
    refine Reads.statement ?_ (ih (last.suffix (List.suffix_append _ _)) next h)
    cases rest with
    | nil => rwa [List.append_nil]
    | cons closer after =>
      refine first.outside (next closer rfl) (fun t mem halts ↦ ?_) after
      obtain ⟨before, behind, rfl⟩ := List.append_of_mem mem
      have nothing := last before t (behind ++ (inner ++ closer :: after)) (by simp) halts
      simp at nothing
  | @block own inner others closer name line opens _ closes _ within outside =>
    simp only [List.append_assoc, List.cons_append] at last ⊢
    have behind := last.suffix (List.suffix_append _ _)
    have last : HaltsLast (others ++ rest) :=
      behind.suffix ((List.suffix_cons _ _).trans (List.suffix_append _ _))
    have after : Reads endLine n (others ++ rest) := outside last next h
    have left : Reads endLine (n + 1) (closer :: (others ++ rest)) := by
      rintro (- | ⟨block, blocks⟩) items length
      · cases length
      · rw [readItems_leave closes]
        exact after blocks _ (by simpa using length)
    have inside := within behind (by rintro _ ⟨⟩; exact closes) left
    intro blocks items length
    rw [readItems_enter opens.ne_nil (readStatement_block opens _)]
    exact inside _ _ (by simpa using length)

end Parser

/-- Tokens are read to statements when they are accepted, and only then. -/
theorem isOk_ofTokens_iff {stream : TokenStream} (last : Parser.HaltsLast stream.tokens) :
    (Statement.ofTokens stream).isOk ↔ Accepted Parser.anyEnd stream.tokens := by
  constructor
  · intro ok
    cases read : Parser.readItems stream.endLine [] [] stream.tokens with
    | error e => rw [Statement.ofTokens, read] at ok; cases ok
    | ok items => exact Parser.unwinds_of_readItems last read
  · intro accepted
    have nothing : Parser.Reads stream.endLine 0 [] := by
      rintro (- | ⟨block, blocks⟩) items length
      · rw [Parser.readItems]; rfl
      · cases length
    rw [← List.append_nil stream.tokens] at last
    have reads := nothing.accepted last accepted (by simp) [] [] rfl
    rw [List.append_nil] at reads
    rw [Statement.ofTokens]
    cases read : Parser.readItems stream.endLine [] [] stream.tokens with
    | error e => rw [read] at reads; cases reads
    | ok items => rfl

end ScriptCache.Source
