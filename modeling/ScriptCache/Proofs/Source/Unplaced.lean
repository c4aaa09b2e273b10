import ScriptCache.Proofs.Source.Equations
import ScriptCache.Source.Declaration

/-!
# Parsing without positions

Lines and offsets of tokens only get into the lines of statements and errors. `unplaced` sets
them to zero, and every part of the parser commutes with it.
-/

namespace ScriptCache.Source

def Token.unplaced (t : Token) : Token := ⟨t.kind, 0, 0⟩

@[simp] theorem Token.unplaced_kind (t : Token) : t.unplaced.kind = t.kind := rfl

/-- The result of a reader, with `f` for what it gives and without the position of its error. -/
def unplacedResult {α β : Type} (f : α → β) : Except ParseError α → Except ParseError β
  | .ok a => .ok (f a)
  | .error e => .error ⟨0, e.cause⟩

section

variable {α β γ δ : Type} {f : α → β}

@[simp] theorem unplacedResult_ok (f : α → β) (a : α) : unplacedResult f (.ok a) = .ok (f a) := rfl

theorem unplacedResult_bind {x : Except ParseError α} {next : α → Except ParseError γ}
    {next' : β → Except ParseError δ} {g : γ → δ}
    (h : ∀ a, x = .ok a → next' (f a) = unplacedResult g (next a)) :
    (unplacedResult f x).bind next' = unplacedResult g (x.bind next) := by
  cases x with
  | error => rfl
  | ok a => exact h a rfl

theorem unplacedResult_map {x : Except ParseError α} {next : α → γ} {next' : β → δ} {g : γ → δ}
    (h : ∀ a, next' (f a) = g (next a)) :
    (unplacedResult f x).map next' = unplacedResult g (x.map next) := by
  cases x with
  | error => rfl
  | ok a => exact congrArg Except.ok (h a)

end

namespace Parser

@[simp] theorem fail_unplaced {α β : Type} (f : α → β) (endLine : Nat) (tokens : List Token)
    (cause : Cause) :
    unplacedResult f (fail endLine tokens cause) = fail 0 (tokens.map Token.unplaced) cause := by
  cases tokens <;> rfl

theorem skipGroup_unplaced (endLine : Nat) (brackets : List Bracket) (tokens : List Token) :
    skipGroup 0 brackets (tokens.map Token.unplaced) =
      unplacedResult (List.map Token.unplaced) (skipGroup endLine brackets tokens) := by
  fun_induction skipGroup endLine brackets tokens with
  | case1 => rw [skipGroup, unplacedResult_ok]
  | case2 => rw [List.map_nil, skipGroup, fail_unplaced, List.map_nil]
  | case3 _ _ _ _ _ kind ih => rw [← ih, List.map_cons, skipGroup, Token.unplaced_kind, kind]
  | case4 _ _ _ _ kind ih => simp [skipGroup, kind, ih]
  | case5 _ _ _ _ _ kind other => simp [skipGroup, kind, other]
  | case6 _ _ _ _ _ _ ih =>
    rw [← ih, List.map_cons, skipGroup]
    split <;> simp_all

theorem skipExpression_unplaced (endLine depth : Nat) (tokens : List Token) :
    skipExpression 0 depth (tokens.map Token.unplaced) =
      unplacedResult (List.map Token.unplaced) (skipExpression endLine depth tokens) := by
  induction tokens using induction_behind generalizing depth with
  | nil =>
    rw [List.map_nil, skipExpression, skipExpression]
    split
    · rfl
    · rw [fail_unplaced, List.map_nil]
  | cons t rest ih =>
    rw [List.map_cons, skipExpression_cons, skipExpression_cons, Token.unplaced_kind]
    split
    · split
      · rfl
      · exact ih rest le_rfl depth
    · rw [skipGroup_unplaced endLine]
      refine unplacedResult_bind fun after skipped ↦ ?_
      split
      · rfl
      · exact ih after (length_skipGroup_le skipped) depth
    · split
      · rfl
      · rw [fail_unplaced, List.map_cons]
    · exact ih rest le_rfl (depth + 1)
    · split
      · rw [fail_unplaced, List.map_cons]
      · exact ih rest le_rfl (depth - 1)
    · exact ih rest le_rfl depth

theorem condition?_unplaced (tokens : List Token) :
    condition? (tokens.map Token.unplaced) = (condition? tokens).map (List.map Token.unplaced) := by
  cases tokens with
  | nil => rfl
  | cons t tokens =>
    rw [List.map_cons, condition?, condition?, Token.unplaced_kind]
    by_cases paren : t.kind = .opening .paren
    · rw [if_pos paren, if_pos paren]
      rfl
    · rw [if_neg paren, if_neg paren]
      rfl

theorem skipColon_unplaced (tokens : List Token) :
    skipColon (tokens.map Token.unplaced) = (skipColon tokens).map (List.map Token.unplaced) := by
  rcases tokens with _ | ⟨⟨kind, _, _⟩, tokens⟩
  · rfl
  · cases kind <;> rfl

theorem length_skipColon_le {tokens rest : List Token} (h : skipColon tokens = some rest) :
    rest.length ≤ tokens.length := by
  unfold skipColon at h
  split at h
  · cases h
    exact Nat.le_succ _
  · cases h

theorem skipControl_unplaced (endLine depth : Nat) (tokens : List Token) :
    skipControl 0 depth (tokens.map Token.unplaced) =
      unplacedResult (List.map Token.unplaced) (skipControl endLine depth tokens) := by
  induction tokens using induction_behind generalizing depth with
  | nil => rw [List.map_nil, skipControl, skipControl, fail_unplaced, List.map_nil]
  | cons t rest ih =>
    rw [List.map_cons, skipControl_cons, skipControl_cons, Token.unplaced_kind]
    split
    · split
      · split
        · cases rest with
          | nil => rfl
          | cons next rest =>
            by_cases semicolon : next.kind = .semicolon <;> simp [semicolon]
        · exact ih rest le_rfl _
      · split
        · rw [condition?_unplaced]
          cases condition : condition? rest with
          | none => exact ih rest le_rfl depth
          | some inner =>
            rw [Option.map_some]
            dsimp only
            rw [skipGroup_unplaced endLine]
            refine unplacedResult_bind fun after skipped ↦ ?_
            have shorter := (length_skipGroup_le skipped).trans (length_condition?_le condition)
            rw [skipColon_unplaced]
            cases colon : skipColon after with
            | none => exact ih after shorter depth
            | some body => exact ih body ((length_skipColon_le colon).trans shorter) (depth + 1)
        · exact ih rest le_rfl depth
    · rw [skipGroup_unplaced endLine]
      exact unplacedResult_bind fun after skipped ↦ ih after (length_skipGroup_le skipped) depth
    · rw [fail_unplaced, List.map_cons]
    · exact ih rest le_rfl depth

theorem skipStatement_unplaced (endLine : Nat) (t : Token) (rest : List Token) :
    skipStatement 0 t.unplaced (rest.map Token.unplaced) =
      unplacedResult (List.map Token.unplaced) (skipStatement endLine t rest) := by
  have expression := skipExpression_unplaced endLine 0 (t :: rest)
  rw [skipStatement_eq, skipStatement_eq, Token.unplaced_kind, condition?_unplaced]
  cases t.kind with
  | name text =>
    cases condition? rest with
    | none => exact expression
    | some inner =>
      rw [Option.map_some]
      dsimp only
      split
      · rw [skipGroup_unplaced endLine]
        refine unplacedResult_bind fun after skipped ↦ ?_
        rw [skipColon_unplaced]
        cases skipColon after with
        | none => exact skipExpression_unplaced endLine 0 after
        | some body => exact skipControl_unplaced endLine 0 body
      · exact expression
  | _ => exact expression

theorem declared?_unplaced (tokens : List Token) :
    declared? (tokens.map Token.unplaced) =
      (declared? tokens).map (Prod.map id (List.map Token.unplaced)) := by
  induction tokens with
  | nil => rfl
  | cons t rest ih =>
    obtain ⟨kind, line, offset⟩ := t
    cases kind with
    | name text =>
      rw [List.map_cons, Token.unplaced, declared?, declared?]
      split
      · exact ih
      · cases typeKeyword text <;> rfl
    | _ => rfl

theorem skipTypeBody_unplaced (endLine : Nat) (name : String) (tokens : List Token) :
    skipTypeBody 0 name (tokens.map Token.unplaced) =
      unplacedResult (List.map Token.unplaced) (skipTypeBody endLine name tokens) := by
  induction tokens using induction_behind with
  | nil => rw [List.map_nil, skipTypeBody, skipTypeBody, fail_unplaced, List.map_nil]
  | cons t rest ih =>
    rw [List.map_cons, skipTypeBody_cons, skipTypeBody_cons, Token.unplaced_kind]
    split
    · exact skipGroup_unplaced endLine _ rest
    · rw [skipGroup_unplaced endLine]
      exact unplacedResult_bind fun after skipped ↦ ih after (length_skipGroup_le skipped)
    · rw [fail_unplaced, List.map_cons]
    · rw [fail_unplaced, List.map_cons]
    · exact ih rest le_rfl

end Parser

namespace Statement

mutual

/-- The statement without the lines in it. -/
def unplaced : Statement → Statement
  | .namespaceBlock name _ body => .namespaceBlock name 0 (unplacedAll body)
  | .declaration kind name _ => .declaration kind name 0
  | .other => .other

def unplacedAll : List Statement → List Statement
  | [] => []
  | s :: statements => s.unplaced :: unplacedAll statements

end

theorem unplacedAll_append (first second : List Statement) :
    unplacedAll (first ++ second) = unplacedAll first ++ unplacedAll second := by
  induction first with
  | nil => rfl
  | cons s first ih => rw [List.cons_append, unplacedAll, unplacedAll, ih, List.cons_append]

mutual

theorem types_unplaced (enclosing : String) : (s : Statement) →
    types enclosing s.unplaced = types enclosing s
  | .namespaceBlock name _ body => by
    rw [unplaced, types, types, typesOfAll_unplaced _ body]
  | .declaration .. => rfl
  | .other => rfl

theorem typesOfAll_unplaced (enclosing : String) : (statements : List Statement) →
    typesOfAll enclosing (unplacedAll statements) = typesOfAll enclosing statements
  | [] => rfl
  | s :: statements => by
    rw [unplacedAll, typesOfAll, typesOfAll, types_unplaced _ s, typesOfAll_unplaced _ statements]

end

end Statement

def Item.unplaced : Item → Item
  | .header name _ => .header name 0
  | .statement s => .statement s.unplaced

theorem Statement.ofItems_unplaced (items : List Item) :
    ofItems (items.map Item.unplaced) = unplacedAll (ofItems items) := by
  have split (items : List Item) : splitItems (items.map Item.unplaced) =
      (unplacedAll (splitItems items).1, unplacedAll (splitItems items).2) := by
    induction items with
    | nil => rfl
    | cons i items ih =>
      rcases i with ⟨name, line⟩ | ⟨⟨name, line, body⟩ | ⟨kind, name, line⟩ | -⟩
      all_goals simp only [List.map_cons, Item.unplaced, unplaced, splitItems, ih, unplacedAll,
        unplacedAll_append]
  rw [ofItems, ofItems, split, unplacedAll_append]

namespace Parser

def Step.unplaced : Step → Step
  | .item i rest => .item i.unplaced (rest.map Token.unplaced)
  | .enter name _ rest => .enter name 0 (rest.map Token.unplaced)

theorem readNamespace_unplaced (endLine line : Nat) (tokens : List Token) :
    readNamespace 0 0 (tokens.map Token.unplaced) =
      unplacedResult Step.unplaced (readNamespace endLine line tokens) := by
  rcases tokens with _ | ⟨⟨kind, _, _⟩, rest⟩
  · rfl
  cases kind with
  | name text =>
    rcases rest with _ | ⟨⟨kind, _, _⟩, rest⟩
    · rfl
    cases kind with
    | opening b => cases b <;> rfl
    | _ => rfl
  | opening b => cases b <;> rfl
  | _ => rfl

theorem readType_unplaced (endLine line : Nat) (kind : TypeKind) (tokens : List Token) :
    readType 0 0 kind (tokens.map Token.unplaced) =
      unplacedResult Step.unplaced (readType endLine line kind tokens) := by
  rcases tokens with _ | ⟨⟨head, _, _⟩, rest⟩
  · rfl
  cases head with
  | name name =>
    rw [List.map_cons, Token.unplaced, readType, readType]
    split
    · rfl
    · rw [skipTypeBody_unplaced endLine]
      exact unplacedResult_map fun _ ↦ rfl
  | _ => rfl

theorem readOther_unplaced (endLine : Nat) (t : Token) (rest : List Token) :
    readOther 0 t.unplaced (rest.map Token.unplaced) =
      unplacedResult Step.unplaced (readOther endLine t rest) := by
  rw [readOther, readOther, skipStatement_unplaced endLine]
  exact unplacedResult_map fun _ ↦ rfl

theorem readPlain_unplaced (endLine : Nat) (t : Token) (rest : List Token) :
    readPlain 0 t.unplaced (rest.map Token.unplaced) =
      unplacedResult Step.unplaced (readPlain endLine t rest) := by
  have other := readOther_unplaced endLine t rest
  have next : (rest.map Token.unplaced).head?.any (·.kind.isName) =
      rest.head?.any (·.kind.isName) := by
    cases rest <;> rfl
  have declared := declared?_unplaced (t :: rest)
  rw [List.map_cons] at declared
  rw [readPlain, readPlain, Token.unplaced_kind, next, declared]
  split
  · split
    · exact readNamespace_unplaced ..
    split
    · rfl
    split
    · exact other
    cases declared? (t :: rest) with
    | none => exact other
    | some result => exact readType_unplaced ..
  · exact other

theorem readStatement_unplaced (endLine : Nat) (tokens : List Token) :
    readStatement 0 (tokens.map Token.unplaced) =
      unplacedResult Step.unplaced (readStatement endLine tokens) := by
  have attributes : (tokens.map Token.unplaced).dropWhile isAttribute =
      (tokens.dropWhile isAttribute).map Token.unplaced := by
    rw [List.dropWhile_map]
    rfl
  rw [readStatement, readStatement, attributes]
  cases tokens.dropWhile isAttribute with
  | nil => rfl
  | cons t rest =>
    have plain := readPlain_unplaced endLine t rest
    rw [List.map_cons]
    dsimp only
    by_cases closes : t.kind = .closing .brace
    · rw [if_pos (show t.unplaced.kind = _ from closes), if_pos closes]
      rfl
    · rw [if_neg (show ¬ t.unplaced.kind = _ from closes), if_neg closes]
      exact plain

def OpenBlock.unplaced (block : OpenBlock) : OpenBlock :=
  ⟨block.name, 0, block.before.map Item.unplaced⟩

theorem readItems_unplaced (endLine : Nat) (blocks : List OpenBlock) (items : List Item)
    (tokens : List Token) :
    readItems 0 (blocks.map OpenBlock.unplaced) (items.map Item.unplaced)
        (tokens.map Token.unplaced) =
      unplacedResult (List.map Item.unplaced) (readItems endLine blocks items tokens) := by
  induction tokens using induction_behind generalizing blocks items with
  | nil =>
    rw [List.map_nil, readItems, readItems]
    cases blocks with
    | nil => simp
    | cons => rfl
  | cons t rest ih =>
    have statement := readStatement_unplaced endLine (t :: rest)
    rw [List.map_cons] at statement
    rw [List.map_cons, readItems_cons, readItems_cons, Token.unplaced_kind]
    split
    · cases blocks with
      | nil => rfl
      | cons block outer =>
        have body := Statement.ofItems_unplaced items.reverse
        rw [List.map_reverse] at body
        have onward := ih rest le_rfl outer
          (.statement (.namespaceBlock block.name block.line (Statement.ofItems items.reverse)) ::
            block.before)
        simp only [List.map_cons, Item.unplaced, Statement.unplaced, ← body] at onward
        exact onward
    · rename_i stays
      rw [statement]
      refine unplacedResult_bind fun step read ↦ ?_
      have shorter := Nat.le_of_lt_succ (length_readStatement_lt stays read)
      cases step with
      | item i after => exact ih after shorter blocks (i :: items)
      | enter name line after => exact ih after shorter (⟨name, line, items⟩ :: blocks) []

end Parser

/-- The statements of tokens depend on their kinds alone, the lines in them apart. -/
theorem Statement.ofTokens_unplaced (stream : TokenStream) :
    Statement.ofTokens ⟨stream.tokens.map Token.unplaced, 0⟩ =
      unplacedResult Statement.unplacedAll (Statement.ofTokens stream) := by
  have items := Parser.readItems_unplaced stream.endLine [] [] stream.tokens
  rw [Statement.ofTokens, Statement.ofTokens]
  simp only [List.map_nil] at items
  rw [items]
  exact unplacedResult_map Statement.ofItems_unplaced

/-- Tokens of the same kinds declare the same types, or are both refused. -/
theorem declaredTypes_ofTokens {stream stream' : TokenStream}
    (same : stream'.tokens.map (·.kind) = stream.tokens.map (·.kind)) :
    (Statement.ofTokens stream').toOption.map declaredTypes =
      (Statement.ofTokens stream).toOption.map declaredTypes := by
  have strip (stream : TokenStream) : (Statement.ofTokens stream).toOption.map declaredTypes =
      (Statement.ofTokens ⟨stream.tokens.map Token.unplaced, 0⟩).toOption.map declaredTypes := by
    rw [Statement.ofTokens_unplaced]
    cases Statement.ofTokens stream with
    | error => rfl
    | ok statements => exact congrArg some (Statement.typesOfAll_unplaced "" statements).symm
  have kinds (tokens : List Token) :
      tokens.map Token.unplaced = (tokens.map (·.kind)).map (⟨·, 0, 0⟩) := by
    rw [List.map_map]
    rfl
  rw [strip stream, strip stream', kinds, kinds, same]

end ScriptCache.Source
