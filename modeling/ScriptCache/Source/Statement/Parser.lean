import ScriptCache.Source.Statement
import ScriptCache.Source.Token.Lexer

/-!
# From tokens to statements

`readStatement` reads one statement and leaves the tokens after it. Bodies of types, functions
and control blocks are skipped as balanced groups and never looked into. `readItems` repeats it,
with a stack of the namespace blocks that are open; a statement always takes a token, so it ends.
-/

namespace ScriptCache.Source

namespace Parser

/-- The line of the token ahead, or of the end of the source. -/
def lineAhead (endLine : Nat) : List Token → Nat
  | [] => endLine
  | t :: _ => t.line

def fail {α : Type} (endLine : Nat) (ahead : List Token) (cause : Cause) : Except ParseError α :=
  .error ⟨lineAhead endLine ahead, cause⟩

def controlKeywords : List String := ["if", "while", "for", "foreach", "switch", "declare"]

def isModifier (name : String) : Bool :=
  ["abstract", "final", "readonly"].any (isKeyword name)

/-- Control keywords, whose block may open with `:` after a condition. -/
def opensControl (name : String) : Bool := controlKeywords.any (isKeyword name)

def closesControl (name : String) : Bool :=
  controlKeywords.any fun keyword ↦ isKeyword name ("end" ++ keyword)

def typeKeyword (name : String) : Option TypeKind :=
  TypeKind.all.find? fun kind ↦ isKeyword name kind.keyword

/-- Skips to just after the bracket that closes the last of `brackets`. -/
def skipGroup (endLine : Nat) : List Bracket → List Token → Except ParseError (List Token)
  | [], tokens => .ok tokens
  | _ :: _, [] => fail endLine [] .unclosedBlock
  | bracket :: brackets, t :: tokens =>
    match t.kind with
    | .opening inner => skipGroup endLine (inner :: bracket :: brackets) tokens
    | .closing b =>
      if b = bracket then skipGroup endLine brackets tokens
      else fail endLine (t :: tokens) .mismatchedDelimiter
    | _ => skipGroup endLine (bracket :: brackets) tokens

theorem length_skipGroup_le {endLine : Nat} {brackets : List Bracket} {tokens rest : List Token}
    (h : skipGroup endLine brackets tokens = .ok rest) : rest.length ≤ tokens.length := by
  fun_induction skipGroup endLine brackets tokens with
  | case1 => cases h; exact Nat.le_refl _
  | case2 | case5 => cases h
  | _ => rename_i ih; exact Nat.le_succ_of_le (ih h)

/-- Skips an expression up to its end: just after a `;` or a brace group outside parentheses and
square brackets, or just before a `}` there. `depth` counts the open brackets. -/
def skipExpression (endLine depth : Nat) (tokens : List Token) : Except ParseError (List Token) :=
  match tokens with
  | [] => if depth = 0 then .ok [] else fail endLine [] .endInsideExpression
  | t :: rest =>
    match t.kind with
    | .semicolon => if depth = 0 then .ok rest else skipExpression endLine depth rest
    | .opening .brace =>
      match _group : skipGroup endLine [.brace] rest with
      | .error e => .error e
      | .ok after => if depth = 0 then .ok after else skipExpression endLine depth after
    | .closing .brace =>
      if depth = 0 then .ok (t :: rest) else fail endLine (t :: rest) .braceInsideExpression
    | .opening _ => skipExpression endLine (depth + 1) rest
    | .closing _ =>
      if depth = 0 then fail endLine (t :: rest) .unmatchedBracket
      else skipExpression endLine (depth - 1) rest
    | _ => skipExpression endLine depth rest
termination_by tokens.length
decreasing_by
  all_goals simp_wf
  have := length_skipGroup_le _group
  omega

/-- A condition ahead: the tokens after its opening parenthesis. -/
def condition? : List Token → Option (List Token)
  | t :: rest => if t.kind = .opening .paren then some rest else none
  | [] => none

theorem length_condition?_le {tokens rest : List Token} (h : condition? tokens = some rest) :
    rest.length ≤ tokens.length := by
  cases tokens with
  | nil => cases h
  | cons t tokens =>
    simp only [condition?] at h
    split at h <;> cases h
    exact Nat.le_succ _

/-- Skips the body of a block that an `end` keyword closes, with the keyword and one `;` after
it. `depth` counts the open blocks of this form, less one. -/
def skipControl (endLine depth : Nat) (tokens : List Token) : Except ParseError (List Token) :=
  match tokens with
  | [] => fail endLine [] .unclosedControlBlock
  | t :: rest =>
    match t.kind with
    | .name text =>
      if closesControl text then
        match depth with
        | 0 => .ok (if rest.head?.any (·.kind = .semicolon) then rest.tail else rest)
        | depth + 1 => skipControl endLine depth rest
      else if opensControl text then
        match _condition : condition? rest with
        | none => skipControl endLine depth rest
        | some inner =>
          match _group : skipGroup endLine [.paren] inner with
          | .error e => .error e
          | .ok (⟨.colon, _, _⟩ :: after) => skipControl endLine (depth + 1) after
          | .ok after => skipControl endLine depth after
      else skipControl endLine depth rest
    | .opening b =>
      match _group : skipGroup endLine [b] rest with
      | .error e => .error e
      | .ok after => skipControl endLine depth after
    | .closing _ => fail endLine (t :: rest) .closingInControlBlock
    | _ => skipControl endLine depth rest
termination_by tokens.length
decreasing_by
  all_goals simp_wf
  · have := length_skipGroup_le _group
    have := length_condition?_le _condition
    simp only [List.length_cons] at *
    omega
  · have := length_skipGroup_le _group
    have := length_condition?_le _condition
    omega
  · have := length_skipGroup_le _group
    omega

theorem length_skipExpression_le {endLine depth : Nat} {tokens rest : List Token}
    (h : skipExpression endLine depth tokens = .ok rest) : rest.length ≤ tokens.length := by
  fun_induction skipExpression endLine depth tokens with
  | case1 | case8 => cases h; exact Nat.le_refl _
  | case2 | case5 | case9 | case11 => cases h
  | case3 => cases h; exact Nat.le_succ _
  | case6 => cases h; exact Nat.le_succ_of_le (length_skipGroup_le ‹_›)
  | case7 =>
    rename_i group _ ih
    exact Nat.le_succ_of_le (Nat.le_trans (ih h) (length_skipGroup_le group))
  | _ => rename_i ih; exact Nat.le_succ_of_le (ih h)

/-- A statement takes the token at its head. -/
theorem length_skipExpression_cons_le {endLine depth : Nat} {t : Token} {tokens rest : List Token}
    (ht : t.kind ≠ .closing .brace) (h : skipExpression endLine depth (t :: tokens) = .ok rest) :
    rest.length ≤ tokens.length := by
  unfold skipExpression at h
  split at h
  · split at h
    · cases h; exact Nat.le_refl _
    · exact length_skipExpression_le h
  · split at h
    · cases h
    · rename_i group
      split at h
      · cases h; exact length_skipGroup_le group
      · exact Nat.le_trans (length_skipExpression_le h) (length_skipGroup_le group)
  · contradiction
  · exact length_skipExpression_le h
  · split at h
    · cases h
    · exact length_skipExpression_le h
  · exact length_skipExpression_le h

theorem length_skipControl_le {endLine depth : Nat} {tokens rest : List Token}
    (h : skipControl endLine depth tokens = .ok rest) : rest.length ≤ tokens.length := by
  fun_induction skipControl endLine depth tokens with
  | case1 | case5 | case9 | case11 => cases h
  | case2 =>
    cases h
    split
    · exact Nat.le_succ_of_le (by simp)
    · exact Nat.le_succ _
  | case6 =>
    rename_i condition _ _ _ group ih
    exact Nat.le_succ_of_le <| Nat.le_trans (ih h) <| Nat.le_of_succ_le <|
      Nat.le_trans (length_skipGroup_le group) (length_condition?_le condition)
  | case7 =>
    rename_i condition _ _ group ih
    exact Nat.le_succ_of_le <| Nat.le_trans (ih h) <|
      Nat.le_trans (length_skipGroup_le group) (length_condition?_le condition)
  | case10 =>
    rename_i group ih
    exact Nat.le_succ_of_le (Nat.le_trans (ih h) (length_skipGroup_le group))
  | _ => rename_i ih; exact Nat.le_succ_of_le (ih h)

/-- Skips a statement that declares nothing: a control block, or an expression. -/
def skipStatement (endLine : Nat) (t : Token) (rest : List Token) :
    Except ParseError (List Token) :=
  match t.kind, condition? rest with
  | .name text, some inner =>
    if opensControl text then
      match skipGroup endLine [.paren] inner with
      | .error e => .error e
      | .ok (⟨.colon, _, _⟩ :: after) => skipControl endLine 0 after
      | .ok after => skipExpression endLine 0 after
    else skipExpression endLine 0 (t :: rest)
  | _, _ => skipExpression endLine 0 (t :: rest)

theorem length_skipStatement_le {endLine : Nat} {t : Token} {tokens rest : List Token}
    (ht : t.kind ≠ .closing .brace) (h : skipStatement endLine t tokens = .ok rest) :
    rest.length ≤ tokens.length := by
  unfold skipStatement at h
  split at h
  · rename_i condition
    split at h
    · split at h
      · cases h
      · rename_i group
        exact Nat.le_trans (length_skipControl_le h) <| Nat.le_of_succ_le <|
          Nat.le_trans (length_skipGroup_le group) (length_condition?_le condition)
      · rename_i group
        exact Nat.le_trans (length_skipExpression_le h) <|
          Nat.le_trans (length_skipGroup_le group) (length_condition?_le condition)
    · exact length_skipExpression_cons_le ht h
  · exact length_skipExpression_cons_le ht h

/-- The kind declared by the keyword at the head, behind any modifiers, and the tokens after the
keyword. -/
def declared? : List Token → Option (TypeKind × List Token)
  | ⟨.name text, _, _⟩ :: rest =>
    if isModifier text then declared? rest else (typeKeyword text).map (·, rest)
  | _ => none

/-- Skips what stands between the name of a type and its body, and the body. -/
def skipTypeBody (endLine : Nat) (name : String) (tokens : List Token) :
    Except ParseError (List Token) :=
  match tokens with
  | [] => fail endLine [] (.missingTypeBody name)
  | t :: rest =>
    match t.kind with
    | .opening .brace => skipGroup endLine [.brace] rest
    | .opening b =>
      match _group : skipGroup endLine [b] rest with
      | .error e => .error e
      | .ok after => skipTypeBody endLine name after
    | .semicolon | .closing .brace => fail endLine (t :: rest) (.missingTypeBody name)
    | _ => skipTypeBody endLine name rest
termination_by tokens.length
decreasing_by
  all_goals simp_wf
  have := length_skipGroup_le _group
  omega

theorem length_skipTypeBody_le {endLine : Nat} {name : String} {tokens rest : List Token}
    (h : skipTypeBody endLine name tokens = .ok rest) : rest.length ≤ tokens.length := by
  fun_induction skipTypeBody endLine name tokens with
  | case1 | case3 | case5 | case6 => cases h
  | case2 => exact Nat.le_succ_of_le (length_skipGroup_le h)
  | case4 =>
    rename_i group ih
    exact Nat.le_succ_of_le (Nat.le_trans (ih h) (length_skipGroup_le group))
  | _ => rename_i ih; exact Nat.le_succ_of_le (ih h)

theorem length_declared?_le {tokens rest : List Token} {kind : TypeKind}
    (h : declared? tokens = some (kind, rest)) : rest.length < tokens.length := by
  fun_induction declared? tokens with
  | case1 _ _ _ _ _ ih => exact Nat.lt_succ_of_lt (ih h)
  | case2 =>
    obtain ⟨_, _, e⟩ := Option.map_eq_some_iff.mp h
    cases e
    exact Nat.lt_succ_self _
  | case3 => cases h

/-- What the statement at the head of the tokens is, and the tokens after it. -/
inductive Step where
  | item (i : Item) (rest : List Token)
  /-- A namespace block opens; its statements are next. -/
  | enter (name : Option String) (line : Nat) (rest : List Token)

def Step.rest : Step → List Token
  | .item _ rest => rest
  | .enter _ _ rest => rest

/-- The namespace whose keyword is on line `line`. -/
def readNamespace (endLine line : Nat) : List Token → Except ParseError Step
  | ⟨.name text, _, _⟩ :: rest =>
    let name := String.ofList (text.toList.dropWhile (· = '\\'))
    match rest with
    | ⟨.semicolon, _, _⟩ :: rest => .ok (.item (.header name line) rest)
    | ⟨.opening .brace, _, _⟩ :: rest => .ok (.enter (some name) line rest)
    | rest => fail endLine rest .afterNamespaceName
  | ⟨.opening .brace, _, _⟩ :: rest => .ok (.enter none line rest)
  | rest => fail endLine rest .missingNamespaceName

/-- The type declaration whose keyword stands just before the tokens. -/
def readType (endLine line : Nat) (kind : TypeKind) : List Token → Except ParseError Step
  | ⟨.name name, l, o⟩ :: rest =>
    if name.contains '\\' then fail endLine (⟨.name name, l, o⟩ :: rest) (.missingTypeName kind)
    else (skipTypeBody endLine name rest).map (.item (.statement (.declaration kind name line)))
  | rest => fail endLine rest (.missingTypeName kind)

def readOther (endLine : Nat) (t : Token) (rest : List Token) : Except ParseError Step :=
  (skipStatement endLine t rest).map (.item (.statement .other))

def isAttribute (t : Token) : Bool := t.kind = .attributeGroup

/-- The statement that starts with the token `t`, which is no attribute group. `enum` is a
keyword only in front of a name; behind a modifier it always is. -/
def readPlain (endLine : Nat) (t : Token) (rest : List Token) : Except ParseError Step :=
  match t.kind with
  | .name text =>
    if isKeyword text "namespace" then readNamespace endLine t.line rest
    else if isKeyword text "__halt_compiler" then .ok (.item (.statement .other) [])
    else if isKeyword text "enum" && !rest.head?.any (·.kind.isName) then readOther endLine t rest
    else
      match declared? (t :: rest) with
      | some (kind, rest) => readType endLine t.line kind rest
      | none => readOther endLine t rest
  | _ => readOther endLine t rest

/-- The statement at the head of the tokens, with the attribute groups in front of it. Attribute
groups with no statement after them are a statement of their own. -/
def readStatement (endLine : Nat) (tokens : List Token) : Except ParseError Step :=
  match tokens.dropWhile isAttribute with
  | [] => .ok (.item (.statement .other) [])
  | t :: rest =>
    if t.kind = .closing .brace then .ok (.item (.statement .other) (t :: rest))
    else readPlain endLine t rest

theorem length_readNamespace_le {endLine line : Nat} {tokens : List Token} {step : Step}
    (h : readNamespace endLine line tokens = .ok step) : step.rest.length ≤ tokens.length := by
  unfold readNamespace at h
  split at h
  · simp only at h
    split at h <;> cases h <;> simp only [Step.rest, List.length_cons] <;> omega
  · cases h; exact Nat.le_succ _
  · cases h

theorem length_readOther_le {endLine : Nat} {t : Token} {tokens : List Token} {step : Step}
    (ht : t.kind ≠ .closing .brace) (h : readOther endLine t tokens = .ok step) :
    step.rest.length ≤ tokens.length := by
  obtain ⟨_, skipped, e⟩ := Lexer.eq_ok_of_map_eq_ok h
  cases e
  exact length_skipStatement_le ht skipped

theorem length_readType_le {endLine line : Nat} {kind : TypeKind} {tokens : List Token}
    {step : Step} (h : readType endLine line kind tokens = .ok step) :
    step.rest.length ≤ tokens.length := by
  unfold readType at h
  split at h
  · split at h
    · cases h
    · obtain ⟨_, skipped, e⟩ := Lexer.eq_ok_of_map_eq_ok h
      cases e
      exact Nat.le_succ_of_le (length_skipTypeBody_le skipped)
  · cases h

theorem length_readPlain_le {endLine : Nat} {t : Token} {tokens : List Token} {step : Step}
    (ht : t.kind ≠ .closing .brace) (h : readPlain endLine t tokens = .ok step) :
    step.rest.length ≤ tokens.length := by
  unfold readPlain at h
  split at h
  · split at h
    · exact length_readNamespace_le h
    split at h
    · cases h; exact Nat.zero_le _
    split at h
    · exact length_readOther_le ht h
    split at h
    · rename_i declared
      exact Nat.le_trans (length_readType_le h) (Nat.le_of_lt_succ (length_declared?_le declared))
    · exact length_readOther_le ht h
  · exact length_readOther_le ht h

/-- Every statement takes a token, unless a block ends at the head. -/
theorem length_readStatement_lt {endLine : Nat} {t : Token} {tokens : List Token} {step : Step}
    (ht : t.kind ≠ .closing .brace) (h : readStatement endLine (t :: tokens) = .ok step) :
    step.rest.length < (t :: tokens).length := by
  have dropped := (List.dropWhile_sublist isAttribute (l := t :: tokens)).length_le
  unfold readStatement at h
  split at h
  · cases h; exact Nat.succ_pos _
  · rename_i first rest ahead
    rw [ahead] at dropped
    split at h
    · cases h
      by_cases group : isAttribute t
      · rw [List.dropWhile_cons_of_pos group] at ahead
        rw [Step.rest, ← ahead]
        exact Nat.lt_succ_of_le (List.dropWhile_sublist _).length_le
      · rw [List.dropWhile_cons_of_neg group] at ahead
        cases ahead
        contradiction
    · exact Nat.lt_of_le_of_lt (length_readPlain_le ‹_› h) dropped

/-- A namespace block that is open: its head, and the items in front of it, the last one first. -/
structure OpenBlock where
  name : Option String
  line : Nat
  before : List Item

/-- Reads items to the end of the source. `blocks` are the open namespace blocks, the innermost
first, and `items` the items read in that block, the last one first. -/
def readItems (endLine : Nat) (blocks : List OpenBlock) (items : List Item)
    (tokens : List Token) : Except ParseError (List Item) :=
  match tokens with
  | [] => if blocks.isEmpty then .ok items.reverse else fail endLine [] .unclosedNamespace
  | t :: rest =>
    if t.kind = .closing .brace then
      match blocks with
      | [] => fail endLine (t :: rest) .unmatchedBrace
      | block :: outer =>
        let body := Statement.ofItems items.reverse
        readItems endLine outer
          (.statement (.namespaceBlock block.name block.line body) :: block.before) rest
    else
      match _step : readStatement endLine (t :: rest) with
      | .error e => .error e
      | .ok (.item i after) => readItems endLine blocks (i :: items) after
      | .ok (.enter name line after) => readItems endLine (⟨name, line, items⟩ :: blocks) [] after
termination_by tokens.length
decreasing_by
  · exact Nat.lt_succ_self _
  · exact length_readStatement_lt ‹_› _step
  · exact length_readStatement_lt ‹_› _step

end Parser

/-- The statements of a token stream. -/
def Statement.ofTokens (stream : TokenStream) : Except ParseError (List Statement) :=
  (Parser.readItems stream.endLine [] [] stream.tokens).map Statement.ofItems

/-- The statements of a source. -/
def Statement.ofSource (source : List UInt8) : Except ParseError (List Statement) := do
  Statement.ofTokens (← TokenStream.ofSource source)

end ScriptCache.Source
