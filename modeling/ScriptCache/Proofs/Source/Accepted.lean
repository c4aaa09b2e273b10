import ScriptCache.Proofs.Source.Document

/-!
# The grammar of what is accepted

A parsed source is a list of statements, and brackets in it are nested with two exceptions. In an
expression, parentheses and square brackets outside of braces close each other (`Crossed`), and
between the name of a type and its body closing ones may stand alone (`TypeHeader`). A block that
opens with `:` ends at an `end` keyword; `ends` says which keyword ends a block by the one that
opened it. Braces close each other in all of these.
-/

namespace ScriptCache.Source

/-- The inside of brackets in an expression. -/
inductive Crossed : List Token → Prop where
  | nil : Crossed []
  | token {t : Token} {tokens : List Token} (plain : t.kind.isBracket = false)
      (rest : Crossed tokens) : Crossed (t :: tokens)
  | block {group tokens : List Token} (body : Group .brace group) (rest : Crossed tokens) :
      Crossed (group ++ tokens)
  | pair {opener closer : Token} {b b' : Bracket} {inner tokens : List Token}
      (opens : opener.kind = .opening b) (round : b ≠ .brace) (body : Crossed inner)
      (closes : closer.kind = .closing b') (round' : b' ≠ .brace) (rest : Crossed tokens) :
      Crossed (opener :: inner ++ closer :: tokens)

/-- The part of an expression that no brace and no `;` ends. -/
inductive CrossedRun : List Token → Prop where
  | nil : CrossedRun []
  | token {t : Token} {tokens : List Token} (plain : t.kind.isBracket = false)
      (unending : t.kind ≠ .semicolon) (rest : CrossedRun tokens) : CrossedRun (t :: tokens)
  | pair {opener closer : Token} {b b' : Bracket} {inner tokens : List Token}
      (opens : opener.kind = .opening b) (round : b ≠ .brace) (body : Crossed inner)
      (closes : closer.kind = .closing b') (round' : b' ≠ .brace) (rest : CrossedRun tokens) :
      CrossedRun (opener :: inner ++ closer :: tokens)

/-- An expression in front of other tokens. Where a block or the source ends, nothing else has to
end it. -/
inductive Expression : List Token → List Token → Prop where
  | ended {run ending rest : List Token} (run_run : CrossedRun run)
      (ending_ending : Ending ending) : Expression (run ++ ending) rest
  | cut {run rest : List Token} (run_run : CrossedRun run)
      (next : ∀ t ∈ rest.head?, t.kind = .closing .brace) : Expression run rest

/-- What stands between the name of a type and its body. -/
inductive TypeHeader : List Token → Prop where
  | nil : TypeHeader []
  | token {t : Token} {tokens : List Token} (plain : t.kind.isBracket = false)
      (unending : t.kind ≠ .semicolon) (rest : TypeHeader tokens) : TypeHeader (t :: tokens)
  | group {b : Bracket} {group tokens : List Token} (round : b ≠ .brace) (body : Group b group)
      (rest : TypeHeader tokens) : TypeHeader (group ++ tokens)
  | stray {t : Token} {b : Bracket} {tokens : List Token} (closes : t.kind = .closing b)
      (round : b ≠ .brace) (rest : TypeHeader tokens) : TypeHeader (t :: tokens)

/-- A control keyword and its condition. -/
inductive ControlHead : List Token → String → Prop where
  | mk {keyword : Token} {text : String} {condition : List Token}
      (keyword_kind : keyword.kind = .name text) (opens : Parser.opensControl text)
      (condition_group : Group .paren condition) : ControlHead (keyword :: condition) text

/-- The tokens begin with a control keyword and a parenthesis. -/
inductive BeginsControl : List Token → Prop where
  | mk {keyword opener : Token} {text : String} {rest : List Token}
      (keyword_kind : keyword.kind = .name text) (opens : Parser.opensControl text)
      (opener_kind : opener.kind = .opening .paren) : BeginsControl (keyword :: opener :: rest)

/-- The body of a block that opens with `:`. -/
inductive ControlBody (ends : String → String → Prop) : List Token → Prop where
  | nil : ControlBody ends []
  | token {t : Token} {tokens : List Token} (plain : t.kind.isBracket = false)
      (notClosing : ∀ text, t.kind = .name text → ¬Parser.closesControl text)
      (notControl : ¬BeginsControl (t :: tokens)) (rest : ControlBody ends tokens) :
      ControlBody ends (t :: tokens)
  | group {b : Bracket} {group tokens : List Token} (body : Group b group)
      (rest : ControlBody ends tokens) : ControlBody ends (group ++ tokens)
  | condition {head tokens : List Token} {text : String} (head_head : ControlHead head text)
      (noColon : ∀ t ∈ tokens.head?, t.kind ≠ .colon) (rest : ControlBody ends tokens) :
      ControlBody ends (head ++ tokens)
  | block {head inner tokens : List Token} {colon last : Token} {text text' : String}
      (head_head : ControlHead head text) (colon_kind : colon.kind = .colon)
      (within : ControlBody ends inner) (last_kind : last.kind = .name text')
      (closes : ends text text') (rest : ControlBody ends tokens) :
      ControlBody ends (head ++ colon :: (inner ++ last :: tokens))

/-- The tokens begin with the keyword of a type, behind modifiers. `enum` alone is a keyword in
front of a name only. -/
inductive BeginsDeclaration : List Token → Prop where
  | mk {modifiers rest : List Token} {keyword : Token} {word : String} {kind : TypeKind}
      (modifiers_kind : ∀ t ∈ modifiers, ∃ text, t.kind = .name text ∧ Parser.isModifier text)
      (keyword_kind : keyword.kind = .name word) (isKeyword_word : isKeyword word kind.keyword)
      (named : modifiers = [] → kind = .enumType → rest.head?.any (·.kind.isName)) :
      BeginsDeclaration (modifiers ++ keyword :: rest)

/-- The token is neither an attribute group nor the keyword of a namespace or of the end of the
script. -/
def Token.Unreserved (t : Token) : Prop :=
  t.kind ≠ .attributeGroup ∧ ∀ text, t.kind = .name text →
    ¬isKeyword text "namespace" ∧ ¬isKeyword text "__halt_compiler"

/-- A statement that its own last token ends, or an attribute group. -/
inductive Delimited (ends : String → String → Prop) : List Token → Prop where
  | attributeGroup {t : Token} (kind : t.kind = .attributeGroup) : Delimited ends [t]
  | declaration {modifiers header body : List Token} {keyword nameToken : Token}
      {word name : String} {kind : TypeKind}
      (modifiers_kind : ∀ t ∈ modifiers, ∃ text, t.kind = .name text ∧ Parser.isModifier text)
      (keyword_kind : keyword.kind = .name word) (isKeyword_word : isKeyword word kind.keyword)
      (nameToken_kind : nameToken.kind = .name name) (unqualified : '\\' ∉ name.toList)
      (header_header : TypeHeader header) (body_group : Group .brace body) :
      Delimited ends (modifiers ++ keyword :: nameToken :: (header ++ body))
  | header {own : List Token} {name : String} {line : Nat}
      (own_header : HeaderTokens own name line) : Delimited ends own
  | control {head body : List Token} {colon last : Token} {text text' : String}
      (head_head : ControlHead head text) (colon_kind : colon.kind = .colon)
      (within : ControlBody ends body) (last_kind : last.kind = .name text')
      (closes : ends text text') : Delimited ends (head ++ colon :: (body ++ [last]))

/-- A statement in front of other tokens. Namespace blocks are no statements of their own here:
`Accepted` nests them. -/
inductive Accepted.Statement (ends : String → String → Prop) : List Token → List Token → Prop where
  | delimited {own rest : List Token} (own_delimited : Delimited ends own) : Statement ends own rest
  | condition {head own rest : List Token} {text : String} (head_head : ControlHead head text)
      (noColon : ∀ t ∈ (own ++ rest).head?, t.kind ≠ .colon)
      (own_expression : Expression own rest) : Statement ends (head ++ own) rest
  | expression {own rest : List Token} (begins : ∀ t ∈ (own ++ rest).head?, t.Unreserved)
      (notDeclaration : ¬BeginsDeclaration (own ++ rest))
      (notControl : ¬BeginsControl (own ++ rest)) (own_expression : Expression own rest) : Statement ends own rest
  | halt {keyword : Token} (halts : Lexer.isHalt keyword.kind) : Statement ends [keyword] []

/-- The tokens of a source that parses. -/
inductive Accepted (ends : String → String → Prop) : List Token → Prop where
  | nil : Accepted ends []
  | statement {own rest : List Token} (first : Accepted.Statement ends own rest)
      (others : Accepted ends rest) : Accepted ends (own ++ rest)
  | block {own inner rest : List Token} {closer : Token} {name : Option String} {line : Nat}
      (opens : BlockTokens own name line) (within : Accepted ends inner)
      (closes : closer.kind = .closing .brace) (others : Accepted ends rest) :
      Accepted ends (own ++ (inner ++ closer :: rest))

variable {tokens first second : List Token} {ends : String → String → Prop}

theorem isBracket_of_name {t : Token} {text : String} (kind : t.kind = .name text) :
    t.kind.isBracket = false := by
  rw [kind]
  rfl

theorem isBracket_eq_false {t : Token} (notOpening : ∀ b, t.kind ≠ .opening b)
    (notClosing : ∀ b, t.kind ≠ .closing b) : t.kind.isBracket = false := by
  cases kind : t.kind with
  | opening b => exact (notOpening b kind).elim
  | closing b => exact (notClosing b kind).elim
  | _ => rfl

/-! ## One part behind the other -/

theorem Nested.append (h : Nested first) (h' : Nested second) : Nested (first ++ second) := by
  induction h with
  | nil => exact h'
  | token plain _ ih => exact .token plain ih
  | @group opener closer b inner tokens opens body closes _ _ ih =>
    rw [List.append_assoc, List.cons_append]
    exact .group opens body closes ih

theorem Group.nested {b : Bracket} (h : Group b tokens) : Nested tokens := by
  obtain ⟨opens, body, closes⟩ := h
  exact .group opens body closes .nil

theorem Crossed.append (h : Crossed first) (h' : Crossed second) : Crossed (first ++ second) := by
  induction h with
  | nil => exact h'
  | token plain _ ih => exact .token plain ih
  | block body _ ih =>
    rw [List.append_assoc]
    exact .block body ih
  | pair opens round body closes round' _ _ ih =>
    rw [List.append_assoc, List.cons_append]
    exact .pair opens round body closes round' ih

theorem Nested.crossed (h : Nested tokens) : Crossed tokens := by
  induction h with
  | nil => exact .nil
  | token plain _ ih => exact .token plain ih
  | @group opener closer b inner tokens opens body closes _ within others =>
    by_cases brace : b = .brace
    · subst brace
      have group := Crossed.block (.mk opens body closes) others
      simpa using group
    · exact .pair opens brace within closes brace others

theorem ControlHead.nested {text : String} (h : ControlHead tokens text) : Nested tokens := by
  obtain ⟨keyword_kind, -, condition_group⟩ := h
  exact .token (isBracket_of_name keyword_kind) condition_group.nested

theorem ControlBody.nested (h : ControlBody ends tokens) : Nested tokens := by
  induction h with
  | nil => exact .nil
  | token plain _ _ _ ih => exact .token plain ih
  | group body _ ih => exact body.nested.append ih
  | condition head_head _ _ ih => exact head_head.nested.append ih
  | block head_head colon_kind _ last_kind _ _ within others =>
    refine head_head.nested.append (.token (by rw [colon_kind]; rfl) (within.append ?_))
    exact .token (isBracket_of_name last_kind) others

/-! ## In front of the end of a block -/

section

variable {closer : Token} {after : List Token}

/-- What holds of a closing bracket holds of the head in front of it when it holds of the head
alone. -/
theorem forall_head?_append_iff {P : Token → Prop} (closer_P : P closer) :
    (∀ t ∈ (tokens ++ closer :: after).head?, P t) ↔ ∀ t ∈ tokens.head?, P t := by
  cases tokens with
  | nil => simp [closer_P]
  | cons t tokens => simp

theorem Token.Unreserved.of_closing {t : Token} {b : Bracket} (closes : t.kind = .closing b) :
    t.Unreserved := by
  simp [Token.Unreserved, closes]

theorem BeginsControl.append (h : BeginsControl tokens) (rest : List Token) :
    BeginsControl (tokens ++ rest) := by
  obtain ⟨keyword_kind, opens, opener_kind⟩ := h
  exact .mk keyword_kind opens opener_kind

theorem beginsControl_append_iff (closes : closer.kind = .closing .brace) :
    BeginsControl (tokens ++ closer :: after) ↔ BeginsControl tokens := by
  constructor
  · generalize eq : tokens ++ closer :: after = all
    rintro @⟨keyword, opener, text, rest, keyword_kind, opens, opener_kind⟩
    rcases tokens with - | ⟨first, - | ⟨second, tokens⟩⟩ <;> cases eq
    · simp [closes] at keyword_kind
    · simp [closes] at opener_kind
    · exact .mk keyword_kind opens opener_kind
  · exact fun h ↦ h.append _

theorem beginsDeclaration_append_iff (closes : closer.kind = .closing .brace) :
    BeginsDeclaration (tokens ++ closer :: after) ↔ BeginsDeclaration tokens := by
  have next (more : List Token) : (more ++ closer :: after).head?.any (·.kind.isName) =
      more.head?.any (·.kind.isName) := by
    cases more <;> simp [closes, TokenKind.isName]
  constructor
  · generalize eq : tokens ++ closer :: after = all
    rintro @⟨modifiers, rest, keyword, word, kind, modifiers_kind, keyword_kind, isKeyword_word,
      named⟩
    rw [List.append_cons modifiers] at eq
    have names : ∀ t ∈ modifiers ++ [keyword], t ≠ closer := by
      rintro t mem rfl
      rcases List.mem_append.mp mem with mem | mem
      · obtain ⟨text, kind, -⟩ := modifiers_kind t mem
        simp [closes] at kind
      · cases List.mem_singleton.mp mem
        simp [closes] at keyword_kind
    rcases List.append_eq_append_iff.mp eq with ⟨more, split, behind⟩ | ⟨more, rfl, rfl⟩
    · cases more with
      | nil =>
        cases behind
        rw [List.append_nil] at split
        subst split
        refine .mk modifiers_kind keyword_kind isKeyword_word fun alone isEnum ↦ ?_
        rw [← next []]
        exact named alone isEnum
      | cons first more =>
        cases behind
        exact (names closer (by simp [split]) rfl).elim
    · rw [List.append_assoc]
      refine .mk modifiers_kind keyword_kind isKeyword_word fun alone isEnum ↦ ?_
      rw [← next]
      exact named alone isEnum
  · rintro ⟨modifiers_kind, keyword_kind, isKeyword_word, named⟩
    rw [List.append_assoc, List.cons_append]
    refine .mk modifiers_kind keyword_kind isKeyword_word fun alone isEnum ↦ ?_
    rw [next]
    exact named alone isEnum

theorem expression_append_iff {own inner : List Token} (closes : closer.kind = .closing .brace) :
    Expression own (inner ++ closer :: after) ↔ Expression own inner := by
  constructor
  · generalize eq : inner ++ closer :: after = rest
    rintro (⟨run, ending⟩ | ⟨run, next⟩)
    · exact .ended run ending
    · rw [← eq, forall_head?_append_iff closes] at next
      exact .cut run next
  · rintro (⟨run, ending⟩ | ⟨run, next⟩)
    · exact .ended run ending
    · exact .cut run ((forall_head?_append_iff closes).mpr next)

/-- A statement in a block is one without the tokens behind the block. -/
theorem Accepted.Statement.inside {own inner : List Token} (closes : closer.kind = .closing .brace)
    (h : Accepted.Statement ends own (inner ++ closer :: after)) :
    Accepted.Statement ends own inner := by
  generalize eq : inner ++ closer :: after = rest at h
  cases h with
  | delimited own_delimited => exact .delimited own_delimited
  | condition head_head next own_expression =>
    subst eq
    rw [← List.append_assoc, forall_head?_append_iff (by simp [closes])] at next
    exact .condition head_head next ((expression_append_iff closes).mp own_expression)
  | expression begins notDeclaration notControl own_expression =>
    subst eq
    rw [← List.append_assoc] at begins notDeclaration notControl
    rw [forall_head?_append_iff (.of_closing closes)] at begins
    rw [beginsDeclaration_append_iff closes] at notDeclaration
    rw [beginsControl_append_iff closes] at notControl
    exact .expression begins notDeclaration notControl
      ((expression_append_iff closes).mp own_expression)
  | halt => simp at eq

/-- Behind a statement, a block can end, unless the whole script does. -/
theorem Accepted.Statement.outside {own inner : List Token} (closes : closer.kind = .closing .brace)
    (runs : ∀ t ∈ own, ¬Lexer.isHalt t.kind) (h : Accepted.Statement ends own inner)
    (after : List Token) :
    Accepted.Statement ends own (inner ++ closer :: after) := by
  cases h with
  | delimited own_delimited => exact .delimited own_delimited
  | condition head_head next own_expression =>
    refine .condition head_head ?_ ((expression_append_iff closes).mpr own_expression)
    rw [← List.append_assoc]
    exact (forall_head?_append_iff (by simp [closes])).mpr next
  | expression begins notDeclaration notControl own_expression =>
    rw [← forall_head?_append_iff (.of_closing closes), List.append_assoc] at begins
    rw [← beginsDeclaration_append_iff closes, List.append_assoc] at notDeclaration
    rw [← beginsControl_append_iff closes, List.append_assoc] at notControl
    exact .expression begins notDeclaration notControl
      ((expression_append_iff closes).mpr own_expression)
  | halt halts => exact (runs _ List.mem_cons_self halts).elim

end

/-! ## Braces -/

def isBrace (t : Token) : Bool := t.kind = .opening .brace ∨ t.kind = .closing .brace

/-- What is left without parentheses, square brackets and all that is no bracket. -/
def braces (tokens : List Token) : List Token := tokens.filter isBrace

theorem braces_append (first second : List Token) :
    braces (first ++ second) = braces first ++ braces second :=
  List.filter_append ..

theorem braces_cons (t : Token) (tokens : List Token) :
    braces (t :: tokens) = braces [t] ++ braces tokens := by
  rw [← braces_append]
  rfl

theorem braces_other {t : Token} (notOpening : t.kind ≠ .opening .brace)
    (notClosing : t.kind ≠ .closing .brace) : braces [t] = [] := by
  simp [braces, isBrace, notOpening, notClosing]

theorem braces_name {t : Token} {text : String} (kind : t.kind = .name text) : braces [t] = [] :=
  braces_other (by simp [kind]) (by simp [kind])

theorem braces_plain {t : Token} (plain : t.kind.isBracket = false) : braces [t] = [] := by
  refine braces_other ?_ ?_ <;> rintro kind <;> simp [kind, TokenKind.isBracket] at plain

theorem braces_opening {t : Token} {b : Bracket} (kind : t.kind = .opening b) (round : b ≠ .brace) :
    braces [t] = [] :=
  braces_other (by simpa [kind] using round) (by simp [kind])

theorem braces_closing {t : Token} {b : Bracket} (kind : t.kind = .closing b) (round : b ≠ .brace) :
    braces [t] = [] :=
  braces_other (by simp [kind]) (by simpa [kind] using round)

/-- Braces around tokens with nested braces. -/
theorem nested_braces_block {opener closer : Token} {inner rest : List Token}
    (opens : opener.kind = .opening .brace) (within : Nested (braces inner))
    (closes : closer.kind = .closing .brace) (others : Nested (braces rest)) :
    Nested (braces (opener :: inner ++ closer :: rest)) := by
  have opener_braces : braces [opener] = [opener] := by simp [braces, isBrace, opens]
  have closer_braces : braces [closer] = [closer] := by simp [braces, isBrace, closes]
  rw [braces_append, braces_cons opener, braces_cons closer, opener_braces, closer_braces]
  exact .group opens within closes others

theorem Nested.braces_nested (h : Nested tokens) : Nested (braces tokens) := by
  induction h with
  | nil => exact .nil
  | token plain _ ih => rwa [braces_cons, braces_plain plain]
  | @group opener closer b inner tokens opens _ closes _ within others =>
    by_cases brace : b = .brace
    · subst brace
      exact nested_braces_block opens within closes others
    · rw [braces_append, braces_cons opener, braces_cons closer, braces_opening opens brace,
        braces_closing closes brace]
      exact within.append others

theorem Crossed.braces_nested (h : Crossed tokens) : Nested (braces tokens) := by
  induction h with
  | nil => exact .nil
  | token plain _ ih => rwa [braces_cons, braces_plain plain]
  | block body _ ih =>
    rw [braces_append]
    exact body.nested.braces_nested.append ih
  | @pair opener closer b b' inner tokens opens round _ closes round' _ within others =>
    rw [braces_append, braces_cons opener, braces_cons closer, braces_opening opens round,
      braces_closing closes round']
    exact within.append others

theorem CrossedRun.crossed (h : CrossedRun tokens) : Crossed tokens := by
  induction h with
  | nil => exact .nil
  | token plain _ _ ih => exact .token plain ih
  | pair opens round body closes round' _ ih => exact .pair opens round body closes round' ih

theorem Expression.braces_nested {rest : List Token} (h : Expression tokens rest) :
    Nested (braces tokens) := by
  cases h with
  | ended run ending =>
    rw [braces_append]
    refine run.crossed.braces_nested.append ?_
    cases ending with
    | semicolon kind => rw [braces_plain (by rw [kind]; rfl)]; exact .nil
    | block group => exact group.nested.braces_nested
  | cut run => exact run.crossed.braces_nested

theorem TypeHeader.braces_nested (h : TypeHeader tokens) : Nested (braces tokens) := by
  induction h with
  | nil => exact .nil
  | token plain _ _ ih => rwa [braces_cons, braces_plain plain]
  | group _ body _ ih =>
    rw [braces_append]
    exact body.nested.braces_nested.append ih
  | stray closes round _ ih => rwa [braces_cons, braces_closing closes round]

theorem Delimited.braces_nested (h : Delimited ends tokens) : Nested (braces tokens) := by
  cases h with
  | attributeGroup kind => rw [braces_plain (by rw [kind]; rfl)]; exact .nil
  | @declaration modifiers header body keyword nameToken _ _ _ modifiers_kind keyword_kind _
      nameToken_kind _ header_header body_group =>
    have none : braces modifiers = [] := by
      refine List.filter_eq_nil_iff.mpr fun t ht ↦ ?_
      obtain ⟨text, kind, -⟩ := modifiers_kind t ht
      simp [isBrace, kind]
    rw [braces_append, braces_cons keyword, braces_cons nameToken, braces_append, none,
      braces_name keyword_kind, braces_name nameToken_kind]
    exact header_header.braces_nested.append body_group.nested.braces_nested
  | header own_header =>
    obtain ⟨keyword_kind, -, nameToken_kind, semicolon_kind⟩ := own_header
    have tokens : Nested [_, _, _] := .token (isBracket_of_name keyword_kind)
      (.token (isBracket_of_name nameToken_kind) (.token (by rw [semicolon_kind]; rfl) .nil))
    exact tokens.braces_nested
  | control head_head colon_kind within last_kind _ =>
    have last := within.nested.append (.token (isBracket_of_name last_kind) .nil)
    exact (head_head.nested.append (.token (by rw [colon_kind]; rfl) last)).braces_nested

theorem Accepted.Statement.braces_nested {rest : List Token}
    (h : Accepted.Statement ends tokens rest) : Nested (braces tokens) := by
  cases h with
  | delimited own_delimited => exact own_delimited.braces_nested
  | condition head_head _ own_expression =>
    rw [braces_append]
    exact head_head.nested.braces_nested.append own_expression.braces_nested
  | expression _ _ _ own_expression => exact own_expression.braces_nested
  | @halt keyword halts =>
    rw [braces_plain]
    · exact .nil
    · cases kind : keyword.kind <;> simp_all [Lexer.isHalt, TokenKind.isBracket]

/-- Whatever parentheses and square brackets do, braces are nested. -/
theorem Accepted.braces_nested (h : Accepted ends tokens) : Nested (braces tokens) := by
  induction h with
  | nil => exact .nil
  | statement first _ ih =>
    rw [braces_append]
    exact first.braces_nested.append ih
  | @block own inner rest closer name line opens _ closes _ within others =>
    cases opens with
    | named keyword_kind _ nameToken_kind opener_kind =>
      rw [List.cons_append, List.cons_append, List.cons_append, List.nil_append, braces_cons,
        braces_name keyword_kind, braces_cons, braces_name nameToken_kind]
      exact nested_braces_block opener_kind within closes others
    | unnamed keyword_kind _ opener_kind =>
      rw [List.cons_append, List.cons_append, List.nil_append, braces_cons,
        braces_name keyword_kind]
      exact nested_braces_block opener_kind within closes others

end ScriptCache.Source
