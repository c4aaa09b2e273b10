import ScriptCache.Proofs.Source.Equations
import ScriptCache.Proofs.Source.Nesting

/-!
# The grammar of a document

A document is a list of items: type declarations, namespace headers, namespace blocks and other
statements. `Items` says which tokens each of them is written with, and `Grouped` which
statements a list of items stands for: a header owns the statements behind it, up to the next
namespace of either form. The main statement is that reading the tokens of a document gives its
statements, in document order and to any depth of nesting.
-/

namespace ScriptCache.Source

/-- Tokens and groups in parentheses or square brackets. No brace and no `;` stands outside of the
groups. -/
inductive Run : List Token → Prop where
  | nil : Run []
  | token {t : Token} {tokens : List Token} (plain : t.kind.isBracket = false)
      (unending : t.kind ≠ .semicolon) (rest : Run tokens) : Run (t :: tokens)
  | group {b : Bracket} {group tokens : List Token} (kind : b ≠ .brace) (body : Group b group)
      (rest : Run tokens) : Run (group ++ tokens)

/-- Attribute groups, modifiers, the keyword of a type and a name without a backslash, then a
header without braces, and the body in braces. The line is that of the first modifier, or of the
keyword where there is none. -/
inductive DeclarationTokens : List Token → TypeKind → String → Nat → Prop where
  | mk {attributes modifiers header body : List Token} {keyword nameToken : Token}
      {word name : String} {kind : TypeKind}
      (attributes_kind : ∀ t ∈ attributes, t.kind = .attributeGroup)
      (modifiers_kind : ∀ t ∈ modifiers, ∃ text, t.kind = .name text ∧ Parser.isModifier text)
      (keyword_kind : keyword.kind = .name word) (isKeyword_word : isKeyword word kind.keyword)
      (nameToken_kind : nameToken.kind = .name name) (unqualified : '\\' ∉ name.toList)
      (header_run : Run header) (body_group : Group .brace body) :
      DeclarationTokens
        (attributes ++ (modifiers ++ keyword :: nameToken :: (header ++ body))) kind name
        ((modifiers ++ [keyword]).head (by simp)).line

/-- The name of a namespace is kept without the backslashes in front of it. -/
def namespaceName (text : String) : String := String.ofList (text.toList.dropWhile (· = '\\'))

/-- The keyword, a name and a `;`. -/
inductive HeaderTokens : List Token → String → Nat → Prop where
  | mk {keyword nameToken semicolon : Token} {word text : String}
      (keyword_kind : keyword.kind = .name word) (isKeyword_word : isKeyword word "namespace")
      (nameToken_kind : nameToken.kind = .name text) (semicolon_kind : semicolon.kind = .semicolon) :
      HeaderTokens [keyword, nameToken, semicolon] (namespaceName text) keyword.line

/-- The keyword, the name if there is one, and an opening brace. -/
inductive BlockTokens : List Token → Option String → Nat → Prop where
  | named {keyword nameToken opener : Token} {word text : String}
      (keyword_kind : keyword.kind = .name word) (isKeyword_word : isKeyword word "namespace")
      (nameToken_kind : nameToken.kind = .name text) (opens : opener.kind = .opening .brace) :
      BlockTokens [keyword, nameToken, opener] (some (namespaceName text)) keyword.line
  | unnamed {keyword opener : Token} {word : String}
      (keyword_kind : keyword.kind = .name word) (isKeyword_word : isKeyword word "namespace")
      (opens : opener.kind = .opening .brace) :
      BlockTokens [keyword, opener] none keyword.line

/-- The tokens do not begin like a namespace, a type declaration, the end of the script or the
condition of a control statement. -/
def BeginsOther : List Token → Prop
  | [] => False
  | t :: tokens => t.kind ≠ .attributeGroup ∧ ∀ text, t.kind = .name text →
      ¬isKeyword text "namespace" ∧ ¬isKeyword text "__halt_compiler" ∧
        (∀ kind : TypeKind, ¬isKeyword text kind.keyword) ∧ ¬Parser.isModifier text ∧
          (Parser.opensControl text → ∀ next ∈ tokens.head?, next.kind ≠ .opening .paren)

/-- How a statement ends: with a `;`, or with a group in braces. -/
inductive Ending : List Token → Prop where
  | semicolon {t : Token} (kind : t.kind = .semicolon) : Ending [t]
  | block {body : List Token} (group : Group .brace body) : Ending body

theorem Ending.ne_nil {ending : List Token} (h : Ending ending) : ending ≠ [] := by
  cases h with
  | semicolon => simp
  | block group => obtain ⟨-, -, -⟩ := group; simp

/-- Attribute groups, and a statement that ends at the first `;` or brace group outside of other
brackets. -/
inductive OtherTokens : List Token → Prop where
  | mk {attributes run ending : List Token}
      (attributes_kind : ∀ t ∈ attributes, t.kind = .attributeGroup)
      (begins : BeginsOther (run ++ ending)) (run_run : Run run) (ending_ending : Ending ending) :
      OtherTokens (attributes ++ (run ++ ending))

theorem DeclarationTokens.ne_nil {tokens : List Token} {kind : TypeKind} {name : String}
    {line : Nat} (h : DeclarationTokens tokens kind name line) : tokens ≠ [] := by
  cases h; simp

theorem HeaderTokens.ne_nil {tokens : List Token} {name : String} {line : Nat}
    (h : HeaderTokens tokens name line) : tokens ≠ [] := by
  cases h; simp

theorem BlockTokens.ne_nil {tokens : List Token} {name : Option String} {line : Nat}
    (h : BlockTokens tokens name line) : tokens ≠ [] := by
  cases h <;> simp

theorem OtherTokens.ne_nil {tokens : List Token} (h : OtherTokens tokens) : tokens ≠ [] := by
  obtain ⟨-, begins, -, -⟩ := h
  intro empty
  rw [(List.append_eq_nil_iff.mp empty).2] at begins
  exact begins

namespace Statement

def IsNamespace : Statement → Prop
  | .namespaceBlock _ _ _ => True
  | _ => False

end Statement

namespace Item

/-- A header, or a namespace with a block. -/
def StartsNamespace : Item → Prop
  | .header _ _ => True
  | .statement s => s.IsNamespace

end Item

/-- The statements that items stand for. -/
inductive Grouped : List Item → List Statement → Prop where
  | nil : Grouped [] []
  | statement {s : Statement} {items : List Item} {statements : List Statement}
      (rest : Grouped items statements) : Grouped (.statement s :: items) (s :: statements)
  | header {name : String} {line : Nat} {own later : List Statement} {items : List Item}
      (plain : ∀ s ∈ own, ¬s.IsNamespace) (next : ∀ i ∈ items.head?, i.StartsNamespace)
      (rest : Grouped items later) :
      Grouped (.header name line :: (own.map .statement ++ items))
        (.namespaceBlock (some name) line own :: later)

/-- The items that tokens are written for. -/
inductive Items : List Token → List Item → Prop where
  | nil : Items [] []
  | declaration {tokens rest : List Token} {kind : TypeKind} {name : String} {line : Nat}
      {items : List Item} (own : DeclarationTokens tokens kind name line)
      (others : Items rest items) :
      Items (tokens ++ rest) (.statement (.declaration kind name line) :: items)
  | header {tokens rest : List Token} {name : String} {line : Nat} {items : List Item}
      (own : HeaderTokens tokens name line) (others : Items rest items) :
      Items (tokens ++ rest) (.header name line :: items)
  | block {tokens inner rest : List Token} {closer : Token} {name : Option String} {line : Nat}
      {innerItems items : List Item} {body : List Statement} (own : BlockTokens tokens name line)
      (within : Items inner innerItems) (grouped : Grouped innerItems body)
      (closes : closer.kind = .closing .brace) (others : Items rest items) :
      Items (tokens ++ (inner ++ closer :: rest))
        (.statement (.namespaceBlock name line body) :: items)
  | other {tokens rest : List Token} {items : List Item} (own : OtherTokens tokens)
      (others : Items rest items) :
      Items (tokens ++ rest) (.statement .other :: items)

/-! ## Grouping -/

namespace Grouped

theorem splitItems_of_startsNamespace {items : List Item}
    (next : ∀ i ∈ items.head?, i.StartsNamespace) :
    Statement.splitItems items = ([], Statement.ofItems items) := by
  rcases items with - | ⟨(⟨name, line⟩ | ⟨⟨name, line, body⟩ | ⟨kind, name, line⟩ | -⟩), items⟩
  · rfl
  · simp [Statement.ofItems, Statement.splitItems]
  · simp [Statement.ofItems, Statement.splitItems]
  · exact (next _ rfl).elim
  · exact (next _ rfl).elim

theorem splitItems_statement {s : Statement} (plain : ¬s.IsNamespace) (items : List Item) :
    Statement.splitItems (.statement s :: items) =
      (s :: (Statement.splitItems items).1, (Statement.splitItems items).2) := by
  cases s with
  | namespaceBlock => exact (plain trivial).elim
  | declaration | other => rfl

theorem splitItems_own {own : List Statement} (plain : ∀ s ∈ own, ¬s.IsNamespace)
    {items : List Item} (next : ∀ i ∈ items.head?, i.StartsNamespace) :
    Statement.splitItems (own.map .statement ++ items) = (own, Statement.ofItems items) := by
  induction own with
  | nil => exact splitItems_of_startsNamespace next
  | cons s own ih =>
    rw [List.map_cons, List.cons_append, splitItems_statement (plain s List.mem_cons_self),
      ih fun s hs ↦ plain s (List.mem_cons_of_mem _ hs)]

theorem ofItems_statement (s : Statement) (items : List Item) :
    Statement.ofItems (.statement s :: items) = s :: Statement.ofItems items := by
  cases s <;> rfl

theorem ofItems_header {name : String} {line : Nat} {own : List Statement}
    (plain : ∀ s ∈ own, ¬s.IsNamespace) {items : List Item}
    (next : ∀ i ∈ items.head?, i.StartsNamespace) :
    Statement.ofItems (.header name line :: (own.map .statement ++ items)) =
      .namespaceBlock (some name) line own :: Statement.ofItems items := by
  rw [Statement.ofItems, Statement.splitItems, splitItems_own plain next]
  rfl

theorem eq_ofItems {items : List Item} {statements : List Statement}
    (h : Grouped items statements) : statements = Statement.ofItems items := by
  induction h with
  | nil => rfl
  | statement _ ih => rw [ofItems_statement, ih]
  | header plain next _ ih => rw [ofItems_header plain next, ih]

theorem behind_statements (own : List Statement) {later : List Item}
    (h : Grouped later (Statement.ofItems later)) :
    Grouped (own.map .statement ++ later) (Statement.ofItems (own.map .statement ++ later)) := by
  induction own with
  | nil => exact h
  | cons s own ih =>
    rw [List.map_cons, List.cons_append, ofItems_statement]
    exact .statement ih

/-- The statements that a header in front would own, and the items that are left. -/
theorem exists_own (items : List Item) :
    ∃ (own : List Statement) (later : List Item), items = own.map .statement ++ later ∧ (∀ s ∈ own, ¬s.IsNamespace) ∧
      (∀ i ∈ later.head?, i.StartsNamespace) ∧ Grouped later (Statement.ofItems later) := by
  induction items with
  | nil => exact ⟨[], [], rfl, by simp, by simp, .nil⟩
  | cons i items ih =>
    obtain ⟨own, later, rfl, plain, next, grouped⟩ := ih
    cases i with
    | header name line =>
      refine ⟨[], _, rfl, by simp, by simp [Item.StartsNamespace], ?_⟩
      rw [ofItems_header plain next]
      exact .header plain next grouped
    | statement s =>
      by_cases block : s.IsNamespace
      · refine ⟨[], _, rfl, by simp, by simpa [Item.StartsNamespace] using block, ?_⟩
        rw [ofItems_statement]
        exact .statement (grouped.behind_statements own)
      · exact ⟨s :: own, later, rfl, by simpa [block] using plain, next, grouped⟩

theorem ofItems (items : List Item) : Grouped items (Statement.ofItems items) := by
  obtain ⟨own, later, rfl, -, -, grouped⟩ := exists_own items
  exact grouped.behind_statements own

end Grouped

/-! ## Reading -/

theorem not_isKeyword {word keyword : String} (h : isKeyword word keyword) {other : String}
    (ne : keyword ≠ other) : isKeyword word other = false := by
  have lower : word.toLower = keyword := by simpa [isKeyword] using h
  simpa [isKeyword, lower] using ne

namespace Parser

variable {endLine : Nat}

theorem typeKeyword_eq_some {word : String} {kind : TypeKind}
    (h : isKeyword word kind.keyword) : typeKeyword word = some kind := by
  have lower : word.toLower = kind.keyword := by simpa [isKeyword] using h
  cases kind <;> simp [typeKeyword, TypeKind.all, isKeyword, lower, TypeKind.keyword]

theorem typeKeyword_eq_none {word : String} (h : ∀ kind : TypeKind, ¬isKeyword word kind.keyword) :
    typeKeyword word = none := by
  have none (kind : TypeKind) : isKeyword word kind.keyword = false := by simpa using h kind
  simp [typeKeyword, TypeKind.all, none]

theorem isModifier_eq_false {word : String} {kind : TypeKind}
    (h : isKeyword word kind.keyword) : isModifier word = false := by
  have lower : word.toLower = kind.keyword := by simpa [isKeyword] using h
  cases kind <;> simp [isModifier, isKeyword, lower, TypeKind.keyword]

theorem not_isKeyword_of_isModifier {word other : String} (h : isModifier word)
    (ne : other ∉ ["abstract", "final", "readonly"]) : isKeyword word other = false := by
  obtain ⟨modifier, mem, eq⟩ := List.any_eq_true.mp h
  exact not_isKeyword eq fun e ↦ ne (e ▸ mem)

/-! ### Declarations -/

theorem skipTypeBody_group {b : Bracket} {group : List Token} (kind : b ≠ .brace)
    (h : Group b group) (name : String) (rest : List Token) :
    skipTypeBody endLine name (group ++ rest) = skipTypeBody endLine name rest := by
  obtain ⟨opener, tokens, eq, opens, skipped⟩ := skipGroup_group endLine h rest
  rw [eq, skipTypeBody, opens]
  cases b with
  | brace => contradiction
  | paren | square =>
    simp only
    split <;> simp_all

theorem skipTypeBody_run {header : List Token} (h : Run header) (name : String)
    (rest : List Token) :
    skipTypeBody endLine name (header ++ rest) = skipTypeBody endLine name rest := by
  induction h with
  | nil => rfl
  | @token t tokens plain unending _ ih =>
    rw [List.cons_append, skipTypeBody]
    split <;> simp_all [TokenKind.isBracket]
  | group kind body _ ih => rw [List.append_assoc, skipTypeBody_group kind body, ih]

theorem skipTypeBody_body {body : List Token} (h : Group .brace body) (name : String)
    (rest : List Token) : skipTypeBody endLine name (body ++ rest) = .ok rest := by
  obtain ⟨opener, tokens, eq, opens, skipped⟩ := skipGroup_group endLine h rest
  rw [eq, skipTypeBody, opens]
  exact skipped

theorem declared?_modifiers {modifiers : List Token}
    (h : ∀ t ∈ modifiers, ∃ text, t.kind = .name text ∧ isModifier text) (tokens : List Token) :
    declared? (modifiers ++ tokens) = declared? tokens := by
  induction modifiers with
  | nil => rfl
  | cons t modifiers ih =>
    obtain ⟨text, kind, modifier⟩ := h t List.mem_cons_self
    obtain ⟨_, line, offset⟩ := t
    cases kind
    rw [List.cons_append, declared?, if_pos modifier,
      ih fun t ht ↦ h t (List.mem_cons_of_mem _ ht)]

theorem declared?_keyword {keyword : Token} {word : String} {kind : TypeKind}
    (keyword_kind : keyword.kind = .name word) (h : isKeyword word kind.keyword)
    (rest : List Token) : declared? (keyword :: rest) = some (kind, rest) := by
  obtain ⟨_, line, offset⟩ := keyword
  cases keyword_kind
  rw [declared?, isModifier_eq_false h, typeKeyword_eq_some h]
  rfl

theorem readType_name {nameToken : Token} {name : String} {after rest : List Token}
    (nameToken_kind : nameToken.kind = .name name) (unqualified : '\\' ∉ name.toList)
    (skipped : skipTypeBody endLine name after = .ok rest) (line : Nat) (kind : TypeKind) :
    readType endLine line kind (nameToken :: after) =
      .ok (.item (.statement (.declaration kind name line)) rest) := by
  obtain ⟨_, l, offset⟩ := nameToken
  cases nameToken_kind
  have free : name.contains '\\' = false := by simpa using unqualified
  rw [readType, free, skipped]
  rfl

theorem dropWhile_attributes {attributes : List Token}
    (h : ∀ t ∈ attributes, t.kind = .attributeGroup) {t : Token} (ht : t.kind ≠ .attributeGroup)
    (tokens : List Token) :
    (attributes ++ t :: tokens).dropWhile isAttribute = t :: tokens := by
  rw [List.dropWhile_append_of_pos fun a ha ↦ by simp [isAttribute, h a ha]]
  exact List.dropWhile_cons_of_neg (by simpa [isAttribute] using ht)

theorem readStatement_attributes {attributes : List Token}
    (h : ∀ t ∈ attributes, t.kind = .attributeGroup) {t : Token} (ht : t.kind ≠ .attributeGroup)
    (notClosing : t.kind ≠ .closing .brace) (tokens : List Token) :
    readStatement endLine (attributes ++ t :: tokens) = readPlain endLine t tokens := by
  rw [readStatement, dropWhile_attributes h ht]
  exact if_neg notClosing

/-- A keyword in front of a name, or a modifier in front of it, starts a declaration. -/
theorem readPlain_declared {t : Token} {word : String} (t_kind : t.kind = .name word)
    (notNamespace : isKeyword word "namespace" = false)
    (notHalt : isKeyword word "__halt_compiler" = false) {tokens rest : List Token}
    (isEnum : isKeyword word "enum" → tokens.head?.any (·.kind.isName)) {kind : TypeKind}
    (declared : declared? (t :: tokens) = some (kind, rest)) :
    readPlain endLine t tokens = readType endLine t.line kind rest := by
  have notOther : (isKeyword word "enum" && !tokens.head?.any (·.kind.isName)) = false := by
    cases enum : isKeyword word "enum" with
    | false => rfl
    | true => simp [isEnum enum]
  rw [readPlain, t_kind]
  simp [notNamespace, notHalt, notOther, declared]

/-- Behind attribute groups and modifiers, the keyword of a type in front of a name starts a
declaration. -/
theorem readStatement_declared (endLine : Nat) {attributes modifiers : List Token}
    {keyword nameToken : Token} {word : String} {kind : TypeKind}
    (attributes_kind : ∀ t ∈ attributes, t.kind = .attributeGroup)
    (modifiers_kind : ∀ t ∈ modifiers, ∃ text, t.kind = .name text ∧ isModifier text)
    (keyword_kind : keyword.kind = .name word) (isKeyword_word : isKeyword word kind.keyword)
    (named : nameToken.kind.isName) (after : List Token) :
    readStatement endLine (attributes ++ (modifiers ++ keyword :: nameToken :: after)) =
      readType endLine ((modifiers ++ [keyword]).head (by simp)).line kind (nameToken :: after) := by
  have declared := declared?_keyword keyword_kind isKeyword_word (nameToken :: after)
  cases modifiers with
  | nil =>
    have other {o : String} (ne : kind.keyword ≠ o) := not_isKeyword isKeyword_word ne
    simp only [List.nil_append] at declared ⊢
    rw [readStatement_attributes attributes_kind (by simp [keyword_kind]) (by simp [keyword_kind]),
      readPlain_declared keyword_kind (other (by cases kind <;> decide))
        (other (by cases kind <;> decide)) (by simp [named]) declared]
    rfl
  | cons first modifiers =>
    obtain ⟨text, first_kind, modifier⟩ := modifiers_kind first List.mem_cons_self
    have other {o : String} (ne : o ∉ ["abstract", "final", "readonly"]) :=
      not_isKeyword_of_isModifier modifier ne
    rw [← declared?_modifiers modifiers_kind] at declared
    simp only [List.cons_append] at declared ⊢
    rw [readStatement_attributes attributes_kind (by simp [first_kind]) (by simp [first_kind]),
      readPlain_declared first_kind (other (by decide)) (other (by decide))
        (fun h ↦ by simp [other (o := "enum") (by decide)] at h) declared]
    rfl

theorem readStatement_declaration {tokens : List Token} {kind : TypeKind} {name : String}
    {line : Nat} (h : DeclarationTokens tokens kind name line) (rest : List Token) :
    readStatement endLine (tokens ++ rest) =
      .ok (.item (.statement (.declaration kind name line)) rest) := by
  obtain ⟨attributes_kind, modifiers_kind, keyword_kind, isKeyword_word, nameToken_kind, unqualified,
    header_run, body_group⟩ := h
  simp only [List.append_assoc, List.cons_append]
  rw [readStatement_declared endLine attributes_kind modifiers_kind keyword_kind isKeyword_word
    (by rw [nameToken_kind]; rfl)]
  refine readType_name nameToken_kind unqualified ?_ _ _
  rw [skipTypeBody_run header_run, skipTypeBody_body body_group]

/-! ### Namespaces -/

theorem readStatement_namespace {keyword : Token} {word : String}
    (keyword_kind : keyword.kind = .name word) (h : isKeyword word "namespace")
    (tokens : List Token) :
    readStatement endLine (keyword :: tokens) = readNamespace endLine keyword.line tokens := by
  rw [← List.nil_append (keyword :: tokens), readStatement_attributes (by simp)
    (by simp [keyword_kind]) (by simp [keyword_kind]), readPlain, keyword_kind]
  exact if_pos h

theorem readStatement_header {tokens : List Token} {name : String} {line : Nat}
    (h : HeaderTokens tokens name line) (rest : List Token) :
    readStatement endLine (tokens ++ rest) = .ok (.item (.header name line) rest) := by
  obtain @⟨keyword, ⟨_, _, _⟩, ⟨_, _, _⟩, word, text, keyword_kind, isKeyword_word, nameToken_kind,
    semicolon_kind⟩ := h
  cases nameToken_kind
  cases semicolon_kind
  exact readStatement_namespace keyword_kind isKeyword_word _

theorem readStatement_block {tokens : List Token} {name : Option String} {line : Nat}
    (h : BlockTokens tokens name line) (rest : List Token) :
    readStatement endLine (tokens ++ rest) = .ok (.enter name line rest) := by
  cases h with
  | @named keyword nameToken opener word text keyword_kind isKeyword_word nameToken_kind opens =>
    obtain ⟨_, _, _⟩ := nameToken
    obtain ⟨_, _, _⟩ := opener
    cases nameToken_kind
    cases opens
    exact readStatement_namespace keyword_kind isKeyword_word _
  | @unnamed keyword opener word keyword_kind isKeyword_word opens =>
    obtain ⟨_, _, _⟩ := opener
    cases opens
    exact readStatement_namespace keyword_kind isKeyword_word _

/-! ### Other statements -/

theorem skipExpression_plain {t : Token} (plain : t.kind.isBracket = false) {depth : Nat}
    (unending : depth = 0 → t.kind ≠ .semicolon) (tokens : List Token) :
    skipExpression endLine depth (t :: tokens) = skipExpression endLine depth tokens := by
  rw [skipExpression]
  split <;> simp_all [TokenKind.isBracket]

theorem skipExpression_braces (endLine : Nat) {group : List Token} (h : Group .brace group) (depth : Nat)
    (rest : List Token) :
    skipExpression endLine depth (group ++ rest) =
      if depth = 0 then .ok rest else skipExpression endLine depth rest := by
  obtain ⟨opener, tokens, eq, opens, skipped⟩ := skipGroup_group endLine h rest
  rw [eq, skipExpression, opens]
  simp only
  split <;> simp_all

theorem skipExpression_opening {t : Token} {b : Bracket} (kind : b ≠ .brace)
    (opens : t.kind = .opening b) (depth : Nat) (tokens : List Token) :
    skipExpression endLine depth (t :: tokens) = skipExpression endLine (depth + 1) tokens := by
  rw [skipExpression, opens]
  cases b with
  | brace => contradiction
  | paren | square => rfl

theorem skipExpression_closing {t : Token} {b : Bracket} (kind : b ≠ .brace)
    (closes : t.kind = .closing b) (depth : Nat) (tokens : List Token) :
    skipExpression endLine (depth + 1) (t :: tokens) = skipExpression endLine depth tokens := by
  rw [skipExpression, closes]
  cases b with
  | brace => contradiction
  | paren | square => rfl

/-- Inside a bracket, nested tokens are passed over. -/
theorem skipExpression_nested {inner : List Token} (h : Nested inner) (depth : Nat)
    (rest : List Token) :
    skipExpression endLine (depth + 1) (inner ++ rest) =
      skipExpression endLine (depth + 1) rest := by
  induction h generalizing depth rest with
  | nil => rfl
  | token plain _ ih =>
    rw [List.cons_append, skipExpression_plain plain (by omega), ih]
  | @group opener closer b inner tokens opens body closes _ ihBody ihRest =>
    by_cases kind : b = .brace
    · cases kind
      have skipped := skipExpression_braces endLine (.mk opens body closes)
        (depth + 1) (tokens ++ rest)
      simpa [ihRest] using skipped
    · rw [List.append_assoc, List.cons_append, List.cons_append,
        skipExpression_opening kind opens, ihBody, skipExpression_closing kind closes, ihRest]

theorem skipExpression_run {run : List Token} (h : Run run) (rest : List Token) :
    skipExpression endLine 0 (run ++ rest) = skipExpression endLine 0 rest := by
  induction h with
  | nil => rfl
  | token plain unending _ ih =>
    rw [List.cons_append, skipExpression_plain plain fun _ ↦ unending, ih]
  | @group b group tokens kind body _ ih =>
    obtain ⟨opens, inner, closes⟩ := body
    simp only [List.append_assoc, List.cons_append, List.nil_append]
    rw [skipExpression_opening kind opens, skipExpression_nested inner,
      skipExpression_closing kind closes, ih]

theorem skipExpression_ending {ending : List Token} (h : Ending ending) (rest : List Token) :
    skipExpression endLine 0 (ending ++ rest) = .ok rest := by
  cases h with
  | @semicolon t kind =>
    rw [List.singleton_append, skipExpression, kind]
    rfl
  | block group => rw [skipExpression_braces endLine group, if_pos rfl]

/-- A statement does not begin with a closing bracket, nor does it end with a name. -/
theorem head_of_run_ending {run ending : List Token} (run_run : Run run)
    (ending_ending : Ending ending) {t : Token} {tokens : List Token}
    (eq : run ++ ending = t :: tokens) :
    t.kind ≠ .closing .brace ∧ (t.kind.isName → tokens ≠ []) := by
  cases run_run with
  | nil =>
    cases ending_ending with
    | semicolon kind =>
      cases eq
      simp [kind, TokenKind.isName]
    | block group =>
      obtain ⟨opens, -, -⟩ := group
      cases eq
      simp [opens]
  | token plain _ _ =>
    cases eq
    refine ⟨fun closes ↦ by simp [closes, TokenKind.isBracket] at plain, fun _ empty ↦ ?_⟩
    exact ending_ending.ne_nil (List.append_eq_nil_iff.mp empty).2
  | group kind body _ =>
    obtain ⟨opens, -, -⟩ := body
    cases eq
    simp [opens]

theorem skipStatement_of_begins {t : Token} {tokens : List Token}
    (begins : BeginsOther (t :: tokens)) (h : t.kind.isName → tokens ≠ []) (rest : List Token) :
    skipStatement endLine t (tokens ++ rest) = skipExpression endLine 0 (t :: (tokens ++ rest)) := by
  rw [skipStatement]
  split
  · rename_i text inner kind condition
    refine if_neg fun control ↦ ?_
    obtain ⟨next, tokens, rfl⟩ := List.exists_cons_of_ne_nil (h (by rw [kind]; rfl))
    have notParen := (begins.2 text kind).2.2.2.2 control next rfl
    simp [condition?, notParen] at condition
  · rfl

theorem readPlain_of_begins {t : Token} {tokens : List Token}
    (begins : BeginsOther (t :: tokens)) (rest : List Token) :
    readPlain endLine t (tokens ++ rest) = readOther endLine t (tokens ++ rest) := by
  obtain ⟨_, line, offset⟩ := t
  obtain ⟨-, begins⟩ := begins
  rw [readPlain]
  split
  · rename_i text kind
    obtain ⟨notNamespace, notHalt, notType, notModifier, -⟩ := begins text kind
    have notEnum : ¬isKeyword text "enum" := notType .enumType
    cases kind
    simp [notNamespace, notHalt, notEnum, declared?, notModifier, typeKeyword_eq_none notType]
  · rfl

theorem readStatement_other {tokens : List Token} (h : OtherTokens tokens) (rest : List Token) :
    readStatement endLine (tokens ++ rest) = .ok (.item (.statement .other) rest) := by
  obtain @⟨attributes, run, ending, attributes_kind, begins, run_run, ending_ending⟩ := h
  have skipped : skipExpression endLine 0 (run ++ ending ++ rest) = .ok rest := by
    rw [List.append_assoc, skipExpression_run run_run, skipExpression_ending ending_ending]
  cases eq : run ++ ending with
  | nil => rw [eq] at begins; exact begins.elim
  | cons t tokens =>
    rw [eq] at begins skipped
    obtain ⟨notClosing, named⟩ := head_of_run_ending run_run ending_ending eq
    rw [List.append_assoc, List.cons_append,
      readStatement_attributes attributes_kind begins.1 notClosing, readPlain_of_begins begins,
      readOther, skipStatement_of_begins begins named, ← List.cons_append, skipped]
    rfl

/-! ### Items -/

/-- A statement that takes a token does not begin with the `}` of the block that it stands in. -/
theorem head_of_readStatement {t : Token} {own rest : List Token} {step : Step}
    (h : readStatement endLine (t :: (own ++ rest)) = .ok step) (behind : step.rest = rest) :
    t.kind ≠ .closing .brace := by
  intro closes
  have kept : (t :: (own ++ rest)).dropWhile isAttribute = t :: (own ++ rest) :=
    List.dropWhile_cons_of_neg (by simp [isAttribute, closes])
  rw [readStatement, kept] at h
  simp only [closes, ↓reduceIte, Except.ok.injEq] at h
  subst h
  have length := congrArg List.length behind
  rw [Step.rest, List.length_cons, List.length_append] at length
  omega

theorem readItems_item {own rest : List Token} {i : Item} (ne_nil : own ≠ [])
    (h : readStatement endLine (own ++ rest) = .ok (.item i rest)) (blocks : List OpenBlock)
    (items : List Item) :
    readItems endLine blocks items (own ++ rest) = readItems endLine blocks (i :: items) rest := by
  obtain ⟨t, own, rfl⟩ := List.exists_cons_of_ne_nil ne_nil
  rw [List.cons_append] at h ⊢
  rw [readItems_cons, if_neg (head_of_readStatement h rfl), h]
  rfl

theorem readItems_enter {own rest : List Token} {name : Option String} {line : Nat}
    (ne_nil : own ≠ []) (h : readStatement endLine (own ++ rest) = .ok (.enter name line rest))
    (blocks : List OpenBlock) (items : List Item) :
    readItems endLine blocks items (own ++ rest) =
      readItems endLine (⟨name, line, items⟩ :: blocks) [] rest := by
  obtain ⟨t, own, rfl⟩ := List.exists_cons_of_ne_nil ne_nil
  rw [List.cons_append] at h ⊢
  rw [readItems_cons, if_neg (head_of_readStatement h rfl), h]
  rfl

theorem readItems_leave {closer : Token} (closes : closer.kind = .closing .brace)
    (block : OpenBlock) (blocks : List OpenBlock) (items : List Item) (rest : List Token) :
    readItems endLine (block :: blocks) items (closer :: rest) =
      readItems endLine blocks
        (.statement (.namespaceBlock block.name block.line (Statement.ofItems items.reverse)) ::
          block.before) rest := by
  rw [readItems_cons, if_pos closes]

/-- Reading goes on behind items with these items added to those read before. -/
theorem readItems_items (endLine : Nat) {tokens : List Token} {own : List Item} (h : Items tokens own)
    (blocks : List OpenBlock) (items : List Item) (rest : List Token) :
    readItems endLine blocks items (tokens ++ rest) =
      readItems endLine blocks (own.reverse ++ items) rest := by
  induction h generalizing blocks items rest with
  | nil => rfl
  | declaration own _ ih =>
    rw [List.append_assoc, readItems_item own.ne_nil (readStatement_declaration own _), ih]
    simp
  | header own _ ih =>
    rw [List.append_assoc, readItems_item own.ne_nil (readStatement_header own _), ih]
    simp
  | block own _ grouped closes _ ihWithin ihOthers =>
    simp only [List.append_assoc, List.cons_append]
    rw [readItems_enter own.ne_nil (readStatement_block own _), ihWithin, readItems_leave closes,
      ihOthers, grouped.eq_ofItems]
    simp
  | other own _ ih =>
    rw [List.append_assoc, readItems_item own.ne_nil (readStatement_other own _), ih]
    simp

end Parser

theorem Statement.ofTokens_eq {stream : TokenStream} {items : List Item}
    (h : Items stream.tokens items) : Statement.ofTokens stream = .ok (Statement.ofItems items) := by
  have read := Parser.readItems_items stream.endLine h [] [] []
  rw [List.append_nil, List.append_nil] at read
  rw [Statement.ofTokens, read, Parser.readItems]
  simp [Except.map]

/-- The tokens of a document are read to its statements, and a document has no others. -/
theorem Statement.ofTokens_items {stream : TokenStream} {items : List Item}
    (h : Items stream.tokens items) :
    ∃ statements, Grouped items statements ∧
      (∀ others, Grouped items others → others = statements) ∧
      Statement.ofTokens stream = .ok statements :=
  ⟨_, .ofItems items, fun _ grouped ↦ grouped.eq_ofItems, ofTokens_eq h⟩

namespace Sample

def header : List Token := [⟨.name "namespace", 1, 0⟩, ⟨.name "A", 1, 10⟩, ⟨.semicolon, 1, 11⟩]

def other : List Token :=
  [⟨.name "f", 2, 13⟩, ⟨.opening .paren, 2, 14⟩, ⟨.semicolon, 2, 15⟩, ⟨.closing .paren, 2, 16⟩,
    ⟨.semicolon, 2, 17⟩]

def opening : List Token := [⟨.name "NameSpace", 3, 19⟩, ⟨.opening .brace, 3, 29⟩]

def declaration : List Token :=
  [⟨.attributeGroup, 4, 31⟩, ⟨.name "final", 5, 36⟩, ⟨.name "CLASS", 6, 42⟩, ⟨.name "B", 6, 48⟩,
    ⟨.opening .brace, 6, 50⟩, ⟨.opening .square, 6, 51⟩, ⟨.closing .square, 6, 52⟩,
    ⟨.closing .brace, 6, 53⟩]

/-- A header that owns a statement, and a block that declares a type. -/
def stream : TokenStream :=
  ⟨header ++ (other ++ (opening ++ (declaration ++ [⟨.closing .brace, 7, 55⟩]))), 8⟩

theorem otherTokens : OtherTokens other := by
  have begins : BeginsOther other := by
    refine ⟨by decide, fun text kind ↦ ?_⟩
    cases kind
    have none (keyword : String) (h : isKeyword "f" keyword = false) : ¬isKeyword "f" keyword :=
      Bool.eq_false_iff.mp h
    refine ⟨none _ (by cbv), none _ (by cbv), fun kind ↦ none _ (by cases kind <;> cbv), ?_, ?_⟩
    · exact Bool.eq_false_iff.mp (by cbv)
    · exact fun control ↦ absurd control (Bool.eq_false_iff.mp (by cbv))
  have run : Run (other.take 4) :=
    .token rfl (by decide) (.group (b := .paren) (by decide) (.mk rfl (.token rfl .nil) rfl) .nil)
  exact @OtherTokens.mk [] (other.take 4) (other.drop 4) (by simp) begins run (.semicolon rfl)

theorem declarationTokens : DeclarationTokens declaration .classType "B" 5 := by
  have modifiers : ∀ t ∈ [(⟨.name "final", 5, 36⟩ : Token)],
      ∃ text, t.kind = .name text ∧ Parser.isModifier text := by
    rintro t (- | ⟨-, ⟨⟩⟩)
    exact ⟨"final", rfl, by cbv⟩
  have body : Group .brace (declaration.drop 4) := .mk rfl (.group rfl .nil rfl .nil) rfl
  exact @DeclarationTokens.mk (declaration.take 1) _ [] _ _ _ _ _ _ (by decide) modifiers
    rfl (by cbv) rfl (by decide) .nil body

theorem headerTokens : HeaderTokens header "A" 1 := by
  have name : namespaceName "A" = "A" := by cbv
  rw [← name]
  exact .mk rfl (by cbv) rfl rfl

end Sample

/-- Each form of item stands in this document. -/
theorem ofTokens_items_sample :
    Items Sample.stream.tokens
        [.header "A" 1, .statement .other,
          .statement (.namespaceBlock none 3 [.declaration .classType "B" 5])] ∧
      Statement.ofTokens Sample.stream =
        .ok [.namespaceBlock (some "A") 1 [.other],
          .namespaceBlock none 3 [.declaration .classType "B" 5]] := by
  have declaration := Items.declaration Sample.declarationTokens .nil
  have items : Items Sample.stream.tokens
      [.header "A" 1, .statement .other,
        .statement (.namespaceBlock none 3 [.declaration .classType "B" 5])] :=
    .header Sample.headerTokens <| .other Sample.otherTokens <|
      .block (.unnamed rfl (by cbv) rfl) declaration (.statement .nil) rfl .nil
  obtain ⟨statements, -, unique, read⟩ := Statement.ofTokens_items items
  have grouped : Grouped _ [.namespaceBlock (some "A") 1 [.other],
      .namespaceBlock none 3 [.declaration .classType "B" 5]] :=
    .header (by simp [Statement.IsNamespace]) (by simp [Item.StartsNamespace, Statement.IsNamespace])
      (.statement .nil)
  exact ⟨items, by rw [read, ← unique _ grouped]⟩

end ScriptCache.Source
