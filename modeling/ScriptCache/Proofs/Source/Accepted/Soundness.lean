import ScriptCache.Proofs.Source.Accepted
import ScriptCache.Proofs.Source.Equations

/-!
# What the parser accepts

Every reader of the parser takes tokens that the grammar allows at its place, so the tokens of a
source that parses are `Accepted`. A block that opens with `:` may end at any `end` keyword.
-/

namespace ScriptCache.Source

namespace Parser

variable {endLine depth : Nat} {t : Token} {tokens rest : List Token}

theorem exists_of_bind {α β : Type} {x : Except ParseError α} {f : α → Except ParseError β} {b : β}
    (h : x.bind f = .ok b) : ∃ a, x = .ok a ∧ f a = .ok b := by
  cases x with
  | error => cases h
  | ok a => exact ⟨a, rfl, h⟩

/-! ## Groups -/

/-- Skipping goes over nested tokens to the bracket that closes the last open one. -/
theorem exists_of_skipGroup {b : Bracket} {brackets : List Bracket}
    (h : skipGroup endLine (b :: brackets) tokens = .ok rest) :
    ∃ inner closer after, tokens = inner ++ closer :: after ∧ Nested inner ∧
      closer.kind = .closing b ∧ skipGroup endLine brackets after = .ok rest := by
  induction tokens using induction_behind generalizing b brackets with
  | nil => cases h
  | cons t tokens ih =>
    cases kind : t.kind with
    | opening inner =>
      -- what the inner bracket holds, and what is left of the outer one
      rw [skipGroup_opening kind] at h
      obtain ⟨first, closer, after, rfl, nested, closes, h⟩ := ih tokens le_rfl h
      have shorter : after.length ≤ (first ++ closer :: after).length := by
        simp only [List.length_append, List.length_cons]
        omega
      obtain ⟨second, closer', after', rfl, nested', closes', h⟩ := ih after shorter h
      exact ⟨t :: first ++ closer :: second, closer', after', by simp,
        .group kind nested closes nested', closes', h⟩
    | closing closed =>
      by_cases same : closed = b
      · subst same
        rw [skipGroup_closing kind] at h
        exact ⟨[], t, tokens, rfl, .nil, kind, h⟩
      · rw [skipGroup, kind] at h
        simp only [same, if_false] at h
        cases h
    | _ =>
      have plain : t.kind.isBracket = false := by rw [kind]; rfl
      rw [skipGroup_plain plain] at h
      obtain ⟨inner, closer, after, rfl, nested, closes, h⟩ := ih tokens le_rfl h
      exact ⟨t :: inner, closer, after, rfl, .token plain nested, closes, h⟩

theorem exists_group_of_skipGroup {b : Bracket} (opens : t.kind = .opening b)
    (h : skipGroup endLine [b] tokens = .ok rest) :
    ∃ group, t :: tokens = group ++ rest ∧ Group b group := by
  obtain ⟨inner, closer, after, rfl, nested, closes, h⟩ := exists_of_skipGroup h
  rw [skipGroup] at h
  cases h
  exact ⟨t :: inner ++ [closer], by simp, opens, nested, closes⟩

/-! ## Expressions -/

/-- The tokens up to `rest`, the end of an expression, from a place where `depth` brackets are
open. -/
def Closing (rest : List Token) : Nat → List Token → Prop
  | 0, tokens => Expression tokens rest
  | depth + 1, tokens => ∃ inner closer after, ∃ b : Bracket, tokens = inner ++ closer :: after ∧
      Crossed inner ∧ closer.kind = .closing b ∧ b ≠ .brace ∧ Closing rest depth after

theorem Closing.inside {first second : List Token} (h : Crossed first)
    (h' : Closing rest (depth + 1) second) : Closing rest (depth + 1) (first ++ second) := by
  obtain ⟨inner, closer, after, b, rfl, body, closed⟩ := h'
  exact ⟨first ++ inner, closer, after, b, by rw [List.append_assoc], h.append body, closed⟩

theorem Closing.run {first second : List Token} (h : CrossedRun first)
    (h' : Expression second rest) : Expression (first ++ second) rest := by
  have append {run : List Token} (run_run : CrossedRun run) : CrossedRun (first ++ run) := by
    induction h with
    | nil => exact run_run
    | token plain unending _ ih => exact .token plain unending ih
    | pair opens round body closes round' _ ih =>
      rw [List.append_assoc, List.cons_append]
      exact .pair opens round body closes round' ih
  cases h' with
  | ended run ending =>
    rw [← List.append_assoc]
    exact .ended (append run) ending
  | cut run next => exact .cut (append run) next

theorem Closing.token (plain : t.kind.isBracket = false)
    (unending : depth = 0 → t.kind ≠ .semicolon) (h : Closing rest depth tokens) :
    Closing rest depth (t :: tokens) := by
  cases depth with
  | zero => exact run (.token plain (unending rfl) .nil) h
  | succ depth => exact inside (.token plain .nil) h

theorem Closing.opening {b : Bracket} (opens : t.kind = .opening b) (round : b ≠ .brace)
    (h : Closing rest (depth + 1) tokens) : Closing rest depth (t :: tokens) := by
  obtain ⟨inner, closer, after, b', rfl, body, closes, round', closed⟩ := h
  cases depth with
  | zero =>
    have pair := run (.pair opens round body closes round' .nil) closed
    rw [Closing]
    simpa using pair
  | succ depth =>
    have pair := inside (.pair opens round body closes round' .nil) closed
    simpa using pair

theorem exists_of_skipExpression (h : skipExpression endLine depth tokens = .ok rest) :
    ∃ own, tokens = own ++ rest ∧ Closing rest depth own := by
  induction tokens using induction_behind generalizing depth with
  | nil =>
    rw [skipExpression] at h
    split at h
    · rename_i zero
      cases h
      subst zero
      exact ⟨[], rfl, .cut .nil (by simp)⟩
    · cases h
  | cons t tokens ih =>
    have token (plain : t.kind.isBracket = false) (unending : depth = 0 → t.kind ≠ .semicolon)
        (h : skipExpression endLine depth tokens = .ok rest) :
        ∃ own, t :: tokens = own ++ rest ∧ Closing rest depth own := by
      obtain ⟨own, rfl, closed⟩ := ih tokens le_rfl h
      exact ⟨t :: own, rfl, closed.token plain unending⟩
    rw [skipExpression_cons] at h
    split at h
    · rename_i kind
      split at h
      · rename_i zero
        cases h
        subst zero
        exact ⟨[t], rfl, .ended .nil (.semicolon kind)⟩
      · rename_i positive
        exact token (by rw [kind]; rfl) (fun zero ↦ absurd zero positive) h
    · rename_i kind
      obtain ⟨after, skipped, h⟩ := exists_of_bind h
      obtain ⟨group, eq, isGroup⟩ := exists_group_of_skipGroup kind skipped
      cases depth with
      | zero =>
        cases h
        exact ⟨group, eq, .ended .nil (.block isGroup)⟩
      | succ depth =>
        obtain ⟨own, rfl, closed⟩ := ih after (length_skipGroup_le skipped) h
        refine ⟨group ++ own, by rw [eq, List.append_assoc], closed.inside ?_⟩
        exact isGroup.nested.crossed
    · rename_i kind
      split at h
      · rename_i zero
        cases h
        subst zero
        exact ⟨[], rfl, .cut .nil (by simpa using kind)⟩
      · cases h
    · rename_i b round kind
      obtain ⟨own, rfl, closed⟩ := ih tokens le_rfl h
      exact ⟨t :: own, rfl, closed.opening kind round⟩
    · rename_i b round kind
      split at h
      · cases h
      · rename_i positive
        obtain ⟨depth, rfl⟩ := Nat.exists_eq_succ_of_ne_zero positive
        obtain ⟨own, rfl, closed⟩ := ih tokens le_rfl h
        exact ⟨t :: own, rfl, [], t, own, b, rfl, .nil, kind, round, closed⟩
    · rename_i notSemicolon _ _ notOpening notClosing
      exact token (isBracket_eq_false notOpening notClosing) (fun _ ↦ notSemicolon) h

/-! ## Declarations -/

theorem exists_of_skipTypeBody {name : String} (h : skipTypeBody endLine name tokens = .ok rest) :
    ∃ header body, tokens = header ++ body ++ rest ∧ TypeHeader header ∧ Group .brace body := by
  induction tokens using induction_behind with
  | nil => rw [skipTypeBody] at h; cases h
  | cons t tokens ih =>
    rw [skipTypeBody_cons] at h
    split at h
    · rename_i kind
      obtain ⟨body, eq, group⟩ := exists_group_of_skipGroup kind h
      exact ⟨[], body, eq, .nil, group⟩
    · rename_i b round kind
      obtain ⟨after, skipped, h⟩ := exists_of_bind h
      obtain ⟨group, eq, inside⟩ := exists_group_of_skipGroup kind skipped
      obtain ⟨header, body, rfl, others, braces⟩ := ih after (length_skipGroup_le skipped) h
      refine ⟨group ++ header, body, ?_, .group round inside others, braces⟩
      simp only [eq, List.append_assoc]
    · cases h
    · cases h
    · rename_i _ notOpening notSemicolon notClosing
      obtain ⟨header, body, rfl, others, braces⟩ := ih tokens le_rfl h
      refine ⟨t :: header, body, rfl, ?_, braces⟩
      cases kind : t.kind with
      | opening b => exact (notOpening b kind).elim
      | closing b =>
        refine .stray kind ?_ others
        rintro rfl
        exact notClosing kind
      | _ => exact .token (by rw [kind]; rfl) notSemicolon others

theorem isKeyword_of_typeKeyword {word : String} {kind : TypeKind}
    (h : typeKeyword word = some kind) : isKeyword word kind.keyword :=
  List.find?_some (p := fun kind : TypeKind ↦ isKeyword word kind.keyword) h

theorem exists_of_declared? {kind : TypeKind} (h : declared? tokens = some (kind, rest)) :
    ∃ modifiers keyword word, tokens = modifiers ++ keyword :: rest ∧
      (∀ t ∈ modifiers, ∃ text, t.kind = .name text ∧ isModifier text) ∧
      keyword.kind = .name word ∧ isKeyword word kind.keyword := by
  fun_induction declared? tokens with
  | case1 word line offset tokens modifier ih =>
    obtain ⟨modifiers, keyword, text, rfl, all, kind, isKeyword⟩ := ih h
    exact ⟨⟨.name word, line, offset⟩ :: modifiers, keyword, text, rfl,
      List.forall_mem_cons.mpr ⟨⟨word, rfl, modifier⟩, all⟩, kind, isKeyword⟩
  | case2 word line offset tokens _ =>
    obtain ⟨_, found, e⟩ := Option.map_eq_some_iff.mp h
    cases e
    exact ⟨[], ⟨.name word, line, offset⟩, word, rfl, by simp, rfl, isKeyword_of_typeKeyword found⟩
  | case3 => cases h

theorem eq_enumType {word : String} {kind : TypeKind} (h : isKeyword word kind.keyword)
    (isEnum : isKeyword word "enum") : kind = .enumType := by
  by_contra ne
  have other : kind.keyword ≠ "enum" := by cases kind <;> simp_all [TypeKind.keyword]
  rw [not_isKeyword h other] at isEnum
  cases isEnum

theorem beginsDeclaration_iff :
    BeginsDeclaration (t :: tokens) ↔ (declared? (t :: tokens)).isSome ∧
      ∀ text, t.kind = .name text → isKeyword text "enum" → tokens.head?.any (·.kind.isName) := by
  constructor
  · generalize eq : t :: tokens = all
    rintro ⟨modifiers_kind, keyword_kind, isKeyword_word, named⟩
    rw [declared?_modifiers modifiers_kind, declared?_keyword keyword_kind isKeyword_word]
    refine ⟨rfl, fun text kind isEnum ↦ ?_⟩
    rcases List.cons_eq_append_iff.mp eq with ⟨rfl, behind⟩ | ⟨modifiers, rfl, -⟩
    · cases behind
      rw [keyword_kind] at kind
      cases kind
      exact named rfl (eq_enumType isKeyword_word isEnum)
    · obtain ⟨text', kind', modifier⟩ := modifiers_kind t List.mem_cons_self
      rw [kind'] at kind
      cases kind
      rw [not_isKeyword_of_isModifier modifier (by decide)] at isEnum
      cases isEnum
  · rintro ⟨declared, named⟩
    obtain ⟨⟨kind, rest⟩, declared⟩ := Option.isSome_iff_exists.mp declared
    obtain ⟨modifiers, keyword, word, eq, modifiers_kind, keyword_kind, isKeyword_word⟩ :=
      exists_of_declared? declared
    rw [eq]
    refine .mk modifiers_kind keyword_kind isKeyword_word ?_
    rintro rfl rfl
    cases eq
    exact named word keyword_kind isKeyword_word

theorem not_beginsDeclaration (notName : ∀ text, t.kind ≠ .name text) :
    ¬BeginsDeclaration (t :: tokens) := by
  rw [beginsDeclaration_iff]
  rintro ⟨declared, -⟩
  obtain ⟨_, line, offset⟩ := t
  unfold declared? at declared
  split at declared
  · rename_i kind
    cases kind
    exact notName _ rfl
  · cases declared

/-! ## Control blocks -/

/-- Any `end` keyword ends any block. -/
def anyEnd (_ text' : String) : Prop := closesControl text'

theorem exists_of_condition? {inner : List Token} (h : condition? tokens = some inner) :
    ∃ opener, tokens = opener :: inner ∧ opener.kind = .opening .paren := by
  cases tokens with
  | nil => cases h
  | cons t tokens =>
    simp only [condition?] at h
    split at h
    · rename_i kind
      cases h
      exact ⟨t, rfl, kind⟩
    · cases h

theorem exists_of_skipColon {after : List Token} (h : skipColon tokens = some after) :
    ∃ colon, tokens = colon :: after ∧ colon.kind = .colon := by
  unfold skipColon at h
  split at h
  · cases h
    exact ⟨_, rfl, rfl⟩
  · cases h

theorem skipColon_cons {colon : Token} (kind : colon.kind = .colon) (tokens : List Token) :
    skipColon (colon :: tokens) = some tokens := by
  obtain ⟨_, line, offset⟩ := colon
  cases kind
  rfl

theorem ne_colon_of_skipColon (h : skipColon (tokens ++ rest) = none) :
    ∀ t ∈ tokens.head?, t.kind ≠ .colon := by
  cases tokens with
  | nil => simp
  | cons t tokens =>
    rintro _ ⟨⟩ kind
    rw [List.cons_append, skipColon_cons kind] at h
    cases h

theorem beginsControl_iff :
    BeginsControl (t :: tokens) ↔
      (∃ text, t.kind = .name text ∧ opensControl text) ∧ (condition? tokens).isSome := by
  constructor
  · rintro ⟨keyword_kind, opens, opener_kind⟩
    exact ⟨⟨_, keyword_kind, opens⟩, by rw [condition?, if_pos opener_kind]; rfl⟩
  · rintro ⟨⟨text, kind, opens⟩, condition⟩
    obtain ⟨inner, condition⟩ := Option.isSome_iff_exists.mp condition
    obtain ⟨opener, rfl, round⟩ := exists_of_condition? condition
    exact .mk kind opens round

theorem not_beginsControl (notName : ∀ text, t.kind ≠ .name text) :
    ¬BeginsControl (t :: tokens) := by
  rw [beginsControl_iff]
  rintro ⟨⟨text, kind, -⟩, -⟩
  exact notName text kind

/-- What is left once the `end` keyword in front of `after` was read. -/
def Leaves (endLine : Nat) (after rest : List Token) : Nat → Prop
  | 0 => rest = if after.head?.any (·.kind = .semicolon) then after.tail else after
  | depth + 1 => skipControl endLine depth after = .ok rest

/-- The tokens begin with the rest of the body of the innermost open block, up to its `end`
keyword. -/
def EndsBody (endLine depth : Nat) (rest tokens : List Token) : Prop :=
  ∃ body last text after, tokens = body ++ last :: after ∧ ControlBody anyEnd body ∧
    last.kind = .name text ∧ closesControl text ∧ Leaves endLine after rest depth

namespace EndsBody

theorem last {text : String} (kind : t.kind = .name text) (closes : closesControl text)
    (leaves : Leaves endLine tokens rest depth) : EndsBody endLine depth rest (t :: tokens) :=
  ⟨[], t, text, tokens, rfl, .nil, kind, closes, leaves⟩

theorem token (plain : t.kind.isBracket = false)
    (notClosing : ∀ text, t.kind = .name text → ¬closesControl text)
    (notControl : ¬BeginsControl (t :: tokens)) (h : EndsBody endLine depth rest tokens) :
    EndsBody endLine depth rest (t :: tokens) := by
  obtain ⟨body, last, text, after, rfl, inside, ends⟩ := h
  refine ⟨t :: body, last, text, after, rfl, .token plain notClosing ?_ inside, ends⟩
  exact fun begins ↦ notControl (begins.append (last :: after))

theorem group {b : Bracket} {group : List Token} (isGroup : Group b group)
    (h : EndsBody endLine depth rest tokens) : EndsBody endLine depth rest (group ++ tokens) := by
  obtain ⟨body, last, text, after, rfl, inside, ends⟩ := h
  exact ⟨group ++ body, last, text, after, by rw [List.append_assoc], .group isGroup inside, ends⟩

theorem condition {head : List Token} {text : String} (head_head : ControlHead head text)
    (noColon : skipColon tokens = none) (h : EndsBody endLine depth rest tokens) :
    EndsBody endLine depth rest (head ++ tokens) := by
  obtain ⟨body, last, text', after, rfl, inside, ends⟩ := h
  exact ⟨head ++ body, last, text', after, by rw [List.append_assoc],
    .condition head_head (ne_colon_of_skipColon noColon) inside, ends⟩

/-- A block in the body ends with the first keyword, and the body goes on behind it. -/
theorem block {head inside : List Token} {text : String} {mark : Token}
    (head_head : ControlHead head text) (isColon : mark.kind = .colon)
    (h : EndsBody endLine (depth + 1) rest inside)
    (onward : ∀ after, after.length ≤ inside.length → skipControl endLine depth after = .ok rest →
      EndsBody endLine depth rest after) :
    EndsBody endLine depth rest (head ++ mark :: inside) := by
  obtain ⟨first, last, text₁, after, rfl, first_body, last_kind, closes, leaves⟩ := h
  have shorter : after.length ≤ (first ++ last :: after).length := by
    rw [List.length_append, List.length_cons]
    omega
  obtain ⟨second, last', text₂, after', rfl, second_body, ends⟩ := onward after shorter leaves
  exact ⟨head ++ mark :: (first ++ last :: second), last', text₂, after', by simp,
    .block head_head isColon first_body last_kind closes second_body, ends⟩

end EndsBody

/-- Skipping goes over the body of the innermost open block to its `end` keyword. -/
theorem exists_of_skipControl (h : skipControl endLine depth tokens = .ok rest) :
    EndsBody endLine depth rest tokens := by
  induction tokens using induction_behind generalizing depth with
  | nil => rw [skipControl] at h; cases h
  | cons t tokens ih =>
    rw [skipControl_cons] at h
    split at h
    · rename_i text kind
      have plain := isBracket_of_name kind
      split at h
      · rename_i closes
        refine .last kind closes ?_
        cases depth with
        | zero => cases h; rfl
        | succ depth => exact h
      rename_i stays
      have notClosing (other : String) (kind' : t.kind = .name other) : ¬closesControl other := by
        rw [kind] at kind'
        cases kind'
        exact stays
      split at h
      · rename_i opens
        cases condition : condition? tokens with
        | none =>
          rw [condition] at h
          exact .token plain notClosing (by simp [beginsControl_iff, condition]) (ih tokens le_rfl h)
        | some inner =>
          rw [condition] at h
          dsimp only at h
          obtain ⟨after, skipped, h⟩ := exists_of_bind h
          obtain ⟨opener, rfl, round⟩ := exists_of_condition? condition
          obtain ⟨group, eq, isGroup⟩ := exists_group_of_skipGroup round skipped
          have head : ControlHead (t :: group) text := .mk kind opens isGroup
          have shorter := (length_skipGroup_le skipped).trans (Nat.le_succ _)
          rw [eq, ← List.cons_append]
          cases colon : skipColon after with
          | none =>
            rw [colon] at h
            exact .condition head colon (ih after shorter h)
          | some inside =>
            rw [colon] at h
            obtain ⟨mark, rfl, isColon⟩ := exists_of_skipColon colon
            replace shorter := (Nat.le_succ _).trans shorter
            exact .block head isColon (ih inside shorter h)
              fun after fewer ↦ ih after (fewer.trans shorter)
      · rename_i notOpens
        exact .token plain notClosing (by simp [beginsControl_iff, kind, notOpens])
          (ih tokens le_rfl h)
    · rename_i b kind
      obtain ⟨after, skipped, h⟩ := exists_of_bind h
      obtain ⟨group, eq, isGroup⟩ := exists_group_of_skipGroup kind skipped
      rw [eq]
      exact .group isGroup (ih after (length_skipGroup_le skipped) h)
    · cases h
    · rename_i notName notOpening notClosing
      exact .token (isBracket_eq_false notOpening notClosing)
        (fun text kind ↦ (notName text kind).elim) (not_beginsControl notName) (ih tokens le_rfl h)

/-! ## Open namespace blocks -/

/-- The tokens go on in a place where `n` namespace blocks are open, and close all of them. -/
def Unwinds : Nat → List Token → Prop
  | 0, tokens => Accepted anyEnd tokens
  | n + 1, tokens => ∃ inner closer after, tokens = inner ++ closer :: after ∧
      Accepted anyEnd inner ∧ closer.kind = .closing .brace ∧ Unwinds n after

theorem Unwinds.statement {n : Nat} {own : List Token} (first : Accepted.Statement anyEnd own rest)
    (h : Unwinds n rest) : Unwinds n (own ++ rest) := by
  cases n with
  | zero => exact Accepted.statement first h
  | succ n =>
    obtain ⟨inner, closer, after, rfl, within, closes, h⟩ := h
    exact ⟨own ++ inner, closer, after, by rw [List.append_assoc],
      .statement (first.inside closes) within, closes, h⟩

theorem Unwinds.enter {n line : Nat} {own : List Token} {name : Option String}
    (opens : BlockTokens own name line) (h : Unwinds (n + 1) rest) : Unwinds n (own ++ rest) := by
  obtain ⟨inner, closer, after, rfl, within, closes, h⟩ := h
  cases n with
  | zero => exact Accepted.block opens within closes h
  | succ n =>
    obtain ⟨inner', closer', after', rfl, within', closes', h⟩ := h
    exact ⟨own ++ (inner ++ closer :: inner'), closer', after', by simp,
      .block opens within closes within', closes', h⟩

/-- A reader that opens `opened` blocks takes the tokens up to `rest`. -/
structure Takes (opened : Nat) (tokens rest : List Token) : Prop where
  suffix : rest <:+ tokens
  unwinds : ∀ n, Unwinds (n + opened) rest → Unwinds n tokens

theorem Takes.statement {own : List Token} (first : Accepted.Statement anyEnd own rest) :
    Takes 0 (own ++ rest) rest :=
  ⟨List.suffix_append _ _, fun _ h ↦ h.statement first⟩

theorem Takes.trans {opened : Nat} {between : List Token} (h : Takes 0 tokens between)
    (h' : Takes opened between rest) : Takes opened tokens rest :=
  ⟨h'.suffix.trans h.suffix, fun n rest ↦ h.unwinds n (h'.unwinds n rest)⟩

def Step.opened : Step → Nat
  | .item _ _ => 0
  | .enter _ _ _ => 1

/-! ## Statements -/

theorem takes_semicolon (kind : t.kind = .semicolon) : Takes 0 (t :: rest) rest := by
  have notName (text : String) : t.kind ≠ .name text := by simp [kind]
  refine .statement (.expression ?_ ?_ ?_ (.ended .nil (.semicolon kind)))
  · rintro u ⟨⟩
    exact ⟨by simp [kind], fun text name ↦ (notName text name).elim⟩
  · exact not_beginsDeclaration notName
  · exact not_beginsControl notName

theorem takes_leaves {after : List Token} (h : Leaves endLine after rest 0) :
    Takes 0 after rest := by
  rw [Leaves] at h
  subst h
  split
  · rename_i semicolon
    cases after with
    | nil => cases semicolon
    | cons t after => exact takes_semicolon (by simpa using semicolon)
  · exact ⟨List.suffix_refl _, fun _ h ↦ h⟩

theorem takes_skipStatement (unreserved : t.Unreserved)
    (notDeclaration : ¬BeginsDeclaration (t :: tokens))
    (h : skipStatement endLine t tokens = .ok rest) : Takes 0 (t :: tokens) rest := by
  have expression (notControl : ¬BeginsControl (t :: tokens))
      (h : skipExpression endLine 0 (t :: tokens) = .ok rest) : Takes 0 (t :: tokens) rest := by
    obtain ⟨own, eq, own_expression⟩ := exists_of_skipExpression h
    rw [eq] at notDeclaration notControl ⊢
    refine .statement (.expression ?_ notDeclaration notControl own_expression)
    rw [← eq]
    rintro u ⟨⟩
    exact unreserved
  rw [skipStatement_eq] at h
  split at h
  · rename_i text inner kind condition
    split at h
    · rename_i opens
      obtain ⟨opener, rfl, round⟩ := exists_of_condition? condition
      obtain ⟨after, skipped, h⟩ := exists_of_bind h
      obtain ⟨group, eq, isGroup⟩ := exists_group_of_skipGroup round skipped
      have head : ControlHead (t :: group) text := .mk kind opens isGroup
      cases colon : skipColon after with
      | some body =>
        rw [colon] at h
        obtain ⟨mark, rfl, mark_kind⟩ := exists_of_skipColon colon
        obtain ⟨inside, last, text', after, rfl, inside_body, last_kind, closes, leaves⟩ :=
          exists_of_skipControl h
        have block : Takes 0 _ after :=
          .statement (.delimited (.control head mark_kind inside_body last_kind closes))
        have whole : t :: opener :: inner = t :: group ++ mark :: (inside ++ [last]) ++ after := by
          rw [eq]
          simp
        rw [whole]
        exact block.trans (takes_leaves leaves)
      | none =>
        rw [colon] at h
        obtain ⟨own, rfl, own_expression⟩ := exists_of_skipExpression h
        rw [← List.append_nil (own ++ rest)] at colon
        have noColon : ∀ u ∈ (own ++ rest).head?, u.kind ≠ .colon := ne_colon_of_skipColon colon
        have whole : t :: opener :: inner = t :: group ++ own ++ rest := by
          rw [eq]
          simp
        rw [whole]
        exact .statement (.condition head noColon own_expression)
    · rename_i notOpens
      exact expression (by simp [beginsControl_iff, kind, notOpens]) h
  · rename_i none
    refine expression (fun begins ↦ ?_) h
    obtain ⟨⟨text, kind, -⟩, condition⟩ := beginsControl_iff.mp begins
    obtain ⟨inner, condition⟩ := Option.isSome_iff_exists.mp condition
    exact none text inner kind condition

theorem takes_readOther {step : Step} (unreserved : t.Unreserved)
    (notDeclaration : ¬BeginsDeclaration (t :: tokens))
    (h : readOther endLine t tokens = .ok step) :
    Takes step.opened (t :: tokens) step.rest := by
  obtain ⟨after, skipped, e⟩ := Lexer.eq_ok_of_map_eq_ok h
  cases e
  exact takes_skipStatement unreserved notDeclaration skipped

theorem takes_readNamespace {step : Step} {word : String} (kind : t.kind = .name word)
    (isNamespace : isKeyword word "namespace") (h : readNamespace endLine t.line tokens = .ok step) :
    Takes step.opened (t :: tokens) step.rest := by
  have enter {own after : List Token} {name : Option String}
      (opens : BlockTokens own name t.line) : Takes 1 (own ++ after) after :=
    ⟨List.suffix_append _ _, fun _ h ↦ h.enter opens⟩
  unfold readNamespace at h
  split at h
  · simp only at h
    split at h
    · cases h
      exact .statement (.delimited (.header (.mk kind isNamespace rfl rfl)))
    · cases h
      exact enter (.named kind isNamespace rfl rfl)
    · cases h
  · cases h
    exact enter (.unnamed kind isNamespace rfl)
  · cases h

theorem takes_readType {step : Step} {line : Nat} {kind : TypeKind} {after : List Token}
    (declared : declared? tokens = some (kind, after))
    (h : readType endLine line kind after = .ok step) : Takes step.opened tokens step.rest := by
  obtain ⟨modifiers, keyword, word, rfl, modifiers_kind, keyword_kind, isKeyword_word⟩ :=
    exists_of_declared? declared
  unfold readType at h
  split at h
  · rename_i name l o after
    split at h
    · cases h
    · rename_i unqualified
      obtain ⟨rest, skipped, e⟩ := Lexer.eq_ok_of_map_eq_ok h
      cases e
      obtain ⟨header, body, rfl, header_header, body_group⟩ := exists_of_skipTypeBody skipped
      have own : Delimited anyEnd
          (modifiers ++ keyword :: ⟨.name name, l, o⟩ :: (header ++ body)) :=
        .declaration modifiers_kind keyword_kind isKeyword_word rfl (by simpa using unqualified)
          header_header body_group
      have taken : Takes 0 _ rest := .statement (.delimited own)
      rw [Step.opened, Step.rest]
      simpa using taken
  · cases h

/-- Nothing stands behind a token that ends the script. -/
def HaltsLast (tokens : List Token) : Prop :=
  ∀ before keyword after, tokens = before ++ keyword :: after → Lexer.isHalt keyword.kind → after = []

theorem HaltsLast.suffix (h : HaltsLast tokens) (suffix : rest <:+ tokens) : HaltsLast rest := by
  obtain ⟨taken, rfl⟩ := suffix
  intro before keyword after eq halts
  exact h (taken ++ before) keyword after (by rw [eq, List.append_assoc]) halts

theorem takes_readPlain {step : Step} (notAttribute : t.kind ≠ .attributeGroup)
    (last : HaltsLast (t :: tokens)) (h : readPlain endLine t tokens = .ok step) :
    Takes step.opened (t :: tokens) step.rest := by
  unfold readPlain at h
  split at h
  · rename_i text kind
    split at h
    · rename_i isNamespace
      exact takes_readNamespace kind isNamespace h
    rename_i notNamespace
    split at h
    · rename_i halts
      cases h
      have isHalt : Lexer.isHalt t.kind := by rw [kind]; exact halts
      obtain rfl := last [] t tokens rfl isHalt
      exact .statement (.halt isHalt)
    rename_i notHalt
    have unreserved : t.Unreserved := by
      refine ⟨notAttribute, fun other kind' ↦ ?_⟩
      rw [kind] at kind'
      cases kind'
      exact ⟨notNamespace, notHalt⟩
    split at h
    · rename_i isEnum
      refine takes_readOther unreserved (fun begins ↦ ?_) h
      obtain ⟨isEnum, notNamed⟩ := (Bool.and_eq_true ..).mp isEnum
      rw [(beginsDeclaration_iff.mp begins).2 text kind isEnum] at notNamed
      cases notNamed
    split at h
    · rename_i declared
      exact takes_readType declared h
    · rename_i none
      exact takes_readOther unreserved (by simp [beginsDeclaration_iff, none]) h
  · rename_i notName
    have unreserved : t.Unreserved := ⟨notAttribute, fun text kind ↦ (notName text kind).elim⟩
    exact takes_readOther unreserved (not_beginsDeclaration notName) h

theorem takes_attributes (tokens : List Token) : Takes 0 tokens (tokens.dropWhile isAttribute) := by
  induction tokens with
  | nil => exact ⟨List.suffix_refl _, fun _ h ↦ h⟩
  | cons t tokens ih =>
    by_cases kind : isAttribute t
    · rw [List.dropWhile_cons_of_pos kind]
      have first : Takes 0 ([t] ++ tokens) tokens :=
        .statement (.delimited (.attributeGroup (by simpa [isAttribute] using kind)))
      exact first.trans ih
    · rw [List.dropWhile_cons_of_neg kind]
      exact ⟨List.suffix_refl _, fun _ h ↦ h⟩

/-- One statement takes accepted tokens, and opens at most a namespace block. -/
theorem takes_readStatement {step : Step} (last : HaltsLast tokens)
    (h : readStatement endLine tokens = .ok step) : Takes step.opened tokens step.rest := by
  have attributes := takes_attributes tokens
  unfold readStatement at h
  split at h
  · rename_i none
    cases h
    rw [none] at attributes
    exact attributes
  · rename_i t rest ahead
    rw [ahead] at attributes
    split at h
    · cases h
      exact attributes
    · have first := List.head?_dropWhile_not isAttribute tokens
      rw [ahead] at first
      have notAttribute : t.kind ≠ .attributeGroup := by simpa [isAttribute] using first
      exact attributes.trans (takes_readPlain notAttribute (last.suffix attributes.suffix) h)

/-- Statement after statement, the tokens up to the end of the source are accepted. -/
theorem unwinds_of_readItems {blocks : List OpenBlock} {items all : List Item}
    (last : HaltsLast tokens) (h : readItems endLine blocks items tokens = .ok all) :
    Unwinds blocks.length tokens := by
  replace h := readsItems_of_readItems h
  induction h with
  | ended => exact .nil
  | @closes _ _ _ _ t rest closes _ ih =>
    exact ⟨[], t, rest, rfl, .nil, closes, ih (last.suffix (List.suffix_cons t rest))⟩
  | item _ read _ ih | enter _ read _ ih =>
    have taken := takes_readStatement last read
    exact taken.unwinds _ (ih (last.suffix taken.suffix))

end Parser

end ScriptCache.Source
