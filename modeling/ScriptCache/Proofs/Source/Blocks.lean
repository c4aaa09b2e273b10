import ScriptCache.Proofs.Source.Accepted.Completeness
import ScriptCache.Source.Declaration

/-!
# Blocks that open with a colon

The parser takes a block from its control keyword to its `end` keyword as one statement that
declares nothing, and a `;` right behind it as well. Tokens that end within a block are refused.
Until the `:` was read there is no block, only a control keyword in front of another statement.
-/

namespace ScriptCache.Source

/-! ## The grammar of a block -/

/-- The `end` keyword of the control keyword itself. -/
def ownEnd (text text' : String) : Prop :=
  ∃ keyword ∈ Parser.controlKeywords, isKeyword text keyword ∧ isKeyword text' ("end" ++ keyword)

theorem ownEnd.closesControl {text text' : String} (h : ownEnd text text') :
    Parser.closesControl text' := by
  obtain ⟨keyword, mem, -, closes⟩ := h
  exact List.any_eq_true.mpr ⟨keyword, mem, closes⟩

theorem ControlBody.anyEnd {tokens : List Token} (h : ControlBody ownEnd tokens) :
    ControlBody Parser.anyEnd tokens := by
  induction h with
  | nil => exact .nil
  | token plain notClosing notControl _ ih => exact .token plain notClosing notControl ih
  | group body _ ih => exact .group body ih
  | condition head_head noColon _ ih => exact .condition head_head noColon ih
  | block head_head colon_kind _ last_kind closes _ within others =>
    exact .block head_head colon_kind within last_kind closes.closesControl others

/-- A control keyword with its condition, a `:`, a body and the keyword's own `end` keyword. In the
body, groups have any content, a condition without `:` opens nothing, and a block is a block. A
control keyword without a parenthesis is a token like any other. -/
structure ControlBlock where
  head : List Token
  keyword : String
  head_head : ControlHead head keyword
  colon : Token
  colon_kind : colon.kind = .colon
  body : List Token
  body_body : ControlBody ownEnd body
  last : Token
  lastWord : String
  last_kind : last.kind = .name lastWord
  ends : ownEnd keyword lastWord

namespace ControlBlock

def tokens (block : ControlBlock) : List Token :=
  block.head ++ block.colon :: (block.body ++ [block.last])

theorem exists_cons (block : ControlBlock) :
    ∃ keyword tokens, block.tokens = keyword :: tokens ∧ keyword.kind ≠ .closing .brace := by
  obtain ⟨head, text, ⟨keyword_kind, -, -⟩, -⟩ := block
  exact ⟨_, _, rfl, by simp [keyword_kind]⟩

end ControlBlock

/-! ## Tokens that end too early -/

variable {α β : Type} {tokens part : List Token} {endLine : Nat}

/-- The result is an error at the end of the source, in a group or in a block. -/
def CutShort (endLine : Nat) (result : Except ParseError α) : Prop :=
  ∃ cause ∈ [Cause.unclosedBlock, .unclosedControlBlock], result = .error ⟨endLine, cause⟩

theorem CutShort.bind {result : Except ParseError α} (h : CutShort endLine result)
    (next : α → Except ParseError β) : CutShort endLine (result.bind next) := by
  obtain ⟨cause, mem, rfl⟩ := h
  exact ⟨cause, mem, rfl⟩

theorem CutShort.map {result : Except ParseError α} (h : CutShort endLine result) (f : α → β) :
    CutShort endLine (result.map f) := by
  obtain ⟨cause, mem, rfl⟩ := h
  exact ⟨cause, mem, rfl⟩

/-- A prefix of two parts ends within the first or goes on into the second. -/
theorem isPrefix_append_cases {first second : List Token} (h : part <+: first ++ second) :
    (part <+: first ∧ part ≠ first) ∨ ∃ more, part = first ++ more ∧ more <+: second := by
  rcases List.prefix_or_prefix_of_prefix h (List.prefix_append _ _) with within | ⟨more, rfl⟩
  · by_cases whole : part = first
    · exact .inr ⟨[], by rw [whole, List.append_nil], List.nil_prefix⟩
    · exact .inl ⟨within, whole⟩
  · exact .inr ⟨more, rfl, (List.prefix_append_right_inj _).mp h⟩

namespace Parser

variable {depth : Nat} {b : Bracket} {brackets : List Bracket}

theorem skipGroup_cut (h : Nested tokens) (cut : part <+: tokens) :
    CutShort endLine (skipGroup endLine (b :: brackets) part) := by
  induction h generalizing b brackets part with
  | nil =>
    rw [List.prefix_nil.mp cut]
    exact ⟨_, by simp, rfl⟩
  | token plain _ ih =>
    rcases List.prefix_cons_iff.mp cut with rfl | ⟨part, rfl, ahead⟩
    · exact ⟨_, by simp, rfl⟩
    · rw [skipGroup_plain plain]
      exact ih ahead
  | group opens body closes _ within others =>
    rcases List.prefix_cons_iff.mp cut with rfl | ⟨part, rfl, ahead⟩
    · exact ⟨_, by simp, rfl⟩
    rw [skipGroup_opening opens]
    rcases isPrefix_append_cases ahead with ⟨inside, -⟩ | ⟨more, rfl, behind⟩
    · exact within inside
    rw [skipGroup_nested body]
    rcases List.prefix_cons_iff.mp behind with rfl | ⟨more, rfl, outside⟩
    · exact ⟨_, by simp, rfl⟩
    · rw [skipGroup_closing closes]
      exact others outside

/-- What is left of a group that ends too early. -/
theorem exists_of_cut_group (endLine : Nat) {group : List Token} (h : Group b group)
    (cut : part <+: group) (short : part ≠ group) :
    part = [] ∨ ∃ opener inner, part = opener :: inner ∧ opener.kind = .opening b ∧
      CutShort endLine (skipGroup endLine [b] inner) := by
  obtain ⟨opens, body, closes⟩ := h
  rw [List.cons_append] at cut
  rcases List.prefix_cons_iff.mp cut with rfl | ⟨inner, rfl, ahead⟩
  · exact .inl rfl
  rcases List.prefix_concat_iff.mp ahead with rfl | inside
  · exact (short rfl).elim
  · exact .inr ⟨_, inner, rfl, opens, skipGroup_cut body inside⟩

theorem skipControl_nil (endLine depth : Nat) : CutShort endLine (skipControl endLine depth []) :=
  ⟨.unclosedControlBlock, by simp, by rw [skipControl]; rfl⟩

theorem skipControl_cut_head {head : List Token} {text : String} (h : ControlHead head text)
    (cut : part <+: head) (short : part ≠ head) :
    CutShort endLine (skipControl endLine depth part) := by
  obtain ⟨keyword_kind, opens, condition_group⟩ := h
  rcases List.prefix_cons_iff.mp cut with rfl | ⟨part, rfl, ahead⟩
  · exact skipControl_nil endLine depth
  rw [skipControl_cons, keyword_kind]
  dsimp only
  rw [if_neg (by simp [closesControl_eq_false opens]), if_pos opens]
  rcases exists_of_cut_group endLine condition_group ahead (by rintro rfl; exact short rfl)
    with rfl | ⟨opener, inner, rfl, round, unclosed⟩
  · exact skipControl_nil endLine depth
  · rw [condition?, if_pos round]
    exact unclosed.bind _

/-- In the body of a block, tokens end too early wherever they end. -/
theorem skipControl_cut (h : ControlBody anyEnd tokens) (cut : part <+: tokens) :
    CutShort endLine (skipControl endLine depth part) := by
  induction h generalizing depth part with
  | nil =>
    rw [List.prefix_nil.mp cut]
    exact skipControl_nil endLine depth
  | @token t tokens plain notClosing notControl _ ih =>
    rcases List.prefix_cons_iff.mp cut with rfl | ⟨part, rfl, ahead⟩
    · exact skipControl_nil endLine depth
    rw [skipControl_token plain notClosing]
    · exact ih ahead
    intro text kind opens
    cases part with
    | nil => rfl
    | cons u part =>
      obtain ⟨more, rfl⟩ := ahead
      exact if_neg fun round ↦ notControl (.mk kind opens round)
  | group body _ ih =>
    rcases isPrefix_append_cases cut with ⟨inside, short⟩ | ⟨part, rfl, ahead⟩
    · rcases exists_of_cut_group endLine body inside short with
        rfl | ⟨opener, inner, rfl, opens, unclosed⟩
      · exact skipControl_nil endLine depth
      · rw [skipControl_cons, opens]
        exact unclosed.bind _
    · rw [skipControl_group body]
      exact ih ahead
  | condition head_head noColon _ ih =>
    rcases isPrefix_append_cases cut with ⟨inside, short⟩ | ⟨part, rfl, ahead⟩
    · exact skipControl_cut_head head_head inside short
    have noColon : skipColon part = none := by
      refine skipColon_eq_none fun t first ↦ noColon t ?_
      obtain ⟨more, rfl⟩ := ahead
      rw [List.head?_append, first]
      rfl
    rw [skipControl_head head_head, noColon]
    exact ih ahead
  | block head_head colon_kind body last_kind closes _ within others =>
    rcases isPrefix_append_cases cut with ⟨inside, short⟩ | ⟨part, rfl, ahead⟩
    · exact skipControl_cut_head head_head inside short
    rw [skipControl_head head_head]
    rcases List.prefix_cons_iff.mp ahead with rfl | ⟨part, rfl, behind⟩
    · exact skipControl_nil endLine depth
    rw [skipColon_cons colon_kind]
    dsimp only
    rcases isPrefix_append_cases behind with ⟨inside, -⟩ | ⟨more, rfl, left⟩
    · exact within inside
    rcases List.prefix_cons_iff.mp left with rfl | ⟨more, rfl, outside⟩
    · rw [List.append_nil]
      exact within (List.prefix_refl _)
    · -- the block within is over, so the one around it is cut
      rw [skipControl_body body last_kind closes, skipControl_last last_kind closes]
      exact others outside

/-- A statement that ends too early ends the whole source. -/
theorem readItems_cut {t : Token} (notClosing : t.kind ≠ .closing .brace)
    (h : CutShort endLine (readStatement endLine (t :: tokens))) (blocks : List OpenBlock)
    (items : List Item) : CutShort endLine (readItems endLine blocks items (t :: tokens)) := by
  rw [readItems_cons, if_neg notClosing]
  exact h.bind _

theorem readItems_cut_body {head body : List Token} {colon : Token} {text : String}
    (head_head : ControlHead head text) (colon_kind : colon.kind = .colon)
    (body_body : ControlBody anyEnd body) (cut : part <+: body) (blocks : List OpenBlock)
    (items : List Item) :
    CutShort endLine (readItems endLine blocks items (head ++ colon :: part)) := by
  have read : CutShort endLine (readStatement endLine (head ++ colon :: part)) := by
    rw [readStatement_head head_head, skipColon_cons colon_kind]
    exact (skipControl_cut body_body cut).map _
  obtain ⟨keyword_kind, -, -⟩ := head_head
  exact readItems_cut (by simp [keyword_kind]) read blocks items

theorem readItems_cut_head {head : List Token} {text : String} (head_head : ControlHead head text)
    (cut : part <+: head) (long : 1 < part.length) (short : part ≠ head) (blocks : List OpenBlock)
    (items : List Item) : CutShort endLine (readItems endLine blocks items part) := by
  obtain ⟨keyword_kind, opens, condition_group⟩ := head_head
  rcases List.prefix_cons_iff.mp cut with rfl | ⟨part, rfl, ahead⟩
  · cases long
  rcases exists_of_cut_group endLine condition_group ahead (by rintro rfl; exact short rfl)
    with rfl | ⟨opener, inner, rfl, round, unclosed⟩
  · simp at long
  refine readItems_cut (by simp [keyword_kind]) ?_ blocks items
  rw [readStatement_control keyword_kind opens, readOther, skipStatement_eq, keyword_kind,
    condition?, if_pos round]
  dsimp only
  rw [if_pos opens]
  exact (unclosed.bind _).map _

end Parser

/-! ## Items that declare the same types -/

/-- The types among the statements that a header in front of the items would claim, and among those
after them. -/
def itemTypes (items : List Item) (enclosing : String) : List DeclaredType × List DeclaredType :=
  (Statement.typesOfAll enclosing (Statement.splitItems items).1,
    Statement.typesOfAll enclosing (Statement.splitItems items).2)

variable {items items' later later' : List Item}

theorem typesOfAll_ofItems_eq (same : itemTypes items = itemTypes items') (enclosing : String) :
    Statement.typesOfAll enclosing (Statement.ofItems items) =
      Statement.typesOfAll enclosing (Statement.ofItems items') := by
  have own := congrFun same enclosing
  simp only [itemTypes, Prod.mk.injEq] at own
  rw [Statement.ofItems, Statement.ofItems, Statement.typesOfAll_append,
    Statement.typesOfAll_append, own.1, own.2]

theorem itemTypes_append (items : List Item) (same : itemTypes later = itemTypes later') :
    itemTypes (items ++ later) = itemTypes (items ++ later') := by
  induction items with
  | nil => exact same
  | cons i items ih =>
    have own (enclosing : String) := congrFun ih enclosing
    simp only [itemTypes, Prod.mk.injEq] at own
    funext enclosing
    rcases i with ⟨name, line⟩ | ⟨⟨name, line, body⟩ | ⟨kind, name, line⟩ | -⟩
    all_goals simp only [itemTypes, List.cons_append, Statement.splitItems, Statement.typesOfAll,
      Statement.types, Statement.typesOfAll_append, (own _).1, (own _).2]

theorem itemTypes_other (later : List Item) :
    itemTypes (.statement .other :: later) = itemTypes later := by
  funext enclosing
  simp only [itemTypes, Statement.splitItems, Statement.typesOfAll, Statement.types,
    List.nil_append]

theorem itemTypes_block {body body' : List Statement} (name : Option String) (line line' : Nat)
    (same : ∀ enclosing, Statement.typesOfAll enclosing body = Statement.typesOfAll enclosing body')
    (later : List Item) :
    itemTypes (.statement (.namespaceBlock name line body) :: later) =
      itemTypes (.statement (.namespaceBlock name line' body') :: later) := by
  funext enclosing
  simp only [itemTypes, Statement.splitItems, Statement.typesOfAll, Statement.types, same]

/-- Items read, the last one first, to which the same types belong whatever is read behind them. -/
def Alike (items items' : List Item) : Prop :=
  ∀ later, itemTypes (items.reverse ++ later) = itemTypes (items'.reverse ++ later)

theorem Alike.cons (h : Alike items items') (i : Item) : Alike (i :: items) (i :: items') := by
  intro later
  rw [List.reverse_cons, List.reverse_cons, List.append_assoc, List.append_assoc]
  exact h _

theorem alike_other (items : List Item) : Alike (.statement .other :: items) items := by
  intro later
  rw [List.reverse_cons, List.append_assoc]
  exact itemTypes_append _ (itemTypes_other later)

theorem Alike.types (h : Alike items items') (enclosing : String) :
    Statement.typesOfAll enclosing (Statement.ofItems items.reverse) =
      Statement.typesOfAll enclosing (Statement.ofItems items'.reverse) := by
  have own := h []
  rw [List.append_nil, List.append_nil] at own
  exact typesOfAll_ofItems_eq own enclosing

namespace Parser

/-- A block that is closed, in the block around it. -/
def OpenBlock.close (block : OpenBlock) (items : List Item) : List Item :=
  .statement (.namespaceBlock block.name block.line (Statement.ofItems items.reverse)) ::
    block.before

/-- The types of what was read in a block and before it are the same. -/
structure OpenBlock.Alike (block block' : OpenBlock) : Prop where
  name : block.name = block'.name
  before : Source.Alike block.before block'.before

theorem OpenBlock.Alike.close {block block' : OpenBlock} (h : block.Alike block')
    (within : Source.Alike items items') :
    Source.Alike (block.close items) (block'.close items') := by
  intro later
  rw [OpenBlock.close, OpenBlock.close, List.reverse_cons, List.reverse_cons, List.append_assoc,
    List.append_assoc, h.name]
  exact (itemTypes_append _ (itemTypes_block _ _ _ within.types later)).trans (h.before _)

/-- What a source declares depends on the types of what was read, not on the statements. -/
theorem declaredTypes_readItems {blocks blocks' : List OpenBlock}
    (outside : List.Forall₂ OpenBlock.Alike blocks blocks') (within : Alike items items') :
    (readItems endLine blocks items tokens).map (declaredTypes ∘ Statement.ofItems) =
      (readItems endLine blocks' items' tokens).map (declaredTypes ∘ Statement.ofItems) := by
  induction tokens using induction_behind generalizing blocks blocks' items items' with
  | nil =>
    rw [readItems, readItems]
    cases outside with
    | nil => exact congrArg Except.ok (within.types "")
    | cons => rfl
  | cons t tokens ih =>
    rw [readItems_cons, readItems_cons]
    split
    · cases outside with
      | nil => rfl
      | cons block others => exact ih tokens le_rfl others (block.close within)
    · rename_i stays
      cases read : readStatement endLine (t :: tokens) with
      | error => rfl
      | ok step =>
        have shorter := Nat.le_of_lt_succ (length_readStatement_lt stays read)
        cases step with
        | item i after => exact ih after shorter outside (within.cons i)
        | enter name line after =>
          exact ih after shorter (.cons ⟨rfl, within⟩ outside) fun _ ↦ rfl

/-! ## Blocks -/

theorem readStatement_controlBlock (endLine : Nat) (block : ControlBlock) (rest : List Token) :
    readStatement endLine (block.tokens ++ rest) =
      .ok (.item (.statement .other) (behindSemicolon rest)) := by
  have closes := block.ends.closesControl
  rw [ControlBlock.tokens, List.append_assoc, readStatement_head block.head_head, List.cons_append,
    skipColon_cons block.colon_kind]
  dsimp only
  rw [List.append_assoc, List.singleton_append,
    skipControl_body block.body_body.anyEnd block.last_kind closes,
    skipControl_last block.last_kind closes]
  rfl

namespace Sample

def condition (word : String) : List Token :=
  [⟨.name word, 1, 6⟩, ⟨.opening .paren, 1, 8⟩, ⟨.name "x", 1, 9⟩, ⟨.closing .paren, 1, 10⟩]

theorem controlHead_condition {word : String} (opens : opensControl word) :
    ControlHead (condition word) word :=
  .mk rfl opens (@Group.mk .paren _ _ [⟨.name "x", 1, 9⟩] rfl (.token rfl .nil) rfl)

/-- A block with a class in the body of another block. -/
def body : List Token :=
  condition "while" ++ ⟨.colon, 1, 11⟩ ::
    ([⟨.name "class", 2, 12⟩, ⟨.name "A", 2, 18⟩, ⟨.opening .brace, 2, 20⟩,
      ⟨.closing .brace, 2, 21⟩] ++ ⟨.name "EndWhile", 3, 23⟩ :: [⟨.semicolon, 3, 31⟩])

theorem controlBody_body : ControlBody ownEnd body := by
  have notKeyword (word : String) (other : closesControl word = false) (text : String)
      (kind : TokenKind.name word = .name text) : ¬closesControl text := by
    cases kind
    simp [other]
  have classBody : Group .brace [⟨.opening .brace, 2, 20⟩, ⟨.closing .brace, 2, 21⟩] :=
    @Group.mk .brace _ _ [] rfl .nil rfl
  have plain (t u : Token) (rest : List Token) (other : u.kind ≠ .opening .paren) :
      ¬BeginsControl (t :: u :: rest) := by
    rintro ⟨-, -, round⟩
    exact other round
  have named : ControlBody ownEnd (⟨.name "A", 2, 18⟩ :: _) := .token rfl
    (notKeyword "A" (by cbv)) (plain _ _ _ (by decide)) (.group classBody .nil)
  have declared : ControlBody ownEnd (⟨.name "class", 2, 12⟩ :: _) := .token rfl
    (notKeyword "class" (by cbv)) (plain _ _ _ (by decide)) named
  have last : ControlBody ownEnd [⟨.semicolon, 3, 31⟩] :=
    .token rfl (by simp) (not_beginsControl (by simp)) .nil
  exact .block (controlHead_condition (by cbv)) rfl declared rfl ⟨"while", by decide, by cbv, by cbv⟩
    last

def block : ControlBlock where
  head := condition "If"
  keyword := "If"
  head_head := controlHead_condition (by cbv)
  colon := ⟨.colon, 1, 11⟩
  colon_kind := rfl
  body := body
  body_body := controlBody_body
  last := ⟨.name "ENDIF", 4, 33⟩
  lastWord := "ENDIF"
  last_kind := rfl
  ends := ⟨"if", by decide, by cbv, by cbv⟩

end Sample

end Parser

end ScriptCache.Source
