import ScriptCache.Proofs.Source.Document
import ScriptCache.Proofs.Source.Equations
import ScriptCache.Source.Declaration

/-!
# Namespace prefixes in one pass

Statements are grouped under namespace headers first, and the types of the tree are named later. One
pass over the items as they are written, with the prefix that holds at each of them, names the same
types in the same order. In a block it starts again, with the name of the block behind the prefixes
of the blocks around it.
-/

namespace ScriptCache.Source

/-- An item as it is written. What stands in a block is not grouped yet. -/
inductive Entry where
  | header (name : String) (line : Nat)
  | block (name : Option String) (line : Nat) (body : List Entry)
  | declaration (kind : TypeKind) (name : String) (line : Nat)
  | other
  deriving Repr

/-- What a namespace puts in front of the names in it. One without a name adds nothing. -/
def within (enclosing : String) (name : Option String) : String :=
  name.elim enclosing fun own ↦ enclosing ++ own ++ "\\"

namespace Entry

mutual

/-- The item with the statements in a block grouped. -/
def item : Entry → Item
  | .header name line => .header name line
  | .block name line body => .statement (.namespaceBlock name line (Statement.ofItems (items body)))
  | .declaration kind name line => .statement (.declaration kind name line)
  | .other => .statement .other

def items : List Entry → List Item
  | [] => []
  | e :: entries => e.item :: items entries

end

/-- The prefix behind an entry: that of a header holds from there on, and a block ends it. -/
def follow (enclosing current : String) : Entry → String
  | .header name _ => within enclosing (some name)
  | .block _ _ _ => enclosing
  | .declaration _ _ _ => current
  | .other => current

mutual

/-- The types named at an entry. -/
def named (enclosing current : String) : Entry → List DeclaredType
  | .header _ _ => []
  | .block name _ body => pass (within enclosing name) (within enclosing name) body
  | .declaration kind name _ => [⟨kind, current ++ name⟩]
  | .other => []

/-- The pass from left to right, in a block whose prefix is `enclosing`. -/
def pass (enclosing current : String) : List Entry → List DeclaredType
  | [] => []
  | e :: entries => named enclosing current e ++ pass enclosing (follow enclosing current e) entries

end

mutual

/-- The kinds and the own names of the types, in the order in which they are written. -/
def declarations : Entry → List (TypeKind × String)
  | .header _ _ => []
  | .block _ _ body => declarationsOfAll body
  | .declaration kind name _ => [(kind, name)]
  | .other => []

def declarationsOfAll : List Entry → List (TypeKind × String)
  | [] => []
  | e :: entries => declarations e ++ declarationsOfAll entries

end

end Entry

namespace Statement

theorem types_namespaceBlock (enclosing : String) (name : Option String) (line : Nat)
    (body : List Statement) :
    types enclosing (.namespaceBlock name line body) = typesOfAll (within enclosing name) body := by
  rw [types]
  rfl

end Statement

namespace Entry

open Statement (splitItems typesOfAll typesOfAll_append types_namespaceBlock)

variable {enclosing current : String}

mutual

/-- The invariant of the pass: what an open header owns is named with the current prefix, and what
stands behind its end with that of the block around it. -/
theorem pass_eq (enclosing current : String) : (entries : List Entry) →
    pass enclosing current entries =
      typesOfAll current (splitItems (items entries)).1 ++
        typesOfAll enclosing (splitItems (items entries)).2
  | [] => rfl
  | .header name line :: entries => by
    have behind := pass_eq enclosing (within enclosing (some name)) entries
    rw [pass, named, follow, behind, items, item, splitItems]
    dsimp only
    rw [typesOfAll, typesOfAll, types_namespaceBlock]
  | .block name line body :: entries => by
    have inside := pass_ofItems (within enclosing name) body
    have behind := pass_eq enclosing enclosing entries
    rw [pass, named, follow, inside, behind, items, item, splitItems]
    dsimp only
    rw [typesOfAll, typesOfAll, types_namespaceBlock, typesOfAll_append]
    rfl
  | .declaration kind name line :: entries => by
    have behind := pass_eq enclosing current entries
    rw [pass, named, follow, behind, items, item, splitItems]
    · rfl
    · rintro _ _ _ ⟨⟩
  | .other :: entries => by
    have behind := pass_eq enclosing current entries
    rw [pass, named, follow, behind, items, item, splitItems]
    · rfl
    · rintro _ _ _ ⟨⟩

theorem pass_ofItems (enclosing : String) (entries : List Entry) :
    pass enclosing enclosing entries = typesOfAll enclosing (Statement.ofItems (items entries)) := by
  rw [pass_eq enclosing enclosing entries, Statement.ofItems, typesOfAll_append]

end

/-- The kind is that of the declaration, and the name ends with its own. -/
def Names (type : DeclaredType) (declaration : TypeKind × String) : Prop :=
  type.kind = declaration.1 ∧ ∃ front, type.name = front ++ declaration.2

mutual

theorem names_named (enclosing current : String) : (e : Entry) →
    List.Forall₂ Names (named enclosing current e) (declarations e)
  | .header _ _ => .nil
  | .block name _ body => names_pass (within enclosing name) (within enclosing name) body
  | .declaration _ _ _ => .cons ⟨rfl, current, rfl⟩ .nil
  | .other => .nil

/-- Every declaration is named once, at its place. -/
theorem names_pass (enclosing current : String) : (entries : List Entry) →
    List.Forall₂ Names (pass enclosing current entries) (declarationsOfAll entries)
  | [] => .nil
  | e :: entries =>
    List.rel_append (names_named enclosing current e)
      (names_pass enclosing (follow enclosing current e) entries)

end

/-! ## Any tree as a body -/

mutual

/-- The statement with every namespace written as a block. -/
def ofStatement : Statement → Entry
  | .namespaceBlock name line body => .block name line (ofStatements body)
  | .declaration kind name line => .declaration kind name line
  | .other => .other

def ofStatements : List Statement → List Entry
  | [] => []
  | s :: statements => ofStatement s :: ofStatements statements

end

def ofItem : Item → Entry
  | .header name line => .header name line
  | .statement s => ofStatement s

mutual

theorem item_ofStatement : (s : Statement) → (ofStatement s).item = .statement s
  | .namespaceBlock name line body => by
    rw [ofStatement, item, ofItems_ofStatements body]
  | .declaration _ _ _ => rfl
  | .other => rfl

theorem ofItems_ofStatements : (statements : List Statement) →
    Statement.ofItems (items (ofStatements statements)) = statements
  | [] => rfl
  | s :: statements => by
    rw [ofStatements, items, item_ofStatement s, Grouped.ofItems_statement,
      ofItems_ofStatements statements]

end

theorem item_ofItem (i : Item) : (ofItem i).item = i := by
  cases i with
  | header => rfl
  | statement s => exact item_ofStatement s

theorem items_eq_map (entries : List Entry) : items entries = entries.map item := by
  induction entries with
  | nil => rfl
  | cons e entries ih => rw [items, ih, List.map_cons]

theorem items_ofItem (is : List Item) : items (is.map ofItem) = is := by
  rw [items_eq_map, List.map_map]
  exact List.map_id'' item_ofItem is

end Entry

/-! ## Reading without grouping -/

namespace Parser

/-- A block that is open, with the entries in front of it, the last one first. -/
structure OpenEntry where
  name : Option String
  line : Nat
  before : List Entry

def OpenEntry.block (block : OpenEntry) : OpenBlock :=
  ⟨block.name, block.line, Entry.items block.before⟩

/-- Reads what `readItems` reads, and leaves the items in a block as they are written. -/
def readEntries (endLine : Nat) (blocks : List OpenEntry) (entries : List Entry)
    (tokens : List Token) : Except ParseError (List Entry) :=
  match tokens with
  | [] => if blocks.isEmpty then .ok entries.reverse else fail endLine [] .unclosedNamespace
  | t :: rest =>
    if t.kind = .closing .brace then
      match blocks with
      | [] => fail endLine (t :: rest) .unmatchedBrace
      | block :: outer =>
        readEntries endLine outer (.block block.name block.line entries.reverse :: block.before) rest
    else
      match _step : readStatement endLine (t :: rest) with
      | .error e => .error e
      | .ok (.item i after) => readEntries endLine blocks (Entry.ofItem i :: entries) after
      | .ok (.enter name line after) => readEntries endLine (⟨name, line, entries⟩ :: blocks) [] after
termination_by tokens.length
decreasing_by
  · exact Nat.lt_succ_self _
  · exact length_readStatement_lt ‹_› _step
  · exact length_readStatement_lt ‹_› _step

theorem items_readEntries (endLine : Nat) (blocks : List OpenEntry) (entries : List Entry)
    (tokens : List Token) :
    readItems endLine (blocks.map OpenEntry.block) (Entry.items entries) tokens =
      (readEntries endLine blocks entries tokens).map Entry.items := by
  have reversed (entries : List Entry) :
      (Entry.items entries).reverse = Entry.items entries.reverse := by
    rw [Entry.items_eq_map, Entry.items_eq_map, List.map_reverse]
  fun_induction readEntries endLine blocks entries tokens with
  | case1 blocks entries none =>
    rw [readItems, reversed]
    simp_all [Except.map]
  | case2 blocks entries open' =>
    rw [readItems]
    simp_all [Except.map, fail]
  | case3 entries t rest closes =>
    rw [readItems_cons, if_pos closes]
    rfl
  | case4 entries t rest closes block outer ih =>
    rw [List.unattach_reverse, List.unattach_attach] at ih
    rw [readItems_cons, if_pos closes, ← ih, Entry.items, Entry.item, ← reversed]
    rfl
  | case5 blocks entries t rest open' e step =>
    rw [readItems_cons, if_neg open', step]
    rfl
  | case6 blocks entries t rest open' i after step ih =>
    rw [readItems_cons, if_neg open', step, ← ih, Entry.items, Entry.item_ofItem]
    rfl
  | case7 blocks entries t rest open' name line after step ih =>
    rw [readItems_cons, if_neg open', step, ← ih]
    rfl

end Parser

/-- The entries of a token stream. -/
def Entry.ofTokens (stream : TokenStream) : Except ParseError (List Entry) :=
  Parser.readEntries stream.endLine [] [] stream.tokens

theorem ofTokens_eq_entries (stream : TokenStream) :
    Statement.ofTokens stream =
      (Entry.ofTokens stream).map fun entries ↦ Statement.ofItems (Entry.items entries) := by
  have read := Parser.items_readEntries stream.endLine [] [] stream.tokens
  rw [List.map_nil, Entry.items] at read
  rw [Statement.ofTokens, read, Entry.ofTokens]
  cases Parser.readEntries stream.endLine [] [] stream.tokens <;> rfl

/-- Grouping the items and naming the types of the tree is one pass over the items, at file level and
in every block, and each declaration is named once, at its place. Any list of items with any trees as
bodies is the grouped form of such entries, and what a source has is read without grouping, too. -/
theorem declaredTypes_in_one_pass :
    (∀ (enclosing : String) (entries : List Entry),
      Statement.typesOfAll enclosing (Statement.ofItems (Entry.items entries)) =
          Entry.pass enclosing enclosing entries ∧
        List.Forall₂ Entry.Names (Entry.pass enclosing enclosing entries)
          (Entry.declarationsOfAll entries)) ∧
      (∀ entries : List Entry,
        declaredTypes (Statement.ofItems (Entry.items entries)) = Entry.pass "" "" entries) ∧
      (∀ items : List Item, Entry.items (items.map Entry.ofItem) = items ∧
        declaredTypes (Statement.ofItems items) = Entry.pass "" "" (items.map Entry.ofItem)) ∧
      ∀ stream : TokenStream, (Statement.ofTokens stream).map declaredTypes =
        (Entry.ofTokens stream).map (Entry.pass "" "") := by
  have whole (entries : List Entry) :
      declaredTypes (Statement.ofItems (Entry.items entries)) = Entry.pass "" "" entries :=
    (Entry.pass_ofItems "" entries).symm
  refine ⟨fun enclosing entries ↦ ⟨(Entry.pass_ofItems enclosing entries).symm,
    Entry.names_pass enclosing enclosing entries⟩, whole, fun items ↦ ?_, fun stream ↦ ?_⟩
  · have same := Entry.items_ofItem items
    have types := whole (items.map Entry.ofItem)
    rw [same] at types
    exact ⟨same, types⟩
  · rw [ofTokens_eq_entries]
    cases Entry.ofTokens stream with
    | error => rfl
    | ok entries => exact congrArg Except.ok (whole entries)

/-- A header in a block adds to the name of the block, and a block ends the header in front of it. -/
example : Entry.pass "" "" [.header "A" 1, .declaration .classType "X" 2,
    .block (some "B") 3 [.header "C" 4, .declaration .enumType "Y" 5],
    .declaration .traitType "Z" 6] =
    [⟨.classType, "A\\X"⟩, ⟨.enumType, "B\\C\\Y"⟩, ⟨.traitType, "Z"⟩] := by
  decide

end ScriptCache.Source
