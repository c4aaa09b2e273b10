import ScriptCache.Proofs.Source.Accepted.Soundness
import ScriptCache.Proofs.Source.Document

/-!
# Names taken from tokens

Every name in the statements of a token stream is the text of a name token: that of a namespace
without the backslashes in front of it, that of a type as it is, and then it has no backslash. What
holds of the texts of all tokens in this way holds of all names.
-/

namespace ScriptCache.Source

variable {space own : String → Prop}

/-- What the token may give a name to: `space` holds of it as the name of a namespace, and `own` as
the name of a type, which has no backslash. -/
def Token.Spells (space own : String → Prop) (t : Token) : Prop :=
  ∀ text, t.kind = .name text → space (namespaceName text) ∧ ('\\' ∉ text.toList → own text)

theorem namespaceName_of_notMem {text : String} (plain : '\\' ∉ text.toList) :
    namespaceName text = text := by
  rw [namespaceName, List.dropWhile_eq_self_iff.mpr, String.ofList_toList]
  intro pos slash
  exact plain (by simpa using List.mem_of_getElem (of_decide_eq_true slash))

namespace Statement

mutual

/-- `space` holds of the names of namespaces in the statement, and `own` of those of types. -/
def Names (space own : String → Prop) : Statement → Prop
  | .namespaceBlock name _ body => (∀ text, name = some text → space text) ∧ NamesAll space own body
  | .declaration _ name _ => own name
  | .other => True

def NamesAll (space own : String → Prop) : List Statement → Prop
  | [] => True
  | s :: statements => Names space own s ∧ NamesAll space own statements

end

theorem namesAll_append {first second : List Statement} :
    NamesAll space own (first ++ second) ↔ NamesAll space own first ∧ NamesAll space own second := by
  induction first with
  | nil => simp [NamesAll]
  | cons s first ih => rw [List.cons_append, NamesAll, NamesAll, ih, and_assoc]

end Statement

def Item.Names (space own : String → Prop) : Item → Prop
  | .header name _ => space name
  | .statement s => s.Names space own

theorem namesAll_splitItems {items : List Item} (h : ∀ i ∈ items, i.Names space own) :
    Statement.NamesAll space own (Statement.splitItems items).1 ∧
      Statement.NamesAll space own (Statement.splitItems items).2 := by
  induction items with
  | nil => exact ⟨trivial, trivial⟩
  | cons i items ih =>
    obtain ⟨first, others⟩ := List.forall_mem_cons.mp h
    obtain ⟨claimed, later⟩ := ih others
    rcases i with ⟨name, line⟩ | ⟨⟨name, line, body⟩ | ⟨kind, name, line⟩ | -⟩
    · refine ⟨trivial, ⟨?_, claimed⟩, later⟩
      rintro _ ⟨⟩
      exact first
    · exact ⟨trivial, first, Statement.namesAll_append.mpr ⟨claimed, later⟩⟩
    · exact ⟨⟨first, claimed⟩, later⟩
    · exact ⟨⟨first, claimed⟩, later⟩

theorem namesAll_ofItems {items : List Item} (h : ∀ i ∈ items, i.Names space own) :
    Statement.NamesAll space own (Statement.ofItems items) :=
  Statement.namesAll_append.mpr (namesAll_splitItems h)

namespace Parser

variable {endLine : Nat} {t : Token} {tokens : List Token} {step : Step}

def Step.Names (space own : String → Prop) : Step → Prop
  | .item i _ => i.Names space own
  | .enter name _ _ => ∀ text, name = some text → space text

def OpenBlock.Names (space own : String → Prop) (block : OpenBlock) : Prop :=
  (∀ text, block.name = some text → space text) ∧ ∀ i ∈ block.before, i.Names space own

theorem names_readNamespace {line : Nat} (spells : ∀ t ∈ tokens, t.Spells space own)
    (h : readNamespace endLine line tokens = .ok step) : step.Names space own := by
  unfold readNamespace at h
  split at h
  · have first := (spells _ List.mem_cons_self _ rfl).1
    simp only at h
    split at h
    · cases h
      exact first
    · cases h
      rintro _ ⟨⟩
      exact first
    · cases h
  · cases h
    rintro _ ⟨⟩
  · cases h

theorem names_readType {line : Nat} {kind : TypeKind} (spells : ∀ t ∈ tokens, t.Spells space own)
    (h : readType endLine line kind tokens = .ok step) : step.Names space own := by
  unfold readType at h
  split at h
  · have first := (spells _ List.mem_cons_self _ rfl).2
    split at h
    · cases h
    · rename_i plain
      obtain ⟨_, -, eq⟩ := Lexer.eq_ok_of_map_eq_ok h
      cases eq
      exact first (by simpa using plain)
  · cases h

theorem names_readOther (h : readOther endLine t tokens = .ok step) : step.Names space own := by
  obtain ⟨_, -, eq⟩ := Lexer.eq_ok_of_map_eq_ok h
  cases eq
  trivial

theorem names_readPlain (spells : ∀ u ∈ t :: tokens, u.Spells space own)
    (h : readPlain endLine t tokens = .ok step) : step.Names space own := by
  obtain ⟨-, others⟩ := List.forall_mem_cons.mp spells
  unfold readPlain at h
  split at h
  · split at h
    · exact names_readNamespace others h
    split at h
    · cases h
      trivial
    split at h
    · exact names_readOther h
    split at h
    · rename_i declared
      obtain ⟨modifiers, keyword, _, eq, -⟩ := exists_of_declared? declared
      rw [eq] at spells
      have behind := (List.forall_mem_append.mp spells).2
      exact names_readType (List.forall_mem_cons.mp behind).2 h
    · exact names_readOther h
  · exact names_readOther h

theorem names_readStatement (spells : ∀ t ∈ tokens, t.Spells space own)
    (h : readStatement endLine tokens = .ok step) : step.Names space own := by
  have suffix := List.dropWhile_suffix isAttribute (l := tokens)
  unfold readStatement at h
  split at h
  · cases h
    trivial
  · rename_i ahead
    rw [ahead] at suffix
    split at h
    · cases h
      trivial
    · exact names_readPlain (fun u mem ↦ spells u (suffix.subset mem)) h

/-- Names are taken from tokens, with nothing but backslashes in front left out. -/
theorem names_readItems {blocks : List OpenBlock} {items all : List Item} (last : HaltsLast tokens)
    (spells : ∀ t ∈ tokens, t.Spells space own) (items_names : ∀ i ∈ items, i.Names space own)
    (blocks_names : ∀ block ∈ blocks, block.Names space own)
    (h : readItems endLine blocks items tokens = .ok all) : ∀ i ∈ all, i.Names space own := by
  replace h := readsItems_of_readItems h
  induction h with
  | ended => exact fun i mem ↦ items_names i (List.mem_reverse.mp mem)
  | closes _ _ ih =>
    obtain ⟨⟨name_space, before_names⟩, outer_names⟩ := List.forall_mem_cons.mp blocks_names
    refine ih (last.suffix (List.suffix_cons ..)) (List.forall_mem_cons.mp spells).2
      (List.forall_mem_cons.mpr ⟨⟨name_space, ?_⟩, before_names⟩) outer_names
    exact namesAll_ofItems fun i mem ↦ items_names i (List.mem_reverse.mp mem)
  | item _ read _ ih =>
    have suffix := (takes_readStatement last read).suffix
    have i_names := names_readStatement spells read
    exact ih (last.suffix suffix) (fun u mem ↦ spells u (suffix.subset mem))
      (List.forall_mem_cons.mpr ⟨i_names, items_names⟩) blocks_names
  | enter _ read _ ih =>
    have suffix := (takes_readStatement last read).suffix
    have name_names := names_readStatement spells read
    exact ih (last.suffix suffix) (fun u mem ↦ spells u (suffix.subset mem)) (by simp)
      (List.forall_mem_cons.mpr ⟨⟨name_names, items_names⟩, blocks_names⟩)

end Parser

theorem Statement.namesAll_ofTokens {stream : TokenStream} {statements : List Statement}
    (last : Parser.HaltsLast stream.tokens) (spells : ∀ t ∈ stream.tokens, t.Spells space own)
    (h : Statement.ofTokens stream = .ok statements) : NamesAll space own statements := by
  obtain ⟨items, read, rfl⟩ := Lexer.eq_ok_of_map_eq_ok h
  exact namesAll_ofItems (Parser.names_readItems last spells (by simp) (by simp) read)

end ScriptCache.Source
