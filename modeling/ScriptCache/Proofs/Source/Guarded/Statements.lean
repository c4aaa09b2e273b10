import ScriptCache.Proofs.Source.Guarded.Groups

/-!
# Statements by position

Every statement is read at a position as it is read from the tokens ahead. What it leaves is what
is left of these.
-/

namespace ScriptCache.Source

namespace Parser

variable {endLine : Nat} {t : Token} {tokens rest : List Token}

theorem suffix_of_skipExpression {depth : Nat} (h : skipExpression endLine depth tokens = .ok rest) :
    rest <:+ tokens := by
  obtain ⟨own, rfl, -⟩ := exists_of_skipExpression h
  exact List.suffix_append ..

theorem suffix_of_skipControl (h : skipControl endLine 0 tokens = .ok rest) : rest <:+ tokens := by
  obtain ⟨body, last, _, after, rfl, -, -, -, leaves⟩ := exists_of_skipControl h
  have behind := (takes_leaves leaves).suffix
  exact (behind.trans (List.suffix_cons ..)).trans (List.suffix_append ..)

theorem suffix_of_skipTypeBody {name : String} (h : skipTypeBody endLine name tokens = .ok rest) :
    rest <:+ tokens := by
  obtain ⟨header, body, rfl, -⟩ := exists_of_skipTypeBody h
  exact List.suffix_append ..

theorem suffix_of_skipStatement (h : skipStatement endLine t tokens = .ok rest) :
    rest <:+ t :: tokens := by
  rw [skipStatement_eq] at h
  split at h
  · rename_i condition
    split at h
    · obtain ⟨after, skipped, h⟩ := exists_of_bind h
      have inside := (suffix_of_condition? condition).trans (List.suffix_cons t tokens)
      have behind := (suffix_of_skipGroup skipped).trans inside
      split at h
      · rename_i colon
        exact ((suffix_of_skipControl h).trans (suffix_of_skipColon colon)).trans behind
      · exact (suffix_of_skipExpression h).trans behind
    · exact suffix_of_skipExpression h
  · exact suffix_of_skipExpression h

theorem suffix_of_readOther {step : Step} (h : readOther endLine t tokens = .ok step) :
    step.rest <:+ t :: tokens := by
  obtain ⟨after, skipped, rfl⟩ := Lexer.eq_ok_of_map_eq_ok h
  exact suffix_of_skipStatement skipped

theorem suffix_of_readNamespace {step : Step} {line : Nat}
    (h : readNamespace endLine line tokens = .ok step) : step.rest <:+ tokens := by
  unfold readNamespace at h
  split at h
  · dsimp only at h
    split at h <;> cases h
    · exact List.suffix_append [_, _] _
    · exact List.suffix_append [_, _] _
  · cases h
    exact List.suffix_cons ..
  · cases h

theorem suffix_of_readType {step : Step} {line : Nat} {kind : TypeKind}
    (h : readType endLine line kind tokens = .ok step) : step.rest <:+ tokens := by
  unfold readType at h
  split at h
  · split at h
    · cases h
    · obtain ⟨after, skipped, rfl⟩ := Lexer.eq_ok_of_map_eq_ok h
      exact (suffix_of_skipTypeBody skipped).trans (List.suffix_cons ..)
  · cases h

theorem suffix_of_declared? {kind : TypeKind} (h : declared? tokens = some (kind, rest)) :
    rest <:+ tokens := by
  obtain ⟨modifiers, keyword, _, rfl, -⟩ := exists_of_declared? h
  exact (List.suffix_cons ..).trans (List.suffix_append ..)

theorem suffix_of_readPlain {step : Step} (h : readPlain endLine t tokens = .ok step) :
    step.rest <:+ t :: tokens := by
  unfold readPlain at h
  split at h
  · split at h
    · exact (suffix_of_readNamespace h).trans (List.suffix_cons ..)
    split at h
    · cases h
      exact List.nil_suffix
    split at h
    · exact suffix_of_readOther h
    split at h
    · rename_i declared
      exact (suffix_of_readType h).trans (suffix_of_declared? declared)
    · exact suffix_of_readOther h
  · exact suffix_of_readOther h

theorem suffix_of_readStatement {step : Step} (h : readStatement endLine tokens = .ok step) :
    step.rest <:+ tokens := by
  have ahead := List.dropWhile_suffix isAttribute (l := tokens)
  unfold readStatement at h
  split at h
  · cases h
    exact List.nil_suffix
  · rename_i plain
    rw [plain] at ahead
    split at h
    · cases h
      exact ahead
    · exact (suffix_of_readPlain h).trans ahead

theorem readStatement_group (isGroup : t.kind = .attributeGroup) :
    readStatement endLine (t :: rest) = readStatement endLine rest := by
  have passes : isAttribute t := decide_eq_true isGroup
  rw [readStatement, List.dropWhile_cons_of_pos passes, readStatement]

theorem readStatement_plain (notGroup : t.kind ≠ .attributeGroup)
    (notClosing : t.kind ≠ .closing .brace) :
    readStatement endLine (t :: rest) = readPlain endLine t rest := by
  have stops : ¬isAttribute t := by simpa [isAttribute] using notGroup
  rw [readStatement, List.dropWhile_cons_of_neg stops]
  exact if_neg notClosing

theorem readStatement_closing (closes : t.kind = .closing .brace) :
    readStatement endLine (t :: rest) = .ok (.item (.statement .other) (t :: rest)) := by
  have stops : ¬isAttribute t := by simp [isAttribute, closes]
  rw [readStatement, List.dropWhile_cons_of_neg stops]
  exact if_pos closes

end Parser

namespace Guarded

open ScriptCache.Source.Parser (isModifier typeKeyword)

variable {stream : TokenStream} {t : Token} {rest tokens : List Token}

/-! ## Types -/

theorem leadsToType_place (before ahead : List Token) (inside : before ++ ahead <:+ stream.tokens) :
    leadsToType stream (place stream (before ++ ahead)) before.length =
      .ok (Parser.declared? ahead).isSome := by
  induction ahead generalizing before with
  | nil =>
    have here : kindAt stream (place stream (before ++ [])) before.length = none := by
      rw [kindAt_place inside, List.append_nil, List.getElem?_eq_none (Nat.le_refl _)]
      rfl
    apply loop_leave
    simp only [here]
    rfl
  | cons t ahead ih =>
    have here : kindAt stream (place stream (before ++ t :: ahead)) before.length = some t.kind := by
      simp [kindAt_place inside]
    have split : before ++ t :: ahead = before ++ [t] ++ ahead := by simp
    have further := ih (before ++ [t]) (split ▸ inside)
    rw [← split, List.length_append, List.length_singleton] at further
    obtain ⟨kind, line, offset⟩ := t
    cases kind with
    | name text =>
      rw [Parser.declared?]
      by_cases modifier : isModifier text
      · rw [if_pos modifier]
        have length := inside.length_le
        rw [List.length_append, List.length_cons] at length
        refine (loop_again ?_ ?_).trans further
        · simp only [here, if_pos modifier]
        · rw [place, List.length_append, List.length_cons]
          omega
      · rw [if_neg modifier, Option.isSome_map]
        apply loop_leave
        simp only [here, if_neg modifier]
    | _ =>
      apply loop_leave
      simp only [here]
      rfl

theorem readKeyword_place {kind : TypeKind} (inside : tokens <:+ stream.tokens)
    (declared : Parser.declared? tokens = some (kind, rest)) :
    readKeyword stream (place stream tokens) = .ok (kind, place stream rest) := by
  induction tokens with
  | nil => cases declared
  | cons t tokens ih =>
    have here := kindHere_cons inside
    obtain ⟨kind', line, offset⟩ := t
    cases kind' with
    | name text =>
      rw [Parser.declared?] at declared
      by_cases modifier : isModifier text
      · rw [if_pos modifier] at declared
        refine (loop_pass inside ?_).trans (ih (inside_tail inside) declared)
        simp only [here, if_pos modifier]
      · rw [if_neg modifier] at declared
        obtain ⟨_, keyword, eq⟩ := Option.map_eq_some_iff.mp declared
        cases eq
        apply loop_leave
        simp only [here, if_neg modifier, keyword, pass_place inside]
    | _ => cases declared

theorem findBody_group {name : String} {b : Bracket} (inside : t :: rest <:+ stream.tokens)
    (opens : t.kind = .opening b) (ne : b ≠ .brace) :
    findBody stream name (place stream (t :: rest)) =
      (skipBrackets stream (place stream (t :: rest)) >>= findBody stream name) := by
  have here := kindHere_cons inside
  rw [opens] at here
  have skips := skipBrackets_place inside opens
  cases skipped : Parser.skipGroup stream.endLine [b] rest with
  | error e =>
    rw [skipped] at skips
    rw [skips]
    apply loop_error
    cases b with
    | brace => contradiction
    | _ => simp only [here, skips]; rfl
  | ok after =>
    have behind := Parser.suffix_of_skipGroup skipped
    have further := place_further inside (behind.trans (inside_tail inside))
      (Nat.lt_succ_of_le behind.length_le)
    rw [skipped] at skips
    rw [skips]
    refine loop_again ?_ further
    cases b with
    | brace => contradiction
    | _ => simp only [here, skips]; rfl

theorem findBody_missing (name : String) (inside : t :: rest <:+ stream.tokens)
    (ends : t.kind = .semicolon ∨ t.kind = .closing .brace) :
    findBody stream name (place stream (t :: rest)) =
      refuse stream (place stream (t :: rest)) (.missingTypeBody name) := by
  have here := kindHere_cons inside
  apply loop_error
  rcases ends with kind | kind <;> simp only [here, kind] <;> rfl

section Body

variable (name : String) (inside : t :: rest <:+ stream.tokens)
  (later : ∀ after, after <:+ rest →
    (findBody stream name (place stream after) >>= skipBrackets stream) =
      same (place stream) (Parser.skipTypeBody stream.endLine name after))
include inside later

theorem findBody_opening {b : Bracket} (kind : t.kind = .opening b) :
    (findBody stream name (place stream (t :: rest)) >>= skipBrackets stream) =
      same (place stream) (Parser.skipTypeBody stream.endLine name (t :: rest)) := by
  have here := kindHere_cons inside
  have group (ne : b ≠ .brace) :
      (findBody stream name (place stream (t :: rest)) >>= skipBrackets stream) =
        same (place stream) ((Parser.skipGroup stream.endLine [b] rest).bind
          (Parser.skipTypeBody stream.endLine name)) := by
    rw [findBody_group inside kind ne, skipBrackets_place inside kind]
    cases skipped : Parser.skipGroup stream.endLine [b] rest with
    | error e => rfl
    | ok after => exact later after (Parser.suffix_of_skipGroup skipped)
  rw [Parser.skipTypeBody_cons, kind]
  cases b with
  | brace =>
    have found : findBody stream name (place stream (t :: rest)) = .ok (place stream (t :: rest)) := by
      apply loop_leave
      simp only [here, kind]
    rw [found]
    exact skipBrackets_place inside kind
  | _ => exact group (by decide)

end Body

/-- The body of a type is found and skipped. -/
theorem findBody_place (name : String) (inside : tokens <:+ stream.tokens) :
    (findBody stream name (place stream tokens) >>= skipBrackets stream) =
      same (place stream) (Parser.skipTypeBody stream.endLine name tokens) := by
  induction tokens using induction_behind with
  | nil =>
    have here := kindHere_place inside
    have missing : findBody stream name (place stream []) =
        refuse stream (place stream []) (.missingTypeBody name) := by
      apply loop_error
      simp only [here, List.head?_nil, Option.map_none]
      rfl
    rw [Parser.skipTypeBody, missing, ← refuse_place inside]
    rfl
  | cons t rest ih =>
    have here := kindHere_cons inside
    have later (after : List Token) (behind : after <:+ rest) :=
      ih after behind.length_le (behind.trans (inside_tail inside))
    have missing (ends : t.kind = .semicolon ∨ t.kind = .closing .brace) :
        (findBody stream name (place stream (t :: rest)) >>= skipBrackets stream) =
          same (place stream) (Parser.fail stream.endLine (t :: rest) (.missingTypeBody name)) := by
      rw [findBody_missing name inside ends, ← refuse_place inside]
      rfl
    have pass (h : findBody stream name (place stream (t :: rest)) =
        findBody stream name (place stream rest)) :
        (findBody stream name (place stream (t :: rest)) >>= skipBrackets stream) =
          same (place stream) (Parser.skipTypeBody stream.endLine name rest) := by
      rw [h]
      exact later rest (List.suffix_refl _)
    cases kind : t.kind with
    | opening b => exact findBody_opening name inside later kind
    | semicolon =>
      rw [Parser.skipTypeBody_cons, kind]
      exact missing (.inl kind)
    | closing b =>
      rw [Parser.skipTypeBody_cons, kind]
      cases b with
      | brace => exact missing (.inr kind)
      | _ =>
        apply pass
        apply loop_pass inside
        simp only [here, kind]
    | _ =>
      rw [Parser.skipTypeBody_cons, kind]
      apply pass
      apply loop_pass inside
      simp only [here, kind]

/-! ## Statements -/

/-- What a statement comes to. A block that opens is read by a call of its own. -/
def settle (stream : TokenStream) : Parser.Step → Guarded (Item × Nat)
  | .item i rest => .ok (i, place stream rest)
  | .enter name line rest =>
    (readStatements stream true (place stream rest) []).map fun read ↦
      (.statement (.namespaceBlock name line read.1), read.2)

theorem refuse_settle (inside : tokens <:+ stream.tokens) (cause : Cause) :
    refuse stream (place stream tokens) cause =
      (same id (Parser.fail stream.endLine tokens cause) >>= settle stream) := by
  rw [refuse, lineHere_place inside]
  rfl

theorem readOther_place (inside : t :: rest <:+ stream.tokens) :
    readOther stream (place stream (t :: rest)) =
      (same id (Parser.readOther stream.endLine t rest) >>= settle stream) := by
  rw [readOther, skipStatement_place inside, Parser.readOther]
  cases Parser.skipStatement stream.endLine t rest <;> rfl

theorem readType_place {kind : TypeKind} {after : List Token} (inside : t :: rest <:+ stream.tokens)
    (declared : Parser.declared? (t :: rest) = some (kind, after)) :
    readType stream (place stream (t :: rest)) =
      (same id (Parser.readType stream.endLine t.line kind after) >>= settle stream) := by
  have behind := (Parser.suffix_of_declared? declared).trans inside
  have line : lineHere stream (place stream (t :: rest)) = t.line := lineHere_place inside
  rw [readType, readKeyword_place inside declared, ok_bind, line]
  cases after with
  | nil =>
    have here := kindHere_place behind
    simp only [here, List.head?_nil, Option.map_none]
    exact refuse_settle behind _
  | cons nameToken after =>
    have here := kindHere_cons behind
    obtain ⟨kind', l, offset⟩ := nameToken
    cases kind' with
    | name name =>
      simp only [here]
      rw [Parser.readType]
      by_cases qualified : name.contains '\\'
      · rw [if_pos qualified, if_pos qualified]
        exact refuse_settle behind _
      · have body := findBody_place name (inside_tail behind)
        rw [if_neg qualified, if_neg qualified, pass_place behind, ← bind_assoc, body]
        cases Parser.skipTypeBody stream.endLine name after <;> rfl
    | _ =>
      simp only [here]
      exact refuse_settle behind _

theorem enter_place {name : Option String} {line : Nat} (inside : tokens <:+ stream.tokens)
    (within : rest <:+ stream.tokens) (shorter : rest.length < tokens.length) :
    (onward stream.tokens.length (place stream tokens) (fun next ↦ next) (.ok (place stream rest))
      fun body _ ↦ (readStatements stream true body []).map fun read ↦
        (Item.statement (.namespaceBlock name line read.1), read.2)) =
      settle stream (.enter name line rest) := by
  refine onward_ok ?_
  exact place_further inside within shorter

theorem readNamespace_place (inside : t :: rest <:+ stream.tokens) :
    readNamespace stream (place stream (t :: rest)) =
      (same id (Parser.readNamespace stream.endLine t.line rest) >>= settle stream) := by
  have tail := inside_tail inside
  have line : lineHere stream (place stream (t :: rest)) = t.line := lineHere_place inside
  rw [readNamespace]
  simp only [line, pass_place inside]
  cases rest with
  | nil =>
    have here := kindHere_place tail
    simp only [here, List.head?_nil, Option.map_none]
    exact refuse_settle tail _
  | cons nameToken rest =>
    have here := kindHere_cons tail
    have behind := inside_tail tail
    obtain ⟨kind, l, offset⟩ := nameToken
    cases kind with
    | name text =>
      simp only [here, pass_place tail]
      cases rest with
      | nil =>
        have here := kindHere_place behind
        simp only [here, List.head?_nil, Option.map_none]
        exact refuse_settle behind _
      | cons mark rest =>
        have here := kindHere_cons behind
        obtain ⟨kind, l', offset'⟩ := mark
        cases kind with
        | semicolon =>
          simp only [here, pass_place behind]
          rfl
        | opening b =>
          cases b with
          | brace =>
            simp only [here, pass_place behind]
            exact enter_place inside (inside_tail behind) (by simp only [List.length_cons]; omega)
          | _ =>
            simp only [here]
            exact refuse_settle behind _
        | _ =>
          simp only [here]
          exact refuse_settle behind _
    | opening b =>
      cases b with
      | brace =>
        simp only [here, pass_place tail]
        exact enter_place inside behind (by simp only [List.length_cons]; omega)
      | _ =>
        simp only [here]
        exact refuse_settle tail _
    | _ =>
      simp only [here]
      exact refuse_settle tail _

theorem isSome_typeKeyword_iff {word : String} :
    (typeKeyword word).isSome ↔ ∃ kind : TypeKind, isKeyword word kind.keyword := by
  rw [Option.isSome_iff_exists]
  exact ⟨fun ⟨kind, h⟩ ↦ ⟨kind, Parser.isKeyword_of_typeKeyword h⟩,
    fun ⟨kind, h⟩ ↦ ⟨kind, Parser.typeKeyword_eq_some h⟩⟩

theorem readStatement_group (inside : t :: rest <:+ stream.tokens)
    (isGroup : t.kind = .attributeGroup) :
    readStatement stream (place stream (t :: rest)) =
      if kindHere stream (place stream rest) = none ∨
          kindHere stream (place stream rest) = some (.closing .brace) then
        .ok (.statement .other, place stream rest)
      else readStatement stream (place stream rest) := by
  have here := kindHere_cons inside
  rw [readStatement]
  simp only [here, isGroup, pass_place inside]
  refine onward_ok ?_
  exact further_tail inside

/-- A statement without attribute groups in front of it. The word ahead decides whether a type is
declared, or the word behind the modifiers. -/
theorem readPlain_place (inside : t :: rest <:+ stream.tokens) (plain : t.kind ≠ .attributeGroup) :
    readStatement stream (place stream (t :: rest)) =
      (same id (Parser.readPlain stream.endLine t rest) >>= settle stream) := by
  have here := kindHere_cons inside
  have other := readOther_place inside
  rw [readStatement, Parser.readPlain]
  cases kind : t.kind with
  | name text =>
    have declares {keyword : TypeKind} (h : isKeyword text keyword.keyword) :
        Parser.declared? (t :: rest) = some (keyword, rest) := Parser.declared?_keyword kind h rest
    simp only [here, kind]
    by_cases isNamespace : isKeyword text "namespace"
    · rw [if_pos isNamespace, if_pos isNamespace]
      exact readNamespace_place inside
    rw [if_neg isNamespace, if_neg isNamespace]
    by_cases halts : isKeyword text "__halt_compiler"
    · rw [if_pos halts, if_pos halts]
      rfl
    rw [if_neg halts, if_neg halts]
    by_cases isEnum : isKeyword text "enum"
    · have declared := declares (show isKeyword text TypeKind.enumType.keyword from isEnum)
      rw [if_pos isEnum, isEnum, Bool.true_and, kindAt_place inside, List.getElem?_cons_succ,
        ← List.head?_eq_getElem?, Option.any_map, declared]
      by_cases named : rest.head?.any (·.kind.isName)
      · rw [named]
        exact readType_place inside declared
      · rw [Bool.not_eq_true] at named
        rw [named]
        exact other
    have notEnum : ¬(isKeyword text "enum" && !rest.head?.any (·.kind.isName)) := by simp [isEnum]
    rw [if_neg isEnum, if_neg notEnum]
    by_cases isType : (typeKeyword text).isSome
    · obtain ⟨keyword, isKeyword_text⟩ := isSome_typeKeyword_iff.mp isType
      rw [if_pos isType, declares isKeyword_text]
      exact readType_place inside (declares isKeyword_text)
    rw [if_neg isType]
    by_cases modifier : isModifier text
    · have leads : leadsToType stream (place stream (t :: rest)) 0 = _ :=
        leadsToType_place [] (t :: rest) inside
      rw [if_pos modifier, leads, ok_bind]
      cases declared : Parser.declared? (t :: rest) with
      | none => exact other
      | some found => exact readType_place inside declared
    · have undeclared : Parser.declared? (t :: rest) = none := by
        obtain ⟨_, line, offset⟩ := t
        cases kind
        rw [Parser.declared?, if_neg modifier, Option.not_isSome_iff_eq_none.mp isType]
        rfl
      rw [if_neg modifier, undeclared]
      exact other
  | attributeGroup => contradiction
  | _ =>
    simp only [here, kind]
    exact other

/-- The attribute groups in front of a statement are passed one after the other. -/
theorem readStatement_place (inside : t :: rest <:+ stream.tokens)
    (notClosing : t.kind ≠ .closing .brace) :
    readStatement stream (place stream (t :: rest)) =
      (same id (Parser.readStatement stream.endLine (t :: rest)) >>= settle stream) := by
  induction rest generalizing t with
  | nil =>
    by_cases isGroup : t.kind = .attributeGroup
    · have ends := readStatement_group inside isGroup
      rw [kindHere_place (inside_tail inside), if_pos (.inl rfl)] at ends
      rw [ends, Parser.readStatement_group isGroup]
      rfl
    · rw [Parser.readStatement_plain isGroup notClosing]
      exact readPlain_place inside isGroup
  | cons u rest ih =>
    by_cases isGroup : t.kind = .attributeGroup
    · have tail := inside_tail inside
      have skips := readStatement_group inside isGroup
      rw [kindHere_cons tail] at skips
      rw [Parser.readStatement_group isGroup]
      by_cases closes : u.kind = .closing .brace
      · rw [if_pos (.inr (congrArg some closes))] at skips
        rw [skips, Parser.readStatement_closing closes]
        rfl
      · rw [if_neg (by simp [closes])] at skips
        exact skips.trans (ih tail closes)
    · rw [Parser.readStatement_plain isGroup notClosing]
      exact readPlain_place inside isGroup

end Guarded

end ScriptCache.Source
