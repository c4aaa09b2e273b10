import Mathlib
import ScriptCache.Source.Statement.Parser

/-!
# The parser by the token ahead

What each reader does with the token ahead, with the groups that it skips as steps of their own. A
reader goes on with some of what is behind that token, so that induction is on how much is left.
-/

namespace ScriptCache.Source

/-- Induction for a reader that goes on with no more than what is behind the first element. -/
theorem induction_behind {α : Type} {motive : List α → Prop} (nil : motive [])
    (cons : ∀ a rest, (∀ after : List α, after.length ≤ rest.length → motive after) →
      motive (a :: rest)) (l : List α) : motive l := by
  induction size : l.length using Nat.strong_induction_on generalizing l with
  | _ size ih =>
  cases l with
  | nil => exact nil
  | cons a rest =>
    refine cons a rest fun after shorter ↦ ih after.length ?_ after rfl
    rw [← size]
    exact Nat.lt_succ_of_le shorter

namespace Parser

theorem skipExpression_cons (endLine depth : Nat) (t : Token) (rest : List Token) :
    skipExpression endLine depth (t :: rest) =
      match t.kind with
      | .semicolon => if depth = 0 then .ok rest else skipExpression endLine depth rest
      | .opening .brace => (skipGroup endLine [.brace] rest).bind fun after ↦
          if depth = 0 then .ok after else skipExpression endLine depth after
      | .closing .brace =>
        if depth = 0 then .ok (t :: rest) else fail endLine (t :: rest) .braceInsideExpression
      | .opening _ => skipExpression endLine (depth + 1) rest
      | .closing _ =>
        if depth = 0 then fail endLine (t :: rest) .unmatchedBracket
        else skipExpression endLine (depth - 1) rest
      | _ => skipExpression endLine depth rest := by
  obtain ⟨kind, line, offset⟩ := t
  rw [skipExpression.eq_def]
  dsimp only
  cases kind with
  | opening b =>
    cases b with
    | brace =>
      dsimp only
      cases skipGroup endLine [.brace] rest <;> rfl
    | paren | square => rfl
  | closing b => cases b <;> rfl
  | _ => rfl

theorem skipTypeBody_cons (endLine : Nat) (name : String) (t : Token) (rest : List Token) :
    skipTypeBody endLine name (t :: rest) =
      match t.kind with
      | .opening .brace => skipGroup endLine [.brace] rest
      | .opening b => (skipGroup endLine [b] rest).bind (skipTypeBody endLine name)
      | .semicolon | .closing .brace => fail endLine (t :: rest) (.missingTypeBody name)
      | _ => skipTypeBody endLine name rest := by
  obtain ⟨kind, line, offset⟩ := t
  rw [skipTypeBody.eq_def]
  dsimp only
  cases kind with
  | opening b =>
    cases b with
    | brace => rfl
    | paren =>
      dsimp only
      cases skipGroup endLine [.paren] rest <;> rfl
    | square =>
      dsimp only
      cases skipGroup endLine [.square] rest <;> rfl
  | closing b => cases b <;> rfl
  | _ => rfl

/-- What opens a control block behind a condition: a colon. -/
def skipColon (tokens : List Token) : Option (List Token) :=
  match tokens with
  | ⟨.colon, _, _⟩ :: after => some after
  | _ => none

theorem skipControl_cons (endLine depth : Nat) (t : Token) (rest : List Token) :
    skipControl endLine depth (t :: rest) =
      match t.kind with
      | .name text =>
        if closesControl text then
          match depth with
          | 0 => .ok (if rest.head?.any (·.kind = .semicolon) then rest.tail else rest)
          | depth + 1 => skipControl endLine depth rest
        else if opensControl text then
          match condition? rest with
          | none => skipControl endLine depth rest
          | some inner => (skipGroup endLine [.paren] inner).bind fun after ↦
            match skipColon after with
            | some body => skipControl endLine (depth + 1) body
            | none => skipControl endLine depth after
        else skipControl endLine depth rest
      | .opening b => (skipGroup endLine [b] rest).bind (skipControl endLine depth)
      | .closing _ => fail endLine (t :: rest) .closingInControlBlock
      | _ => skipControl endLine depth rest := by
  obtain ⟨kind, line, offset⟩ := t
  rw [skipControl.eq_def]
  dsimp only
  cases kind with
  | name text =>
    dsimp only
    congr 1
    split
    · cases condition? rest with
      | none => rfl
      | some inner =>
        dsimp only
        rcases skipGroup endLine [.paren] inner with _ | _ | ⟨⟨kind, _, _⟩, after⟩
        · rfl
        · rfl
        · cases kind <;> rfl
    · rfl
  | opening b =>
    dsimp only
    cases skipGroup endLine [b] rest <;> rfl
  | _ => rfl

theorem skipStatement_eq (endLine : Nat) (t : Token) (rest : List Token) :
    skipStatement endLine t rest =
      match t.kind, condition? rest with
      | .name text, some inner =>
        if opensControl text then
          (skipGroup endLine [.paren] inner).bind fun after ↦
            match skipColon after with
            | some body => skipControl endLine 0 body
            | none => skipExpression endLine 0 after
        else skipExpression endLine 0 (t :: rest)
      | _, _ => skipExpression endLine 0 (t :: rest) := by
  obtain ⟨kind, line, offset⟩ := t
  rw [skipStatement]
  cases kind with
  | name text =>
    cases condition? rest with
    | none => rfl
    | some inner =>
      dsimp only
      congr 1
      rcases skipGroup endLine [.paren] inner with _ | _ | ⟨⟨kind, _, _⟩, after⟩
      · rfl
      · rfl
      · cases kind <;> rfl
  | _ => rfl

theorem readItems_cons (endLine : Nat) (blocks : List OpenBlock) (items : List Item) (t : Token)
    (rest : List Token) :
    readItems endLine blocks items (t :: rest) =
      if t.kind = .closing .brace then
        match blocks with
        | [] => fail endLine (t :: rest) .unmatchedBrace
        | block :: outer =>
          let body := Statement.ofItems items.reverse
          readItems endLine outer
            (.statement (.namespaceBlock block.name block.line body) :: block.before) rest
      else
        (readStatement endLine (t :: rest)).bind fun
          | .item i after => readItems endLine blocks (i :: items) after
          | .enter name line after => readItems endLine (⟨name, line, items⟩ :: blocks) [] after := by
  rw [readItems.eq_def]
  dsimp only
  congr 1
  rcases readStatement endLine (t :: rest) with _ | ⟨_ | _⟩ <;> rfl

/-- The steps of reading up to the end, from blocks that are open and items in front of the tokens
to all items. -/
inductive ReadsItems (endLine : Nat) : List OpenBlock → List Item → List Token → List Item → Prop
    where
  | ended {items : List Item} : ReadsItems endLine [] items [] items.reverse
  | closes {block : OpenBlock} {outer : List OpenBlock} {items all : List Item} {t : Token}
      {rest : List Token} (closes : t.kind = .closing .brace)
      (onward : ReadsItems endLine outer (.statement (.namespaceBlock block.name block.line
        (Statement.ofItems items.reverse)) :: block.before) rest all) :
      ReadsItems endLine (block :: outer) items (t :: rest) all
  | item {blocks : List OpenBlock} {items all : List Item} {t : Token} {i : Item}
      {rest after : List Token} (stays : t.kind ≠ .closing .brace)
      (read : readStatement endLine (t :: rest) = .ok (.item i after))
      (onward : ReadsItems endLine blocks (i :: items) after all) :
      ReadsItems endLine blocks items (t :: rest) all
  | enter {blocks : List OpenBlock} {items all : List Item} {t : Token} {name : Option String}
      {line : Nat} {rest after : List Token} (stays : t.kind ≠ .closing .brace)
      (read : readStatement endLine (t :: rest) = .ok (.enter name line after))
      (onward : ReadsItems endLine (⟨name, line, items⟩ :: blocks) [] after all) :
      ReadsItems endLine blocks items (t :: rest) all

theorem readsItems_of_readItems {endLine : Nat} {blocks : List OpenBlock} {items all : List Item}
    {tokens : List Token} (h : readItems endLine blocks items tokens = .ok all) :
    ReadsItems endLine blocks items tokens all := by
  induction tokens using induction_behind generalizing blocks items with
  | nil =>
    rw [readItems] at h
    split at h
    · rename_i empty
      cases h
      rw [List.isEmpty_iff.mp empty]
      exact .ended
    · cases h
  | cons t rest ih =>
    rw [readItems_cons] at h
    split at h
    · rename_i closes
      cases blocks with
      | nil => cases h
      | cons block outer => exact .closes closes (ih rest le_rfl h)
    · rename_i stays
      cases read : readStatement endLine (t :: rest) with
      | error => rw [read] at h; cases h
      | ok step =>
        rw [read] at h
        have shorter := Nat.le_of_lt_succ (length_readStatement_lt stays read)
        cases step with
        | item i after => exact .item stays read (ih after shorter h)
        | enter name line after => exact .enter stays read (ih after shorter h)

end Parser

end ScriptCache.Source
