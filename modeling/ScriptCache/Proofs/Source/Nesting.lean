import Mathlib
import ScriptCache.Source.Statement.Parser

/-!
# Properly nested brackets

Tokens are nested when every closing bracket ends the latest bracket that is open, and is of its
kind. Skipping a group passes over nested tokens and stops just after the bracket that closes it.
-/

namespace ScriptCache.Source

namespace TokenKind

def isBracket : TokenKind → Bool
  | .opening _ => true
  | .closing _ => true
  | _ => false

end TokenKind

inductive Nested : List Token → Prop where
  | nil : Nested []
  | token {t : Token} {tokens : List Token} (plain : t.kind.isBracket = false)
      (rest : Nested tokens) : Nested (t :: tokens)
  | group {opener closer : Token} {b : Bracket} {inner tokens : List Token}
      (opens : opener.kind = .opening b) (body : Nested inner) (closes : closer.kind = .closing b)
      (rest : Nested tokens) : Nested (opener :: inner ++ closer :: tokens)

/-- A bracket, nested tokens and the bracket that closes it. -/
inductive Group (b : Bracket) : List Token → Prop where
  | mk {opener closer : Token} {inner : List Token} (opens : opener.kind = .opening b)
      (body : Nested inner) (closes : closer.kind = .closing b) :
      Group b (opener :: inner ++ [closer])

namespace Parser

variable {endLine : Nat}

theorem skipGroup_opening {t : Token} {b : Bracket} (h : t.kind = .opening b) (bracket : Bracket)
    (brackets : List Bracket) (tokens : List Token) :
    skipGroup endLine (bracket :: brackets) (t :: tokens) =
      skipGroup endLine (b :: bracket :: brackets) tokens := by
  rw [skipGroup, h]

theorem skipGroup_closing {t : Token} {b : Bracket} (h : t.kind = .closing b)
    (brackets : List Bracket) (tokens : List Token) :
    skipGroup endLine (b :: brackets) (t :: tokens) = skipGroup endLine brackets tokens := by
  rw [skipGroup, h]
  exact if_pos rfl

theorem skipGroup_plain {t : Token} (h : t.kind.isBracket = false) (bracket : Bracket)
    (brackets : List Bracket) (tokens : List Token) :
    skipGroup endLine (bracket :: brackets) (t :: tokens) =
      skipGroup endLine (bracket :: brackets) tokens := by
  rw [skipGroup]
  split <;> simp_all [TokenKind.isBracket]

/-- Nested tokens leave the brackets that are open as they are. -/
theorem skipGroup_nested {inner : List Token} (h : Nested inner) (bracket : Bracket)
    (brackets : List Bracket) (rest : List Token) :
    skipGroup endLine (bracket :: brackets) (inner ++ rest) =
      skipGroup endLine (bracket :: brackets) rest := by
  induction h generalizing bracket brackets rest with
  | nil => rfl
  | token plain _ ih =>
    rw [List.cons_append, skipGroup_plain plain, ih]
  | @group opener closer b inner tokens opens _ closes _ ihBody ihRest =>
    rw [List.append_assoc, List.cons_append, skipGroup_opening opens, ihBody, List.cons_append,
      skipGroup_closing closes, ihRest]

/-- Behind its first bracket, a group is skipped as a whole. -/
theorem skipGroup_group (endLine : Nat) {b : Bracket} {group : List Token} (h : Group b group)
    (rest : List Token) :
    ∃ opener tokens, group ++ rest = opener :: tokens ∧ opener.kind = .opening b ∧
      skipGroup endLine [b] tokens = .ok rest := by
  obtain @⟨opener, closer, inner, opens, body, closes⟩ := h
  refine ⟨opener, inner ++ closer :: rest, by simp, opens, ?_⟩
  rw [skipGroup_nested body, skipGroup_closing closes, skipGroup]

end Parser

end ScriptCache.Source
