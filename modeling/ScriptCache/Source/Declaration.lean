import ScriptCache.Source.Statement.Parser

/-!
# Declared types

The types that a source declares at file or namespace level, in document order and under their
qualified names.
-/

namespace ScriptCache.Source

structure DeclaredType where
  kind : TypeKind
  /-- The enclosing namespaces and the type's own name, joined by backslashes. -/
  name : String
  deriving DecidableEq, Repr, Inhabited

namespace Statement

mutual

/-- The types of a statement. `enclosing` is put in front of every name. -/
def types (enclosing : String) : Statement → List DeclaredType
  | .namespaceBlock name _ body =>
    typesOfAll (name.elim enclosing fun own ↦ enclosing ++ own ++ "\\") body
  | .declaration kind name _ => [⟨kind, enclosing ++ name⟩]
  | .other => []

def typesOfAll (enclosing : String) : List Statement → List DeclaredType
  | [] => []
  | s :: statements => types enclosing s ++ typesOfAll enclosing statements

end

theorem typesOfAll_append (enclosing : String) (first second : List Statement) :
    typesOfAll enclosing (first ++ second) =
      typesOfAll enclosing first ++ typesOfAll enclosing second := by
  induction first with
  | nil => rfl
  | cons s first ih => rw [List.cons_append, typesOfAll, typesOfAll, ih, List.append_assoc]

end Statement

def declaredTypes (statements : List Statement) : List DeclaredType :=
  Statement.typesOfAll "" statements

end ScriptCache.Source
