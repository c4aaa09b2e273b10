import ScriptCache.Source.ParseError

/-!
# Statements at file and namespace level

Only namespaces and type declarations have structure; every other statement is `other`.
A namespace is written with a block, or as a header that claims the statements after it.
`Item` keeps the two forms apart in document order, and `Statement.ofItems` gives each header
its statements: they run up to the next namespace of either form.
-/

namespace ScriptCache.Source

inductive Statement where
  /-- A namespace without a name is the global one. A name has no backslash in front. -/
  | namespaceBlock (name : Option String) (line : Nat) (body : List Statement)
  | declaration (kind : TypeKind) (name : String) (line : Nat)
  | other
  deriving Repr

inductive Item where
  | header (name : String) (line : Nat)
  | statement (s : Statement)
  deriving Repr

namespace Statement

/-- The statements that a header in front of the items would claim, and the statements after
those. -/
def splitItems : List Item → List Statement × List Statement
  | [] => ([], [])
  | .header name line :: items =>
    let (own, later) := splitItems items
    ([], .namespaceBlock (some name) line own :: later)
  | .statement (.namespaceBlock name line body) :: items =>
    let (own, later) := splitItems items
    ([], .namespaceBlock name line body :: (own ++ later))
  | .statement s :: items =>
    let (own, later) := splitItems items
    (s :: own, later)

def ofItems (items : List Item) : List Statement :=
  (splitItems items).1 ++ (splitItems items).2

end Statement

end ScriptCache.Source
