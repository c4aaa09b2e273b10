import ScriptCache.Source.ParseError

/-!
# Tokens of a script source

Only what finding declarations needs is told apart: names, brackets and statement separators.
Strings, heredocs and attribute groups are one token each, so that no brace or keyword inside
them is ever seen.
-/

namespace ScriptCache.Source

/-- The three kinds of bracket pair. -/
inductive Bracket where
  | brace
  | paren
  | square
  deriving DecidableEq, Repr

inductive TokenKind where
  /-- An identifier, or identifiers joined by backslashes. -/
  | name (text : String)
  | varName
  | literal
  | attributeGroup
  | opening (b : Bracket)
  | closing (b : Bracket)
  | semicolon
  /-- A lone `:`. After a condition it opens a block that an `end` keyword closes. -/
  | colon
  | doubleColon
  | operator
  deriving DecidableEq, Repr

structure Token where
  kind : TokenKind
  line : Nat
  /-- Number of bytes before the token. -/
  offset : Nat
  deriving DecidableEq, Repr

/-- A source as the parser sees it: its tokens, and the line on which reading ended. -/
structure TokenStream where
  tokens : List Token
  endLine : Nat
  deriving DecidableEq, Repr

/-- Keywords are compared without regard to ASCII case. -/
def isKeyword (text keyword : String) : Bool :=
  text.toLower == keyword

namespace TokenKind

def isName : TokenKind → Bool
  | .name _ => true
  | _ => false

end TokenKind

end ScriptCache.Source
