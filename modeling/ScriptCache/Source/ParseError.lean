/-!
# Why a source text is refused

Every refusal names a line and a cause. The wording of a cause is in `Cause.message` alone.
-/

namespace ScriptCache.Source

/-- The four kinds of type declaration. -/
inductive TypeKind where
  | classType
  | interfaceType
  | traitType
  | enumType
  deriving DecidableEq, Repr, Inhabited

namespace TypeKind

/-- The keyword that declares a type of this kind. -/
def keyword : TypeKind → String
  | .classType => "class"
  | .interfaceType => "interface"
  | .traitType => "trait"
  | .enumType => "enum"

def all : List TypeKind := [.classType, .interfaceType, .traitType, .enumType]

end TypeKind

inductive Cause where
  | unterminatedComment
  | unterminatedString
  | unclosedGroup (opener : Char)
  | missingHeredocLabel
  | malformedHeredocLabel
  | unterminatedHeredoc
  | unclosedNamespace
  | unmatchedBrace
  | afterNamespaceName
  | missingNamespaceName
  | missingTypeName (kind : TypeKind)
  | missingTypeBody (name : String)
  | endInsideExpression
  | unmatchedBracket
  | braceInsideExpression
  | unclosedControlBlock
  | closingInControlBlock
  | mismatchedDelimiter
  | unclosedBlock
  deriving DecidableEq, Repr

def Cause.message : Cause → String
  | .unterminatedComment => "unterminated comment"
  | .unterminatedString => "unterminated string literal"
  | .unclosedGroup opener => "unclosed `" ++ opener.toString ++ "`"
  | .missingHeredocLabel => "heredoc without label"
  | .malformedHeredocLabel => "malformed heredoc label"
  | .unterminatedHeredoc => "unterminated heredoc"
  | .unclosedNamespace => "unexpected end of file, expected `\x7d`"
  | .unmatchedBrace => "unmatched `\x7d`"
  | .afterNamespaceName => "expected `;` or `\x7b` after namespace name"
  | .missingNamespaceName => "expected namespace name"
  | .missingTypeName kind => "expected " ++ kind.keyword ++ " name"
  | .missingTypeBody name => "expected `\x7b` to open body of " ++ name
  | .endInsideExpression => "unexpected end of file inside expression"
  | .unmatchedBracket => "unmatched closing bracket"
  | .braceInsideExpression => "unexpected `\x7d` inside expression"
  | .unclosedControlBlock => "unexpected end of file, unclosed control block"
  | .closingInControlBlock => "unexpected closing delimiter in control block"
  | .mismatchedDelimiter => "mismatched closing delimiter"
  | .unclosedBlock => "unexpected end of file, unclosed block"

structure ParseError where
  /-- Lines are counted from one. -/
  line : Nat
  cause : Cause
  deriving DecidableEq, Repr

def ParseError.message (e : ParseError) : String :=
  "line " ++ toString e.line ++ ": " ++ e.cause.message

end ScriptCache.Source
