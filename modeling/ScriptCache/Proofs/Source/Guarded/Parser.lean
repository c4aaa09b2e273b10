import ScriptCache.Proofs.Source.Guarded.Lexer
import ScriptCache.Source.Statement.Parser

/-!
# The parser with its guards

The parser over a position in the tokens, with the mark of the end behind them as one more. It sees
the mark from anywhere beyond, and never passes it, so that a loop that does not leave there would
not end. Statements, a statement and a namespace call each other.
-/

namespace ScriptCache.Source.Guarded

open ScriptCache.Source.Parser (isModifier opensControl closesControl typeKeyword)

variable {α : Type} (stream : TokenStream)

/-- The token `n` places behind a position. There is none where the mark of the end is seen. -/
def tokenAt (pos n : Nat) : Option Token := stream.tokens[min (pos + n) stream.tokens.length]?

def kindAt (pos n : Nat) : Option TokenKind := (tokenAt stream pos n).map (·.kind)

def kindHere (pos : Nat) : Option TokenKind := kindAt stream pos 0

def lineHere (pos : Nat) : Nat := ((tokenAt stream pos 0).map (·.line)).getD stream.endLine

/-- The position behind the token here. The mark of the end is not passed. -/
def pass (pos : Nat) : Nat := if pos < stream.tokens.length then pos + 1 else pos

def refuse (pos : Nat) (cause : Cause) : Guarded α :=
  .error (.refused ⟨lineHere stream pos, cause⟩)

/-- One less, which a counter at zero does not allow. -/
def lower : Nat → Guarded Nat
  | 0 => .error .underflow
  | n + 1 => .ok n

/-- A loop over positions in the tokens, with what else it keeps. -/
abbrev walk {σ : Type} (turn : Nat × σ → Guarded (Turn (Nat × σ) α)) (state : Nat × σ) : Guarded α :=
  loop stream.tokens.length Prod.fst turn state

/-! ## Groups and expressions -/

/-- The brackets that are open behind the token here. -/
def bracketsBehind (pos : Nat) (brackets : List Bracket) : Guarded (List Bracket) :=
  match kindHere stream pos with
  | none => refuse stream pos .unclosedBlock
  | some (.opening b) => .ok (b :: brackets)
  | some (.closing b) =>
    match brackets with
    | [] => .error .underflow
    | bracket :: outer => if b = bracket then .ok outer else refuse stream pos .mismatchedDelimiter
  | some _ => .ok brackets

/-- Skips tokens until no bracket is open. -/
def closeBrackets (pos : Nat) (brackets : List Bracket) : Guarded Nat :=
  walk stream (fun (pos, brackets) ↦ do
    let brackets ← bracketsBehind stream pos brackets
    if brackets.isEmpty then .ok (.leave (pass stream pos))
    else .ok (.again (pass stream pos, brackets))) (pos, brackets)

/-- Skips the group that begins here. -/
def skipBrackets (pos : Nat) : Guarded Nat := closeBrackets stream pos []

def skipExpression (pos depth : Nat) : Guarded Nat :=
  walk stream (fun (pos, depth) ↦
    match kindHere stream pos with
    | none => if depth = 0 then .ok (.leave pos) else refuse stream pos .endInsideExpression
    | some .semicolon =>
      if depth = 0 then .ok (.leave (pass stream pos)) else .ok (.again (pass stream pos, depth))
    | some (.opening .brace) => do
      let behind ← skipBrackets stream pos
      if depth = 0 then .ok (.leave behind) else .ok (.again (behind, depth))
    | some (.closing .brace) =>
      if depth = 0 then .ok (.leave pos) else refuse stream pos .braceInsideExpression
    | some (.opening _) => .ok (.again (pass stream pos, depth + 1))
    | some (.closing _) =>
      if depth = 0 then refuse stream pos .unmatchedBracket
      else do
        let depth ← lower depth
        .ok (.again (pass stream pos, depth))
    | some _ => .ok (.again (pass stream pos, depth))) (pos, depth)

/-! ## Control blocks -/

/-- Skips the condition behind the keyword here, and tells whether a colon opens a block behind it. -/
def skipCondition (pos : Nat) : Guarded (Bool × Nat) := do
  let behind ← skipBrackets stream (pass stream pos)
  if kindHere stream behind = some .colon then .ok (true, pass stream behind) else .ok (false, behind)

def skipControl (pos depth : Nat) : Guarded Nat :=
  walk stream (fun (pos, depth) ↦
    match kindHere stream pos with
    | none => refuse stream pos .unclosedControlBlock
    | some (.name text) =>
      if closesControl text then do
        let depth ← lower depth
        let next := pass stream pos
        if depth = 0 then
          .ok (.leave (if kindHere stream next = some .semicolon then pass stream next else next))
        else .ok (.again (next, depth))
      else if opensControl text ∧ kindAt stream pos 1 = some (.opening .paren) then do
        let (colon, behind) ← skipCondition stream pos
        .ok (.again (behind, if colon then depth + 1 else depth))
      else .ok (.again (pass stream pos, depth))
    | some (.opening _) => do
      let behind ← skipBrackets stream pos
      .ok (.again (behind, depth))
    | some (.closing _) => refuse stream pos .closingInControlBlock
    | some _ => .ok (.again (pass stream pos, depth))) (pos, depth)

def skipStatement (pos : Nat) : Guarded Nat :=
  match kindHere stream pos with
  | some (.name text) =>
    if opensControl text ∧ kindAt stream pos 1 = some (.opening .paren) then do
      let (colon, behind) ← skipCondition stream pos
      if colon then skipControl stream behind 1 else skipExpression stream behind 0
    else skipExpression stream pos 0
  | _ => skipExpression stream pos 0

/-! ## Types -/

/-- Whether the modifiers here are followed by the keyword of a type, if the first `passed` are
modifiers. -/
def leadsToType (pos passed : Nat) : Guarded Bool :=
  loop stream.tokens.length (pos + ·) (fun n ↦
    match kindAt stream pos n with
    | some (.name text) =>
      if isModifier text then .ok (.again (n + 1)) else .ok (.leave (typeKeyword text).isSome)
    | _ => .ok (.leave false)) passed

/-- The kind that is declared here, and the position behind its keyword. -/
def readKeyword (pos : Nat) : Guarded (TypeKind × Nat) :=
  loop stream.tokens.length (fun pos ↦ pos) (fun pos ↦
    match kindHere stream pos with
    | some (.name text) =>
      if isModifier text then .ok (.again (pass stream pos))
      else
        match typeKeyword text with
        | some kind => .ok (.leave (kind, pass stream pos))
        | none => .error .astray
    | _ => .error .astray) pos

/-- The position of the brace that opens the body of the type `name`. -/
def findBody (name : String) (pos : Nat) : Guarded Nat :=
  loop stream.tokens.length (fun pos ↦ pos) (fun pos ↦
    match kindHere stream pos with
    | none => refuse stream pos (.missingTypeBody name)
    | some (.opening .brace) => .ok (.leave pos)
    | some (.opening _) => (skipBrackets stream pos).map .again
    | some .semicolon => refuse stream pos (.missingTypeBody name)
    | some (.closing .brace) => refuse stream pos (.missingTypeBody name)
    | some _ => .ok (.again (pass stream pos))) pos

def readType (pos : Nat) : Guarded (Item × Nat) := do
  let (kind, next) ← readKeyword stream pos
  match kindHere stream next with
  | some (.name name) =>
    if name.contains '\\' then refuse stream next (.missingTypeName kind)
    else
      let body ← findBody stream name (pass stream next)
      let behind ← skipBrackets stream body
      .ok (.statement (.declaration kind name (lineHere stream pos)), behind)
  | _ => refuse stream next (.missingTypeName kind)

/-! ## Statements -/

def readOther (pos : Nat) : Guarded (Item × Nat) :=
  (skipStatement stream pos).map (.statement .other, ·)

mutual

/-- Every statement has to take a token. -/
def readStatements (inBlock : Bool) (pos : Nat) (items : List Item) :
    Guarded (List Statement × Nat) :=
  match kindHere stream pos with
  | none =>
    if inBlock then refuse stream pos .unclosedNamespace
    else .ok (Statement.ofItems items.reverse, pos)
  | some (.closing .brace) =>
    if inBlock then .ok (Statement.ofItems items.reverse, pass stream pos)
    else refuse stream pos .unmatchedBrace
  | some _ =>
    onward stream.tokens.length pos Prod.snd (readStatement pos) fun read _ ↦
      readStatements inBlock read.2 (read.1 :: items)
termination_by (stream.tokens.length - pos, 2)

def readStatement (pos : Nat) : Guarded (Item × Nat) :=
  match kindHere stream pos with
  | some .attributeGroup =>
    onward stream.tokens.length pos (fun next ↦ next) (.ok (pass stream pos)) fun next _ ↦
      if kindHere stream next = none ∨ kindHere stream next = some (.closing .brace) then
        .ok (.statement .other, next)
      else readStatement next
  | some (.name text) =>
    if isKeyword text "namespace" then readNamespace pos
    else if isKeyword text "__halt_compiler" then .ok (.statement .other, stream.tokens.length)
    else if isKeyword text "enum" then
      if (kindAt stream pos 1).any TokenKind.isName then readType stream pos
      else readOther stream pos
    else if (typeKeyword text).isSome then readType stream pos
    else if isModifier text then do
      let leads ← leadsToType stream pos 0
      if leads then readType stream pos else readOther stream pos
    else readOther stream pos
  | _ => readOther stream pos
termination_by (stream.tokens.length - pos, 1)

def readNamespace (pos : Nat) : Guarded (Item × Nat) :=
  let line := lineHere stream pos
  let next := pass stream pos
  match kindHere stream next with
  | some (.name text) =>
    let name := String.ofList (text.toList.dropWhile (· = '\\'))
    let behind := pass stream next
    match kindHere stream behind with
    | some .semicolon => .ok (.header name line, pass stream behind)
    | some (.opening .brace) =>
      onward stream.tokens.length pos (fun next ↦ next) (.ok (pass stream behind)) fun body _ ↦
        (readStatements true body []).map fun read ↦
          (.statement (.namespaceBlock (some name) line read.1), read.2)
    | _ => refuse stream behind .afterNamespaceName
  | some (.opening .brace) =>
    onward stream.tokens.length pos (fun next ↦ next) (.ok (pass stream next)) fun body _ ↦
      (readStatements true body []).map fun read ↦
        (.statement (.namespaceBlock none line read.1), read.2)
  | _ => refuse stream next .missingNamespaceName
termination_by (stream.tokens.length - pos, 0)

end

def parse : Guarded (List Statement) := (readStatements stream false 0 []).map Prod.fst

end ScriptCache.Source.Guarded
