import ScriptCache.Json.Token

/-!
# JSON texts as far as they can be read

A text that breaks off, or goes wrong, still has a beginning. `Tree` holds it, with `broken`
where reading failed, so that whoever looks for typed values meets faults in the order in which
they stand in the text: a value of the wrong type before the break, or the break before that.
-/

namespace ScriptCache.Json

inductive Tree where
  | null
  | bool (b : Bool)
  | number (n : Number)
  /-- A string without a value has a surrogate that stands alone. -/
  | string (s : Option String)
  | array (items : List Tree)
  | object (members : List (Option String × Tree))
  | broken
  deriving Repr, Inhabited

namespace Tree

/-- A value that is being read: what stands in front of the place that was reached, the last part
first. -/
inductive Frame where
  | array (before : List Tree)
  | object (before : List (Option String × Tree))
  | member (before : List (Option String × Tree)) (key : Option String)

/-- Where reading stands inside the innermost frame. -/
inductive Place where
  | value
  | key
  /-- Behind a value. -/
  | behind (t : Tree)

/-- The whole value, when reading fails in the innermost of the frames. -/
def breakOff (t : Tree) : List Frame → Tree
  | [] => t
  | .array before :: frames => breakOff (.array (before.reverse ++ [t])) frames
  | .object before :: frames => breakOff (.object (before.reverse ++ [(none, t)])) frames
  | .member before key :: frames => breakOff (.object (before.reverse ++ [(key, t)])) frames

/-- The value of a token that is a whole value. -/
def ofScalar? : Token → Option Tree
  | .null => some .null
  | .bool b => some (.bool b)
  | .number n => some (.number n)
  | .string s => some (.string s)
  | _ => none

/-- Reads on to the end of the outermost value, and gives what stands behind it. -/
def build : Place → List Frame → List Token → Tree × List Token
  | .behind t, [], tokens => (t, tokens)
  | .value, frames, .openSquare :: .closeSquare :: tokens =>
    build (.behind (.array [])) frames tokens
  | .value, frames, .openSquare :: tokens => build .value (.array [] :: frames) tokens
  | .value, frames, .openCurly :: .closeCurly :: tokens =>
    build (.behind (.object [])) frames tokens
  | .value, frames, .openCurly :: tokens => build .key (.object [] :: frames) tokens
  | .value, frames, token :: tokens =>
    match ofScalar? token with
    | some t => build (.behind t) frames tokens
    | none => (breakOff .broken frames, [])
  | .key, .object before :: frames, .string key :: .colon :: tokens =>
    build .value (.member before key :: frames) tokens
  | .key, .object before :: frames, .string key :: _ =>
    (breakOff .broken (.member before key :: frames), [])
  | .behind t, .array before :: frames, token :: tokens =>
    match token with
    | .comma => build .value (.array (t :: before) :: frames) tokens
    | .closeSquare => build (.behind (.array (t :: before).reverse)) frames tokens
    | _ => (breakOff .broken (.array (t :: before) :: frames), [])
  | .behind t, .member before key :: frames, token :: tokens =>
    match token with
    | .comma => build .key (.object ((key, t) :: before) :: frames) tokens
    | .closeCurly => build (.behind (.object ((key, t) :: before).reverse)) frames tokens
    | _ => (breakOff .broken (.object ((key, t) :: before) :: frames), [])
  | .behind t, .array before :: frames, [] => (breakOff .broken (.array (t :: before) :: frames), [])
  | .behind t, .member before key :: frames, [] =>
    (breakOff .broken (.object ((key, t) :: before) :: frames), [])
  | _, frames, _ => (breakOff .broken frames, [])

/-- Whether no part of the value is missing. -/
def isWhole : Tree → Bool
  | .broken => false
  | .array items => wholeItems items
  | .object members => wholeMembers members
  | _ => true
where
  wholeItems : List Tree → Bool
    | [] => true
    | item :: items => isWhole item && wholeItems items
  wholeMembers : List (Option String × Tree) → Bool
    | [] => true
    | (_, value) :: members => isWhole value && wholeMembers members

end Tree

end ScriptCache.Json
