import ScriptCache.Json.Tree
import ScriptCache.Registry
import ScriptCache.Text.Utf8

/-!
# Typed values from JSON texts

A text is refused for one of two faults: it is no JSON, or it is JSON of another shape. The fault
that stands first in the text counts.
-/

namespace ScriptCache.Json

inductive Fault where
  /-- The text is no JSON. -/
  | malformed
  /-- The text is JSON, so far, but not of the shape that is wanted. -/
  | mismatch
  deriving DecidableEq, Repr

abbrev Decoder (α : Type) := Tree → Except Fault α

namespace Tree

/-- Why a value does not have the wanted type. -/
def fault : Tree → Fault
  | .broken | .string none | .number .huge => .malformed
  | _ => .mismatch

def readBool : Decoder Bool
  | .bool b => .ok b
  | t => .error t.fault

def readString : Decoder String
  | .string (some s) => .ok s
  | t => .error t.fault

/-- An integer, both bounds included. -/
def readInt (low high : Int) : Decoder Int
  | .number (.int n) => if low ≤ n ∧ n ≤ high then .ok n else .error .mismatch
  | t => .error t.fault

/-- A signed integer of 64 bits. -/
def readInt64 : Decoder Int := readInt Int64.minValue.toInt Int64.maxValue.toInt

/-- An unsigned integer of 64 bits. -/
def readNat64 : Decoder Nat := fun t ↦ (readInt 0 (UInt64.size - 1) t).map Int.toNat

def readOptional {α : Type} (read : Decoder α) : Decoder (Option α)
  | .null => .ok none
  | t => (read t).map some

def readList {α : Type} (read : Decoder α) : Decoder (List α)
  | .array items => items.mapM read
  | t => .error t.fault

/-- A map from strings. -/
def readMap {α : Type} (read : Decoder α) : Decoder (List (String × α))
  | .object members => members.mapM fun (key, value) ↦
      match key with
      | none => .error .malformed
      | some key => (read value).map (key, ·)
  | t => .error t.fault

/-- One of a list of words, also written as an object that gives `null` to the word. -/
def readWord {α : Type} (word : α → String) (all : List α) : Decoder α
  | .object ((key, value) :: members) => do
    let a ← choose (.string key)
    match value, members with
    | .null, [] => .ok a
    | .null, _ => .error .malformed
    | value, _ => .error value.fault
  | .object [] => .error .malformed
  | t => choose t
where
  choose (t : Tree) : Except Fault α := do
    let s ← readString t
    match all.find? (word · = s) with
    | some a => .ok a
    | none => .error .mismatch

/-- A field of a record of type `S`. -/
structure Field (S : Type) where
  key : String
  read : Tree → S → Except Fault S
  /-- Whether the field may be left out. -/
  optional : Bool

/-- A field whose value is put in by `set`. -/
def Field.of {S α : Type} (key : String) (read : Decoder α) (set : S → α → S)
    (optional : Bool) : Field S :=
  ⟨key, fun t s ↦ (read t).map (set s), optional⟩

/-- Reads members into a record. Members of other keys are passed over; no key of a field may
come twice. `seen` are the keys that came before. -/
def readMembers {S : Type} (fields : List (Field S)) :
    List String → S → List (Option String × Tree) → Except Fault S
  | seen, s, [] =>
    if fields.all fun f ↦ f.optional || seen.contains f.key then .ok s else .error .mismatch
  | _, _, (none, _) :: _ => .error .malformed
  | seen, s, (some key, value) :: members =>
    match fields.find? (·.key = key) with
    | none => if value.isWhole then readMembers fields seen s members else .error .malformed
    | some f =>
      if seen.contains key then .error .mismatch
      else do readMembers fields (key :: seen) (← f.read value s) members

/-- Reads the items of an array as the values of the fields in their order. -/
def readItems {S : Type} : List (Field S) → S → List Tree → Except Fault S
  | [], s, [] => .ok s
  | [], _, _ :: _ => .error .malformed
  | f :: fields, s, [] => if f.optional then readItems fields s [] else .error .mismatch
  | f :: fields, s, item :: items => do readItems fields (← f.read item s) items

/-- A record: an object, or an array of its values in order. Fields that are left out keep their
value in `initial`. -/
def readRecord {S : Type} (fields : List (Field S)) (initial : S) : Decoder S
  | .object members => readMembers fields [] initial members
  | .array items => readItems fields initial items
  | t => .error t.fault

end Tree

/-- The value of a text. -/
def decode {α : Type} (read : Decoder α) (text : String) : Except Fault α := do
  let (t, rest) := Tree.build .value [] (Token.ofChars text.toList)
  let a ← read t
  if rest.isEmpty then .ok a else .error .malformed

/-- The value of a text in UTF-8. -/
def decodeBytes {α : Type} (read : Decoder α) (bytes : List UInt8) : Except Fault α :=
  match Utf8.decode? bytes with
  | some text => decode read text
  | none => .error .malformed

/-- The registry that an object of times denotes. -/
def readRegistry : Decoder Registry := fun t ↦ (Tree.readMap Tree.readInt64 t).map Registry.ofList

end ScriptCache.Json
