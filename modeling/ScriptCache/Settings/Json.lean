import ScriptCache.Settings
import ScriptCache.Json
import ScriptCache.Json.Decode

/-!
# Settings as JSON
-/

namespace ScriptCache.Settings

open ScriptCache (Json)

def Kind.toJson : (k : Kind) → k.Value → Json
  | .flag, v => .bool v
  | .count, v => .nat v
  | .text, v => .string v
  | .optionalText, v => .optional v
  | .texts, v => .strings v

def Kind.readJson : (k : Kind) → Json.Decoder k.Value
  | .flag => Json.Tree.readBool
  | .count => Json.Tree.readNat64
  | .text => Json.Tree.readString
  | .optionalText => Json.Tree.readOptional Json.Tree.readString
  | .texts => Json.Tree.readList Json.Tree.readString

def Column.field {S : Type} (c : Column S) : Json.Tree.Field S :=
  .of c.key c.kind.readJson c.set true

def Section.field (s : Section) : Json.Tree.Field Settings :=
  .of s.key (Json.Tree.readRecord (s.columns.map Column.field) s.initial) s.set true

/-- Settings that are left out have their defaults. -/
def readJson : Json.Decoder Settings := Json.Tree.readRecord (sections.map Section.field) {}

def Section.toJson (s : Section) (settings : Settings) : Json :=
  .object (s.columns.map fun c ↦ (c.key, c.kind.toJson (c.get (s.get settings))))

def toJson (settings : Settings) : Json :=
  .object (sections.map fun s ↦ (s.key, s.toJson settings))

end ScriptCache.Settings
