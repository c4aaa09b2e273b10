import ScriptCache.Settings
import ScriptCache.Toml.Reader
import ScriptCache.Toml.Quoted

/-!
# Settings as TOML

A section is a table, or an array of its values in order, where items beyond the last setting do
not count. Settings that are left out have their defaults, and keys that no setting has are
passed over.
-/

namespace ScriptCache.Settings

def readText : Toml → Option String
  | .string s => some s
  | _ => none

def Kind.readToml : (k : Kind) → Toml → Option k.Value
  | .flag, .boolean b => some b
  | .count, .integer n => if 0 ≤ n then some n.toNat else none
  | .text, v => readText v
  | .optionalText, v => (readText v).map some
  | .texts, .array items => items.mapM readText
  | _, _ => none

def Column.readToml {S : Type} (c : Column S) (row : S) (v : Toml) : Option S :=
  (c.kind.readToml v).map (c.set row)

/-- Reads the columns that a table has an entry for. -/
def readEntries {S : Type} (columns : List (Column S)) (initial : S) (entries : Toml.Entries) :
    Option S :=
  columns.foldlM (fun row c ↦
    match entries.lookup c.key with
    | some v => c.readToml row v
    | none => some row) initial

/-- Reads the columns from items in their order. -/
def readItems {S : Type} (columns : List (Column S)) (initial : S) (items : List Toml) : Option S :=
  (columns.zip items).foldlM (fun row (c, v) ↦ c.readToml row v) initial

/-- Reads a section. A date is a table without settings. -/
def Section.readToml (s : Section) (settings : Settings) (v : Toml) : Option Settings :=
  let row := match v with
    | .table _ entries => readEntries s.columns s.initial entries
    | .array items => readItems s.columns s.initial items
    | .tables items => readItems s.columns s.initial (items.map (.table .header))
    | .datetime => some s.initial
    | _ => none
  row.map (s.set settings)

/-- The settings that a text denotes. -/
def ofToml? (text : String) : Option Settings := do
  let entries ← Toml.document? text
  sections.foldlM (fun settings s ↦
    match entries.lookup s.key with
    | some v => s.readToml settings v
    | none => some settings) {}

def newline : List Char := ['\n']

/-- The text of a list: on one line, unless there are two items or more. -/
def textsToml : List String → List Char
  | [] => ['[', ']']
  | [s] => '[' :: Toml.Quoted.encode s.toList ++ [']']
  | items =>
    '[' :: (items.flatMap fun s ↦ "\n    ".toList ++ Toml.Quoted.encode s.toList ++ [','])
      ++ ['\n', ']']

/-- Integers are signed in TOML, so the larger half of the counts cannot be written. -/
def Kind.isWritable : (k : Kind) → k.Value → Bool
  | .count, n => n ≤ Int64.maxValue.toInt
  | _, _ => true

/-- The text of a value; none for a setting that is not set. -/
def Kind.toToml : (k : Kind) → k.Value → Option (List Char)
  | .flag, b => some (if b then "true" else "false").toList
  | .count, n => some (toString n).toList
  | .text, s => some (Toml.Quoted.encode s.toList)
  | .optionalText, s => s.map fun s ↦ Toml.Quoted.encode s.toList
  | .texts, items => some (textsToml items)

def Column.line {S : Type} (c : Column S) (row : S) : List Char :=
  match c.kind.toToml (c.get row) with
  | none => []
  | some text => c.key.toList ++ " = ".toList ++ text ++ newline

def Section.isWritable (s : Section) (settings : Settings) : Bool :=
  s.columns.all fun c ↦ c.kind.isWritable (c.get (s.get settings))

def Section.paragraph (s : Section) (settings : Settings) : List Char :=
  '[' :: s.key.toList ++ [']', '\n'] ++ s.columns.flatMap (·.line (s.get settings))

/-- The text of settings, a section to a paragraph. -/
def toToml? (settings : Settings) : Option String :=
  if sections.all (·.isWritable settings) then
    some (String.ofList (newline.intercalate (sections.map (·.paragraph settings))))
  else none

end ScriptCache.Settings
