/-!
# TOML values

Floating-point numbers and dates are told apart from other values, but what they denote is not
kept: no setting is one.
-/

namespace ScriptCache

namespace Toml

/-- An apostrophe, which opens and closes literal strings. -/
def apostrophe : Char := Char.ofNat 0x27

/-- How a table came to be, which decides how it may grow. -/
inductive Origin where
  /-- Named by a header of its own; so is the document itself, and a table of an array. -/
  | header
  /-- Passed through by the header of a table inside it. -/
  | implied
  /-- Made by a dotted key. -/
  | dotted
  /-- Written in braces. It does not grow. -/
  | inline
  deriving DecidableEq, Repr

end Toml

inductive Toml where
  | string (s : String)
  | integer (n : Int)
  | boolean (b : Bool)
  | float
  | datetime
  | array (items : List Toml)
  | table (origin : Toml.Origin) (entries : List (String × Toml))
  /-- An array of tables, each begun by a header in double brackets. -/
  | tables (items : List (List (String × Toml)))
  deriving Repr, Inhabited

namespace Toml

abbrev Entries := List (String × Toml)

def replace (key : String) (value : Toml) (entries : Entries) : Entries :=
  entries.map fun e ↦ if e.1 = key then (key, value) else e

/-- Changes the table that a path leads to. The tables missing on the way are made; `dotted` says
whether the path stands in a dotted key. Dotted keys do not enter tables that have a header. -/
def within (dotted : Bool) (change : Origin → Entries → Option Entries) :
    Origin → List String → Entries → Option Entries
  | origin, [], entries => change origin entries
  | _, key :: path, entries =>
    match entries.lookup key with
    | none => do
      let origin := if dotted then .dotted else .implied
      let inner ← within dotted change origin path []
      some (entries ++ [(key, .table origin inner)])
    | some (.table origin inner) =>
      if origin = .inline ∨ (dotted ∧ origin = .header) then none
      else do
        let inner ← within dotted change origin path inner
        some (replace key (.table origin inner) entries)
    | some (.tables items) => do
      let last ← within dotted change .header path (← items.getLast?)
      some (replace key (.tables (items.dropLast ++ [last])) entries)
    | some _ => none

/-- Adds a value under a dotted key to the table of the given origin. A key is never given
twice. -/
def insert (path : List String) (key : String) (value : Toml) (origin : Origin)
    (entries : Entries) : Option Entries :=
  within true (fun origin entries ↦
    if (origin = .dotted ↔ path ≠ []) ∧ (entries.lookup key).isNone then
      some (entries ++ [(key, value)])
    else none) origin path entries

/-- Begins the table that a header names. Only a table that headers passed through may be there
already. -/
def openTable (path : List String) (key : String) (document : Entries) : Option Entries :=
  within false (fun _ entries ↦
    match entries.lookup key with
    | none => some (entries ++ [(key, .table .header [])])
    | some (.table .implied inner) => some (replace key (.table .header inner) entries)
    | some _ => none) .header path document

/-- Begins one more table of an array of tables. -/
def openElement (path : List String) (key : String) (document : Entries) : Option Entries :=
  within false (fun _ entries ↦
    match entries.lookup key with
    | none => some (entries ++ [(key, .tables [[]])])
    | some (.tables items) => some (replace key (.tables (items ++ [[]])) entries)
    | some _ => none) .header path document

/-- A line of a document that says something. A key is its path and its last part. -/
inductive Line where
  | table (path : List String) (key : String)
  | element (path : List String) (key : String)
  | entry (path : List String) (key : String) (value : Toml)

/-- Adds lines to a document. `current` leads to the table that entries go to. -/
def addLines (current : List String) (document : Entries) : List Line → Option Entries
  | [] => some document
  | .table path key :: lines => do addLines (path ++ [key]) (← openTable path key document) lines
  | .element path key :: lines => do
    addLines (path ++ [key]) (← openElement path key document) lines
  | .entry path key value :: lines => do
    addLines current (← within false (insert path key value) .header current document) lines

/-- The table of the pairs written in braces. -/
def ofPairs (pairs : List (List String × String × Toml)) : Option Toml := do
  let entries ← pairs.foldlM
    (fun entries (path, key, value) ↦ insert path key value .header entries) []
  some (.table .inline entries)

end Toml

end ScriptCache
