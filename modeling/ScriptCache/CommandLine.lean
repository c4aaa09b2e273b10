import ScriptCache.Path

/-!
# Command lines

A grammar says which options a program knows and whether words without dashes are operands or
commands. Options may stand in any order. A value follows its option, or stands behind an equals
sign.
-/

namespace ScriptCache.CommandLine

inductive OptionKind where
  | flag
  | text
  /-- A text that is not empty. -/
  | path
  deriving DecidableEq, Repr

structure OptionSpec where
  /-- Without the dashes. -/
  name : String
  kind : OptionKind
  deriving DecidableEq, Repr

structure Grammar where
  options : List OptionSpec
  /-- Whether the version can be asked for. -/
  isVersioned : Bool := false
  takesOperands : Bool := false
  /-- Words that end the part of the command line that this grammar is for. -/
  commands : List String := []
  deriving DecidableEq, Repr

inductive Argument where
  | flag (name : String)
  | value (name value : String)
  | operand (path : Path)
  deriving DecidableEq, Repr

/-- Why a program is not run. -/
inductive Interrupt where
  | help
  | version
  | misuse
  deriving DecidableEq, Repr

/-- A command line that was read, with the command that ended it and the rest. -/
structure Reading where
  arguments : List Argument
  command : Option (String × List String) := none
  deriving DecidableEq, Repr

namespace Reading

/-- Puts an argument in front. An option must not come twice. -/
def add (a : Argument) (r : Reading) : Except Interrupt Reading :=
  let isAgain := match a with
    | .flag name => r.arguments.contains (.flag name)
    | .value name _ => r.arguments.any fun
        | .value other _ => other == name
        | _ => false
    | .operand _ => false
  if isAgain then .error .misuse else .ok { r with arguments := a :: r.arguments }

def hasFlag (r : Reading) (name : String) : Bool := r.arguments.contains (.flag name)

def value? (r : Reading) (name : String) : Option String :=
  r.arguments.findSome? fun
    | .value other value => if other == name then some value else none
    | _ => none

def operands (r : Reading) : List Path :=
  r.arguments.filterMap fun
    | .operand path => some path
    | _ => none

end Reading

namespace Grammar

def operand (g : Grammar) (word : String) : Except Interrupt Argument :=
  if g.takesOperands && !word.isEmpty then .ok (.operand word) else .error .misuse

def optionValue (o : OptionSpec) (value : String) : Except Interrupt Argument :=
  if o.kind = .path && value.isEmpty then .error .misuse else .ok (.value o.name value)

/-- Splits a long option at its equals sign. -/
def splitValue (word : List Char) : String × Option String :=
  match word.span (· ≠ '=') with
  | (name, _ :: value) => (String.ofList name, some (String.ofList value))
  | (name, []) => (String.ofList name, none)

/-- An option that asks for something else than to run the program. -/
def interrupt? (g : Grammar) (long : String) : Option Interrupt :=
  if long = "help" then some .help
  else if long = "version" && g.isVersioned then some .version
  else none

/-- Whether a word can be the value of the option in front of it. -/
def isValue (word : String) : Bool := !word.startsWith "-" || word == "-"

/-- Reads a command line. Of several faults the first counts, so arguments are added from the
front; `before` are those read so far, the last in front. -/
def read (g : Grammar) (before : Reading) : List String → Except Interrupt Reading
  | [] => .ok before
  | word :: words =>
    if g.commands.contains word then .ok { before with command := some (word, words) }
    else if word = "--" then
      words.foldlM (fun r word ↦ do r.add (← g.operand word)) before
    else
      match word.toList with
      | '-' :: '-' :: long =>
        let (name, attached) := splitValue long
        match g.interrupt? name, attached, g.options.find? (·.name = name) with
        | some i, none, _ => .error i
        | some _, some _, _ | none, _, none => .error .misuse
        | none, attached, some o =>
          match o.kind, attached, words with
          | .flag, none, words => do g.read (← before.add (.flag name)) words
          | .flag, some _, _ => .error .misuse
          | _, some value, words => do g.read (← before.add (← optionValue o value)) words
          | _, none, value :: words =>
            if isValue value then do g.read (← before.add (← optionValue o value)) words
            else .error .misuse
          | _, none, [] => .error .misuse
      | '-' :: 'h' :: _ => .error .help
      | '-' :: 'V' :: _ => .error (if g.isVersioned then .version else .misuse)
      | '-' :: _ :: _ => .error .misuse
      | _ => do g.read (← before.add (← g.operand word)) words

/-- Reads a whole command line, or the part up to a command. -/
def parse (g : Grammar) (words : List String) : Except Interrupt Reading := do
  let r ← g.read ⟨[], none⟩ words
  return { r with arguments := r.arguments.reverse }

end Grammar

/-- What a program leaves behind when it ends. -/
structure Result where
  code : Nat := 0
  stdout : String := ""
  stderr : String := ""
  deriving DecidableEq, Repr

/-- Why a program failed, with the causes behind it. -/
structure Failure where
  message : String
  causes : List String := []
  deriving DecidableEq, Repr

namespace Failure

/-- A cause in a list of several. -/
def numbered (index : Nat) (cause : String) : String :=
  let digits := toString index
  "\n" ++ String.ofList (List.replicate (5 - digits.length) ' ') ++ digits ++ ": " ++ cause

def causeText (causes : List String) : String :=
  match causes with
  | [] => ""
  | [cause] => "\n\nCaused by:\n    " ++ cause
  | causes => "\n\nCaused by:" ++ String.join (causes.mapIdx numbered)

def text (f : Failure) : String := "Error: " ++ f.message ++ causeText f.causes ++ "\n"

def result (f : Failure) : Result := { code := 1, stderr := f.text }

end Failure

/-- What a program leaves behind that is not run. -/
def Interrupt.result (help version : String) : Interrupt → Result
  | .help => { stdout := help }
  | .version => { stdout := version }
  | .misuse => { code := 2, stderr := help }

end ScriptCache.CommandLine
