import ScriptCache.CommandLine

/-!
# The command line of the control program
-/

namespace ScriptCache.Control

open CommandLine (Grammar Interrupt OptionSpec Reading)

inductive Command where
  /-- Scan the sources and write the boot script. -/
  | preload (output : Option Path)
  /-- List declared types, of these files or else of the roots in the settings. -/
  | scan (files : List Path)
  | status
  | reset
  /-- Have the daemon compile its watched files. -/
  | compile (force : Bool)
  | registry
  /-- Write settings with their defaults. -/
  | initSettings (force : Bool)
  deriving DecidableEq, Repr

structure Arguments where
  projectRoot : Path := "."
  settingsPath : Option Path := none
  /-- The address of the daemon, instead of the one in the settings. -/
  daemon : Option String := none
  /-- Whether to reach the daemon under the canonical host. -/
  canonical : Bool := false
  command : Command
  deriving DecidableEq, Repr

namespace Arguments

/-- The options that may stand in front of a command and behind it. -/
def sharedOptions : List OptionSpec :=
  [⟨"project-root", .path⟩, ⟨"config", .path⟩, ⟨"daemon", .text⟩, ⟨"canonical", .flag⟩]

/-- A command: its word, a line of help, the grammar of what follows it, and what that means. -/
structure CommandSpec where
  word : String
  help : String
  options : List OptionSpec := []
  takesOperands : Bool := false
  command : Reading → Command

def commands : List CommandSpec :=
  [{ word := "preload"
     help := "Scan sources and write the preload script"
     options := [⟨"output", .path⟩]
     command := fun r ↦ .preload (r.value? "output") },
    { word := "scan"
      help := "List declared types. Scans the configured roots unless files are given"
      takesOperands := true
      command := fun r ↦ .scan r.operands },
    { word := "status", help := "", command := fun _ ↦ .status },
    { word := "reset", help := "", command := fun _ ↦ .reset },
    { word := "compile"
      help := "Compile the daemon's watch set"
      options := [⟨"force", .flag⟩]
      command := fun r ↦ .compile (r.hasFlag "force") },
    { word := "registry"
      help := "Print the daemon's registry snapshot"
      command := fun _ ↦ .registry },
    { word := "init-config"
      help := "Write a default config file"
      options := [⟨"force", .flag⟩]
      command := fun r ↦ .initSettings (r.hasFlag "force") }]

def helpWord : String := "help"

def grammar : Grammar where
  options := sharedOptions
  isVersioned := true
  commands := commands.map (·.word) ++ [helpWord]

def CommandSpec.grammar (c : CommandSpec) : Grammar where
  options := c.options ++ sharedOptions
  takesOperands := c.takesOperands

/-- Asks for help on the command that is named. -/
def readHelp : List String → Except Interrupt Arguments
  | [] => .error .help
  | [word] => if grammar.commands.contains word then .error .help else .error .misuse
  | _ => .error .misuse

/-- An option behind the command counts more than one in front of it. -/
def ofReadings (front back : Reading) (command : Command) : Arguments where
  projectRoot := (latest "project-root").getD "."
  settingsPath := latest "config"
  daemon := latest "daemon"
  canonical := front.hasFlag "canonical" || back.hasFlag "canonical"
  command
where
  latest (name : String) : Option String := (back.value? name).orElse fun _ ↦ front.value? name

def parse (words : List String) : Except Interrupt Arguments := do
  let front ← grammar.parse words
  match front.command with
  | none => .error .misuse
  | some (word, rest) =>
    match commands.find? (·.word = word) with
    | none => readHelp rest
    | some c =>
      let back ← c.grammar.parse rest
      return ofReadings front back (c.command back)

/-- A short overview of the commands. -/
def usage : String :=
  "Usage: opsyncctl [OPTIONS] <COMMAND>\n\nCommands:\n"
    ++ String.join (commands.map fun c ↦ "  " ++ c.word ++ "  " ++ c.help ++ "\n")

def version : String := "opsyncctl 0.1.0\n"

end Arguments

end ScriptCache.Control
