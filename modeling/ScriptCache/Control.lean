import ScriptCache.Control.Arguments
import ScriptCache.Http
import ScriptCache.Http.Status
import ScriptCache.Message
import ScriptCache.Preload
import ScriptCache.Resolver
import ScriptCache.Settings.Store
import ScriptCache.Watch.Fleet

/-!
# The control program

One command a run: commands on files, which change the disk, and commands that ask a daemon.
-/

namespace ScriptCache

open CommandLine (Failure Result)

def SettingsError.failure (e : SettingsError) (context : List String) : Failure :=
  let chain := context ++ e.message :: (e.cause?.map (·.message)).toList
  ⟨chain.headD "", chain.tail⟩

def PreloadError.failure (e : PreloadError) : Failure := ⟨e.message, [e.cause.message]⟩

/-- The settings of a project, from a file that may be left out. -/
def Disk.projectSettings (d : Disk) (settingsPath root : Path) : Except Failure Settings :=
  match d.loadSettingsOrDefault settingsPath with
  | .ok s => .ok (s.rooted root)
  | .error e => .error (e.failure ["loading " ++ settingsPath])

/-- The canonical form of a path, or the path itself if it leads nowhere. -/
def Disk.canonicalOr (d : Disk) (p : Path) : Path :=
  match d.canonicalize p with
  | .ok canonical => canonical
  | .error _ => p

namespace Control

namespace Arguments

def root (a : Arguments) (d : Disk) : Path := d.canonicalOr a.projectRoot

def settingsFile (a : Arguments) (d : Disk) : Path :=
  a.settingsPath.getD (Settings.defaultPath (a.root d))

end Arguments

/-- Writes settings with their defaults, over an old file only by force. -/
def initSettings (d : Disk) (p : Path) (force : Bool) : Disk × Except Failure Result :=
  if d.exists? p && !force then (d, .error ⟨p ++ " already exists (use --force)", []⟩)
  else
    match d.saveSettings p {} with
    | (d, .ok ()) => (d, .ok { stdout := "wrote " ++ p ++ "\n" })
    | (d, .error e) => (d, .error (e.failure []))

def preloadSummary (target : Path) (s : ManifestStats) : String :=
  "wrote " ++ target ++ " (" ++ toString s.emitted ++ " types, " ++ toString s.excluded
    ++ " excluded, " ++ toString s.duplicates ++ " duplicates)\n"

def preload (d : Disk) (s : Settings) (output : Option Path) : Disk × Except Failure Result :=
  let target := output.getD s.preload.output
  match d.preload s target with
  | (d, .ok m) => (d, .ok { stdout := preloadSummary target m.stats })
  | (d, .error e) => (d, .error e.failure)

/-- A line for each type of a file. -/
def typeLines (r : FileTypes) : String :=
  String.join (r.types.map fun t ↦
    t.kind.keyword ++ "\t" ++ t.name ++ "\t" ++ r.file.path ++ "\n")

/-- Lists the types of files, or else of the roots in the settings, and the faults beside them. -/
def scan (d : Disk) (s : Settings) (files : List Path) : Result :=
  let results := if files.isEmpty then d.scan s.scan.filter s.scan.roots else files.map d.scanFile
  { stdout := String.join (results.filterMap fun r ↦ r.toOption.map typeLines)
    stderr := String.join ((scanErrors results).map fun e ↦ e.message ++ "\n") }

/-- The URL of a path on the daemon. -/
def daemonUrl (a : Arguments) (s : Settings) (path : String) : Except Failure Url :=
  let address := a.daemon.getD s.server.ownUrl
  match Resolver.resolve ⟨s.server.canonicalUrl⟩ address a.canonical with
  | none => .error ⟨"invalid daemon url " ++ address, []⟩
  | some base =>
    match base.withPath? path with
    | none => .error ⟨"relative URL with a cannot-be-a-base base", []⟩
    | some url => .ok url

/-- What the daemon said about a request that it refused. -/
def refusalDetail (answer : Http.Response) : String :=
  match Json.decodeBytes ErrorReply.readJson answer.body with
  | .ok reply => reply.error
  | .error _ => ""

/-- The value in the daemon's answer. -/
def readAnswer {α : Type} (url : Url) (read : Json.Decoder α) :
    Except Http.NetworkError Http.Response → Except Failure α
  | .error e => .error ⟨"daemon request failed", e.messages url.withoutUser⟩
  | .ok answer =>
    if answer.isSuccess then
      match Json.decodeBytes read answer.body with
      | .ok reply => .ok reply
      | .error _ => .error ⟨"decoding daemon response", ["error decoding response body"]⟩
    else
      .error ⟨"daemon answered " ++ Http.statusText answer.status ++ ": " ++ refusalDetail answer,
        []⟩

variable {σ : Type} (net : Http.Network σ)

/-- A question to the daemon: the request, and how its answer is read and printed. -/
structure Question where
  {Reply : Type}
  method : String
  path : String
  body : Option Json := none
  read : Json.Decoder Reply
  toJson : Reply → Json

def Question.request (q : Question) : Http.Request where
  method := q.method
  target := q.path
  contentType := q.body.map fun _ ↦ Http.jsonType
  body := q.body.elim [] fun body ↦ Utf8.encode body.compact

/-- Asks the daemon, and prints what it says. -/
def ask (a : Arguments) (s : Settings) (q : Question) : StateM σ (Except Failure Result) := do
  match daemonUrl a s q.path with
  | .error failure => return .error failure
  | .ok url =>
    let answer ← Http.send net url q.request
    return (readAnswer url q.read answer).map fun reply ↦
      { stdout := (q.toJson reply).pretty ++ "\n" }

/-- What a command asks the daemon, if it is one that does. -/
def question? : Command → Option Question
  | .status => some ⟨"GET", "/v1/status", none, StatusReply.readJson, StatusReply.toJson⟩
  | .reset => some ⟨"POST", "/v1/reset", none, ResetReply.readJson, ResetReply.toJson⟩
  | .compile force => some ⟨"POST", "/v1/compile", some (CompileRequest.toJson ⟨force⟩),
      CompileReply.readJson, CompileReply.toJson⟩
  | .registry => some ⟨"GET", registryPath, none, Registry.readJson, Registry.toJson⟩
  | _ => none

/-- Runs a command that works on files. -/
def runOnFiles (d : Disk) (s : Settings) : Command → Disk × Except Failure Result
  | .preload output => preload d s output
  | .scan files => (d, .ok (scan d s files))
  | _ => (d, .ok {})

def perform (d : Disk) (a : Arguments) : StateM σ (Disk × Except Failure Result) := do
  let settingsPath := a.settingsFile d
  match a.command with
  | .initSettings force => return initSettings d settingsPath force
  | command =>
    match d.projectSettings settingsPath (a.root d) with
    | .error failure => return (d, .error failure)
    | .ok s =>
      match question? command with
      | some q => return (d, ← ask net a s q)
      | none => return runOnFiles d s command

/-- Runs the program on a command line. -/
def run (d : Disk) (words : List String) : StateM σ (Disk × Result) := do
  match Arguments.parse words with
  | .error interrupt => return (d, interrupt.result Arguments.usage Arguments.version)
  | .ok a =>
    match ← perform net d a with
    | (d, .ok result) => return (d, result)
    | (d, .error failure) => return (d, failure.result)

end Control

end ScriptCache
