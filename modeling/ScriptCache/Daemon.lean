import ScriptCache.Control
import ScriptCache.Engine.Memory
import ScriptCache.Service
import ScriptCache.SocketAddress

/-!
# Starting the daemon

What happens from the command line to the moment when the daemon listens. The cache is new, so it
is there and switched on.
-/

namespace ScriptCache

open CommandLine (Failure Grammar Interrupt Result)

namespace Daemon

structure Arguments where
  projectRoot : Path := "."
  settingsPath : Option Path := none
  /-- Where to listen, instead of the address in the settings. -/
  listen : Option String := none
  instanceId : Option String := none
  /-- Whether to compile the watched files first. -/
  warm : Bool := false
  deriving DecidableEq, Repr

namespace Arguments

def grammar : Grammar where
  options := [⟨"project-root", .path⟩, ⟨"config", .path⟩, ⟨"listen", .text⟩,
    ⟨"instance-id", .text⟩, ⟨"warm", .flag⟩, ⟨"log", .text⟩]
  isVersioned := true

def parse (words : List String) : Except Interrupt Arguments := do
  let r ← grammar.parse words
  return {
    projectRoot := (r.value? "project-root").getD "."
    settingsPath := r.value? "config"
    listen := r.value? "listen"
    instanceId := r.value? "instance-id"
    warm := r.hasFlag "warm" }

def usage : String := "Usage: opsync-daemon [OPTIONS]\n"

def version : String := "opsync-daemon 0.1.0\n"

end Arguments

inductive BindError where
  | inUse
  | notAvailable
  deriving DecidableEq, Repr

def BindError.message : BindError → String
  | .inUse => "Address already in use (os error 98)"
  | .notAvailable => "Cannot assign requested address (os error 99)"

/-- A daemon that listens. -/
structure Running where
  address : SocketAddress
  settings : Settings
  service : Service
  cache : Memory

/-- The settings, with the address from the command line. -/
def settings (d : Disk) (a : Arguments) : Except Failure Settings := do
  let root := d.canonicalOr a.projectRoot
  let s ← d.projectSettings (a.settingsPath.getD (Settings.defaultPath root)) root
  return { s with server := { s.server with listen := a.listen.getD s.server.listen } }

/-- The new cache, with the watched files in it if they are to be compiled first. -/
def firstCache (d : Disk) (service : Service) (warm : Bool) : Memory :=
  if warm then ((service.watch.compileAll d (Memory.runtime d) true).run.run {}).2 else {}

/-- Goes through with the start. `bind` takes hold of an address, and `newId` is the name of a
daemon that is not given one. -/
def start (d : Disk) (a : Arguments) (bind : SocketAddress → Except BindError Unit)
    (newId : String) : Except Failure Running := do
  let s ← settings d a
  match SocketAddress.ofText? s.server.listen with
  | none => .error ⟨"invalid listen address " ++ s.server.listen, ["invalid socket address syntax"]⟩
  | some address =>
    let service := Service.ofSettings d s (a.instanceId.getD newId)
    match bind address with
    | .error e => .error ⟨"binding " ++ address.text, [e.message]⟩
    | .ok () => return ⟨address, s, service, firstCache d service a.warm⟩

/-- Starts the daemon from a command line. If it does not start, it leaves a result behind. -/
def run (d : Disk) (words : List String) (bind : SocketAddress → Except BindError Unit)
    (newId : String) : Except Result Running :=
  match Arguments.parse words with
  | .error interrupt => .error (interrupt.result Arguments.usage Arguments.version)
  | .ok a => (start d a bind newId).mapError (·.result)

end Daemon

end ScriptCache
