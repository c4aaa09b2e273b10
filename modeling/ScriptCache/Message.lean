import ScriptCache.Json
import ScriptCache.Json.Decode
import ScriptCache.Reconcile.Plan
import ScriptCache.Source.ParseError

/-!
# Messages between a daemon and its clients

The bodies of requests and answers, and how each is written and read.
-/

namespace ScriptCache

open Json.Tree (readBool readString readNat64 readRecord readList readWord)

def Source.TypeKind.readJson : Json.Decoder Source.TypeKind := readWord (·.keyword) Source.TypeKind.all

def Strategy.readJson : Json.Decoder Strategy := readWord (·.name) Strategy.all

def Registry.toJson (r : Registry) : Json :=
  .object (r.entries.map fun (path, mtime) ↦ (path, .int mtime))

def Registry.readJson : Json.Decoder Registry := Json.readRegistry

/-- What a cache is and holds at the time it is asked. -/
structure Snapshot where
  available : Bool
  enabled : Bool
  scripts : Registry

namespace Snapshot

def toJson (s : Snapshot) : Json :=
  .object [("available", .bool s.available), ("enabled", .bool s.enabled),
    ("scripts", s.scripts.toJson)]

def readJson : Json.Decoder Snapshot :=
  readRecord
    [.of "available" readBool (fun s v ↦ { s with available := v }) false,
      .of "enabled" readBool (fun s v ↦ { s with enabled := v }) false,
      .of "scripts" Registry.readJson (fun s v ↦ { s with scripts := v }) false]
    ⟨false, false, .empty⟩

end Snapshot

structure StatusReply where
  instanceId : String
  available : Bool
  enabled : Bool
  /-- How many scripts are cached. -/
  scripts : Nat
  deriving DecidableEq, Repr

namespace StatusReply

def toJson (r : StatusReply) : Json :=
  .object [("instance_id", .string r.instanceId), ("available", .bool r.available),
    ("enabled", .bool r.enabled), ("scripts", .nat r.scripts)]

def readJson : Json.Decoder StatusReply :=
  readRecord
    [.of "instance_id" readString (fun r v ↦ { r with instanceId := v }) false,
      .of "available" readBool (fun r v ↦ { r with available := v }) false,
      .of "enabled" readBool (fun r v ↦ { r with enabled := v }) false,
      .of "scripts" readNat64 (fun r v ↦ { r with scripts := v }) false]
    ⟨"", false, false, 0⟩

end StatusReply

structure CompileRequest where
  /-- Compile every watched file, and not only those that need it. -/
  force : Bool := false
  deriving DecidableEq, Repr

namespace CompileRequest

def toJson (r : CompileRequest) : Json := .object [("force", .bool r.force)]

def readJson : Json.Decoder CompileRequest :=
  readRecord [.of "force" readBool (fun r v ↦ { r with force := v }) true] {}

end CompileRequest

/-- A file that was not compiled, and why. -/
structure FailureRow where
  path : Path
  error : String
  deriving DecidableEq, Repr

namespace FailureRow

def toJson (r : FailureRow) : Json :=
  .object [("path", .string r.path), ("error", .string r.error)]

def readJson : Json.Decoder FailureRow :=
  readRecord
    [.of "path" readString (fun r v ↦ { r with path := v }) false,
      .of "error" readString (fun r v ↦ { r with error := v }) false]
    ⟨"", ""⟩

end FailureRow

structure CompileReply where
  compiled : Nat
  failed : List FailureRow
  deriving DecidableEq, Repr

namespace CompileReply

def toJson (r : CompileReply) : Json :=
  .object [("compiled", .nat r.compiled), ("failed", .array (r.failed.map FailureRow.toJson))]

def readJson : Json.Decoder CompileReply :=
  readRecord
    [.of "compiled" readNat64 (fun r v ↦ { r with compiled := v }) false,
      .of "failed" (readList FailureRow.readJson) (fun r v ↦ { r with failed := v }) false]
    ⟨0, []⟩

end CompileReply

structure ResetReply where
  ok : Bool
  deriving DecidableEq, Repr

namespace ResetReply

def toJson (r : ResetReply) : Json := .object [("ok", .bool r.ok)]

def readJson : Json.Decoder ResetReply :=
  readRecord [.of "ok" readBool (fun r v ↦ { r with ok := v }) false] ⟨false⟩

end ResetReply

/-- The body of an answer that reports a failure. -/
structure ErrorReply where
  error : String
  deriving DecidableEq, Repr

namespace ErrorReply

def toJson (r : ErrorReply) : Json := .object [("error", .string r.error)]

def readJson : Json.Decoder ErrorReply :=
  readRecord [.of "error" readString (fun r v ↦ { r with error := v }) false] ⟨""⟩

end ErrorReply

end ScriptCache
