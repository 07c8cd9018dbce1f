/-
# The host

The host stores the log and makes the objects that the log refers to but the engine does not own.

| operation | does |
| --- | --- |
| `initialize_for_write` | makes a place ready for a new log |
| `open` | opens a stream of a log, to read or to write |
| `read`, `write` | copies bytes out of a stream, or into it |
| `close` | ends the use of a stream |
| `create_external_object` | makes an object of the host for a context |

The operations come in two tables, either of which the host may leave out.  A failure, or a table
that is not there, is an error of the operation; nothing is tried twice.

The tables are the external interfaces that the host supplies (specification, section 6).
-/

import Retrace.Config

namespace Retrace

/-- Handle of an open stream of a log.  The host chooses its number, and only the host can tell what
it stands for. -/
structure StreamHandle where
  /-- The host's number for the stream. -/
  index : UInt64
deriving DecidableEq

instance : Numbered StreamHandle where
  number h := h.index.toNat
  number_injective {a b} h := by cases a; cases b; simpa using UInt64.toNat_inj.1 h

/-- A call of the host, which may change the host's state or fail for a reason of its own.  A failed
call may have changed the state, too. -/
abbrev HostCall (σ α : Type) := EStateM String σ α

/-- The host's operations on the streams of a log, as one table that is there as a whole or not at
all. -/
structure LogStreams (σ : Type) where
  /-- Makes the place `uri` ready for writing. -/
  initializeForWrite : (uri : String) → HostCall σ Unit
  /-- Opens a stream at a place, to write or else to read. -/
  openStream : (uri name : String) → (write : Bool) → HostCall σ StreamHandle
  /-- Reads at most so many bytes. -/
  read : StreamHandle → (limit : Nat) → HostCall σ (List UInt8)
  /-- Writes all of the bytes. -/
  write : StreamHandle → (data : List UInt8) → HostCall σ Unit
  /-- Ends the use of a stream. -/
  close : StreamHandle → HostCall σ Unit

/-- What the host supplies to a registry.  Either part may be left out, and what needs it fails
then. -/
structure HostFunctions (σ : Type) where
  /-- The streams of a log. -/
  streams : Option (LogStreams σ) := none
  /-- Makes an object of the host for a context. -/
  externalObjects : Option (ContextId → HostCall σ ObjectHandle) := none

/-- Makes a call of the host; a failure is an error of the operation, with the host's reason as it
stands. -/
def HostCall.named {σ α : Type} (operation : String) (call : HostCall σ α) : Action σ α := fun s =>
  match call s with
  | .ok a s => .ok a s
  | .error reason s => .error (.host operation reason) s

namespace HostFunctions

variable {σ : Type}

instance : ToString (HostFunctions σ) where
  toString f :=
    let streams := f.streams.isSome
    let objects := f.externalObjects.isSome
    s!"HostFunctions \x7b streams: {streams}, external_objects: {objects} \x7d"

/-- Makes a call of the stream table, and fails, without calling anything, if there is none. -/
def onStreams {α : Type} (f : HostFunctions σ) (operation : String)
    (call : LogStreams σ → HostCall σ α) : Action σ α :=
  match f.streams with
  | some table => (call table).named operation
  | none => throw (.host "streams" "no log stream functions installed")

/-- Makes a place ready for writing, whatever the host takes that to be. -/
def initializeForWrite (f : HostFunctions σ) (uri : String) : Action σ Unit :=
  f.onStreams "initialize_for_write" (·.initializeForWrite uri)

/-- Makes the configured place ready for writing; the place is handed on as the settings have it. -/
def initializeLog (f : HostFunctions σ) (c : Config) : Action σ Unit := f.initializeForWrite c.uri

/-- Opens a stream of the log at a place, to write or else to read. -/
def openStream (f : HostFunctions σ) (uri name : String) (write : Bool) : Action σ StreamHandle :=
  f.onStreams "open" (·.openStream uri name write)

/-- Writes all of the bytes to a stream.  A host that cannot take them all has to fail. -/
def writeStream (f : HostFunctions σ) (stream : StreamHandle) (data : List UInt8) :
    Action σ Unit :=
  f.onStreams "write" (·.write stream data)

/-- Reads at most so many bytes from a stream, and possibly fewer, where it ends. -/
def readStream (f : HostFunctions σ) (stream : StreamHandle) (limit : Nat) :
    Action σ (List UInt8) :=
  f.onStreams "read" (·.read stream limit)

/-- Ends the use of a stream; what is still on its way to where the host stores it gets there. -/
def closeStream (f : HostFunctions σ) (stream : StreamHandle) : Action σ Unit :=
  f.onStreams "close" (·.close stream)

/-- Makes an object of the host for a context, which a replay does in place of what the host did
while recording. -/
def createExternalObject (f : HostFunctions σ) (ctx : ContextId) : Action σ ObjectHandle :=
  match f.externalObjects with
  | some create => HostCall.named "create_external_object" (create ctx)
  | none => throw (.host "create_external_object" "no external object factory installed")

end HostFunctions

end Retrace
