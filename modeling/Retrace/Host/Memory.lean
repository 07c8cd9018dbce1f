/-
# A host in memory

A host that keeps the streams of its logs in memory, for trying out a registry without a real one.

| | |
| --- | --- |
| wrappers of contexts | 1000, 1001, … in the order made |
| streams | 1, 2, … in the order opened; reading starts at the beginning, writing goes to the end |
| external objects | `9000 + 10 * c + n` for the `n`th one made, in context `c` |

Any operation can be told to fail, with a reason, until told otherwise.

The specification leaves the storage of logs outside of the core (section 1), and this host stands
in for it.
-/

import Retrace.Host
import Retrace.OrderedMap
import Retrace.Registry.Lifecycle

namespace Retrace

/-- Where a log stream is stored.  Two streams of one name at different places are different. -/
structure StreamName where
  /-- The place of the log. -/
  uri : String
  /-- The name of the stream there. -/
  name : String
deriving DecidableEq

/-- A stream in use, to read or to write.  That it was opened for one of the two is not kept. -/
structure OpenStream where
  /-- Where it is stored. -/
  source : StreamName
  /-- How many bytes have been read. -/
  position : Nat
deriving DecidableEq

/-- A context that has been wrapped, with all that the host was told of it. -/
structure WrappedContext where
  /-- The context. -/
  context : ContextId
  /-- How it came to be tracked. -/
  mode : ExecutionMode
  /-- Its wrapper. -/
  wrapper : WrapperRef
deriving DecidableEq

/-- The state of a host in memory: what it stores, what it has handed out, and what it is told to
refuse. -/
structure MemoryHost where
  /-- What is stored, each stream once. -/
  stored : List (StreamName × List UInt8) := []
  /-- The streams in use. -/
  opened : OrderedMap StreamHandle OpenStream := .empty
  /-- How many streams have been opened. -/
  openCount : UInt64 := 0
  /-- How many external objects have been made. -/
  objectCount : UInt32 := 0
  /-- The operations that fail, each once, with the reason. -/
  faults : List (String × String) := []
  /-- The contexts that have been wrapped, oldest first. -/
  wrapped : List WrappedContext := []

namespace MemoryHost

/-- Makes an operation fail for a reason, which takes the place of an earlier one. -/
def fail (h : MemoryHost) (operation reason : String) : MemoryHost :=
  { h with faults := (operation, reason) :: h.faults.eraseP (·.1 = operation) }

/-- Lets an operation succeed again, and tells whether it was failing at all. -/
def unfail (h : MemoryHost) (operation : String) : Bool × MemoryHost :=
  ((h.faults.lookup operation).isSome, { h with faults := h.faults.eraseP (·.1 = operation) })

/-- Stores a stream, in place of one of the same name at the same place. -/
def store (h : MemoryHost) (source : StreamName) (data : List UInt8) : MemoryHost :=
  { h with stored := (source, data) :: h.stored.eraseP (·.1 = source) }

/-- Fails if the operation is to fail.  Every call of either table begins with it, so that a refused
one changes nothing. -/
def attempt (operation : String) : HostCall MemoryHost Unit := do
  match (← get).faults.lookup operation with
  | some reason => throw reason
  | none => pure ()

/-- The stream of a handle, which must be in use. -/
def openedStream (stream : StreamHandle) : HostCall MemoryHost OpenStream := do
  match (← get).opened.get? stream with
  | some o => pure o
  | none => throw "stale stream"

/-- Deletes what is stored at a place; streams of it that are in use stay so. -/
def initializeForWrite (uri : String) : HostCall MemoryHost Unit := do
  attempt "initialize_for_write"
  modify fun h => { h with stored := h.stored.filter (·.1.uri ≠ uri) }

/-- Opens a stream: to write, emptied; to read, only if it is stored.  Its handle is the number of
streams opened so far, itself included. -/
def openStream (uri name : String) (write : Bool) : HostCall MemoryHost StreamHandle := do
  attempt "open"
  let source : StreamName := ⟨uri, name⟩
  if write then modify fun h => h.store source []
  else if ((← get).stored.lookup source).isNone then throw s!"no stream {name}"
  let handle : StreamHandle := ⟨(← get).openCount + 1⟩
  modify fun h =>
    { h with openCount := handle.index, opened := h.opened.insert handle ⟨source, 0⟩ }
  return handle

/-- Reads on from where the stream is, as far as there is something.  At the end it reads nothing,
which is no failure. -/
def read (stream : StreamHandle) (limit : Nat) : HostCall MemoryHost (List UInt8) := do
  attempt "read"
  let o ← openedStream stream
  let bytes := ((((← get).stored.lookup o.source).getD []).drop o.position).take limit
  modify fun h =>
    { h with opened := h.opened.insert stream { o with position := o.position + bytes.length } }
  return bytes

/-- Writes at the end of what is stored, also if the stream was opened to read. -/
def write (stream : StreamHandle) (data : List UInt8) : HostCall MemoryHost Unit := do
  attempt "write"
  let o ← openedStream stream
  modify fun h => h.store o.source ((h.stored.lookup o.source).getD [] ++ data)

/-- Gives a handle back, so that it leads nowhere from then on.  What was stored stays. -/
def close (stream : StreamHandle) : HostCall MemoryHost Unit := do
  attempt "close"
  let _ ← openedStream stream
  modify fun h => { h with opened := h.opened.erase stream }

/-- Makes one more external object.  Its handle is worked out from the number of the context and how
many have been made, itself included. -/
def createExternalObject (ctx : ContextId) : HostCall MemoryHost ObjectHandle := do
  attempt "create_external_object"
  let count := (← get).objectCount + 1
  modify fun h => { h with objectCount := count }
  return ⟨9000 + 10 * ctx.index + count⟩

/-- Wraps one more context, and remembers that it did; wrapping is never refused. -/
def wrapContext : WrapContext MemoryHost := fun context mode h =>
  let wrapper : WrapperRef := ⟨1000 + h.wrapped.length.toUInt64⟩
  (wrapper, { h with wrapped := h.wrapped ++ [⟨context, mode, wrapper⟩] })

/-- All that this host supplies, with neither part left out. -/
def functions : HostFunctions MemoryHost where
  streams := some ⟨initializeForWrite, openStream, read, write, close⟩
  externalObjects := some createExternalObject

end MemoryHost

end Retrace
