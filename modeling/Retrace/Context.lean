/-
# Execution contexts

A context is tracked from its creation, seen while recording or made again while replaying, until
it is retired.  What a log may still name of a retired context are the ids of its sentinels.

Modes, sentinels and the record of a dead context are those of the data model (specification,
section 3).
-/

import Retrace.LogId

namespace Retrace

/-- Whether a context was seen while recording or made again while replaying.  A replay that makes
or retires a context raises a flag, which the replay driver reads. -/
inductive ExecutionMode where
  /-- Seen while recording. -/
  | record
  /-- Made again while replaying. -/
  | replay
deriving DecidableEq

/-- The word for a mode, as it is written for people. -/
def ExecutionMode.name : ExecutionMode → String
  | .record => "record"
  | .replay => "replay"

instance : ToString ExecutionMode := ⟨ExecutionMode.name⟩

/-- A context that is being tracked, with the sentinels that it was registered with and the ids by
which a log names them. -/
structure TrackedContext where
  /-- Its number. -/
  id : ContextId
  /-- How it came to be tracked. -/
  mode : ExecutionMode
  /-- Its live sentinel objects. -/
  sentinels : PerSlot ObjectHandle
  /-- The ids of its sentinels. -/
  sentinelIds : PerSlot LogId
deriving DecidableEq

/-- What remains of a context that was retired while recording: its number and the ids of its
sentinels, which the log writer has still to write down. -/
structure DeadContext where
  /-- The retired context. -/
  context : ContextId
  /-- The ids that its sentinels had. -/
  ids : PerSlot LogId
deriving DecidableEq

/-- Reference to the object by which the host wraps a context.  It stays with the registry after the
context has been retired, until all contexts are cleared in bulk. -/
structure WrapperRef where
  /-- The host's number for the wrapper. -/
  index : UInt64
deriving DecidableEq

instance : ToString WrapperRef := ⟨fun w => s!"ext{w.index}"⟩

end Retrace
