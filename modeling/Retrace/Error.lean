/-
# Errors

| error | raised when | fatal |
| --- | --- | --- |
| `notFound` | a key has no current mapping | no |
| `violation` | an invariant of recording or replay does not hold | yes |
| `capacityExceeded` | the list of contexts is full | yes |
| `host` | an operation of the host failed | yes |
| `config` | the configuration cannot be worked with | yes |
| `noRoom` | more room is asked for than there can be | yes |

A fatal error ends recording or replay, for a guessed answer would let the replay diverge unseen.
Only a mapping that is not there yet may be expected by a caller.  The last kind is no answer at all:
the program breaks off with these words.

The kinds but the last are those of the error handling design (specification, section 7), with its
words.
-/

import Retrace.Context
import Retrace.Room

namespace Retrace

/-- What kind of key a look-up was made with.  The kind stands in the message of a look-up that
fails, and nothing else depends on it. -/
inductive LookupKind where
  /-- A log id, or an object whose log id was asked for. -/
  | logId
  /-- An execution context. -/
  | context
  /-- A core path, or an entity whose core path was asked for. -/
  | corePath
  /-- A function body. -/
  | functionBody
  /-- A pending asynchronous write. -/
  | asyncWrite
  /-- A name in a sorted index. -/
  | name
deriving DecidableEq

/-- The words for a kind of key, as they stand in a message. -/
def LookupKind.words : LookupKind → String
  | .logId => "log pointer id"
  | .context => "context"
  | .corePath => "core path"
  | .functionBody => "function body"
  | .asyncWrite => "pending async write"
  | .name => "name"

/-- An invariant that does not hold.  Each comes with what is needed to name the trouble: the
objects, ids or paths that are in conflict. -/
inductive Violation where
  /-- A name that must be there was sought in an empty index. -/
  | emptyIndex (key : String)
  /-- A name that must be there is not in its index. -/
  | missingName (key : String)
  /-- Two targets compute one path. -/
  | pathClash (path : String) (holder wanted : CoreTarget)
  /-- A sentinel id was given for an object that it does not name. -/
  | sentinelNamesOther (id : LogId) (bound obj : ObjectHandle)
  /-- An ordinary id was given for a sentinel. -/
  | objectIsSentinel (obj : ObjectHandle) (own given : LogId)
  /-- An id was given that another object carries. -/
  | idTaken (id : LogId) (bound obj : ObjectHandle)
  /-- An id was given to an object that carries another one. -/
  | objectHasId (obj : ObjectHandle) (own given : LogId)
  /-- No ordinary id is left. -/
  | idsExhausted
  /-- A recorded context number is in use. -/
  | contextInUse (ctx : ContextId)
  /-- A sentinel of a new context carries an ordinary id. -/
  | sentinelHasId (obj : ObjectHandle) (own : LogId)
  /-- A sentinel of a new context is one of another context. -/
  | sharedSentinel (obj : ObjectHandle)
  /-- A property leads out of the arena. -/
  | danglingProperty (name : String) (owner : Nat) (target : ObjectHandle)
  /-- The body of an object lies outside the arena. -/
  | danglingBody (owner : Nat) (body : BodyHandle)
  /-- A nested body lies outside the arena. -/
  | danglingNested (owner : Nat) (body : BodyHandle)
  /-- A scope of a body lies outside the arena. -/
  | danglingScope (owner : Nat) (scope : ScopeHandle)
  /-- A root lies outside the arena. -/
  | danglingRoot (name : String) (target : ObjectHandle)
  /-- What a collaborator reports in its own words. -/
  | reported (what : String)
deriving DecidableEq

/-- A violation in words, without the introduction that all violations have in common. -/
def Violation.words : Violation → String
  | emptyIndex key => s!"required lookup of `{key}` in an empty name index"
  | missingName key => s!"required name `{key}` missing from name index"
  | pathClash path holder wanted =>
    s!"core path `{path}` assigned to both {holder.spelledOut} and {wanted.spelledOut}"
  | sentinelNamesOther id bound obj => s!"{id} maps to {bound}, not {obj}"
  | objectIsSentinel obj own given => s!"{obj} is sentinel {own}, not {given}"
  | idTaken id bound obj => s!"{id} already maps to {bound}, not {obj}"
  | objectHasId obj own given => s!"{obj} already has {own}, not {given}"
  | idsExhausted => "ordinary log pointer id range exhausted"
  | contextInUse ctx => s!"context {ctx} is already registered"
  | sentinelHasId obj own => s!"sentinel {obj} already has {own}"
  | sharedSentinel obj => s!"{obj} is a sentinel of another context"
  | danglingProperty name owner target =>
    s!"property `{name}` of obj{owner} refers to missing {target}"
  | danglingBody owner body => s!"obj{owner} refers to missing {body}"
  | danglingNested owner body => s!"body{owner} nests missing {body}"
  | danglingScope owner scope => s!"body{owner} refers to missing {scope}"
  | danglingRoot name target => s!"root `{name}` refers to missing {target}"
  | reported what => what

/-- Why a configuration cannot be worked with.  A registry is never made from such a
configuration. -/
inductive ConfigFault where
  /-- No context may be tracked. -/
  | noContexts
  /-- The first id to hand out is not ordinary. -/
  | firstIdOutOfRange (first : UInt64)
  /-- What a collaborator reports in its own words. -/
  | reported (what : String)
deriving DecidableEq

/-- A configuration fault in words, without the introduction that these faults have in common. -/
def ConfigFault.words : ConfigFault → String
  | noContexts => "max_contexts must be at least 1"
  | firstIdOutOfRange first => s!"first_log_pointer_id {first} is outside the ordinary id range"
  | reported what => what

/-- Why an operation failed.  Whether a failure is legitimate is for the caller to say, and only of
a key without a mapping (`Error.isFatal`). -/
inductive Error where
  /-- The key has no current mapping. -/
  | notFound (kind : LookupKind) (key : String)
  /-- An invariant does not hold. -/
  | violation (what : Violation)
  /-- The list of contexts is full. -/
  | capacityExceeded (limit : UInt64)
  /-- An operation of the host failed, for a reason of its own. -/
  | host (operation reason : String)
  /-- The configuration cannot be worked with. -/
  | config (fault : ConfigFault)
  /-- More room is asked for than there can be; the program breaks off. -/
  | noRoom (room : Room)
deriving DecidableEq

namespace Error

/-- An error in words, complete with the introduction of its kind. -/
def message : Error → String
  | notFound kind key => s!"no {kind.words} mapping for `{key}`"
  | violation what => s!"invariant violated: {what.words}"
  | capacityExceeded limit => s!"context capacity exceeded (limit {limit})"
  | host operation reason => s!"host callback `{operation}` failed: {reason}"
  | config fault => s!"invalid configuration: {fault.words}"
  | noRoom room => room.words

/-- Whether an error ends recording or replay.  Only a missing mapping does not, since a caller may
have asked in order to find out. -/
def isFatal : Error → Bool
  | notFound .. => false
  | _ => true

end Error

/-- Sets pieces of room aside, one after another, before anything else is done.  The first that is
too large ends it, and no other is tried. -/
def setAside (rooms : List Room) : Except Error Unit :=
  match rooms.find? fun room => ¬room.Fits with
  | some room => .error (.noRoom room)
  | none => .ok ()

/-- Either every piece fits, or one does not, and ends it. -/
theorem setAside_cases (rooms : List Room) :
    (setAside rooms = .ok () ∧ ∀ room ∈ rooms, room.Fits) ∨
      ∃ room ∈ rooms, ¬room.Fits ∧ setAside rooms = .error (.noRoom room) := by
  unfold setAside
  split
  · next room h =>
    have hnot : ¬room.Fits := by simpa using List.find?_some h
    exact .inr ⟨room, List.mem_of_find?_eq_some h, hnot, rfl⟩
  · next h => exact .inl ⟨rfl, fun room hroom => by simpa using List.find?_eq_none.1 h room hroom⟩

theorem setAside_eq_ok_iff {rooms : List Room} :
    setAside rooms = .ok () ↔ ∀ room ∈ rooms, room.Fits := by
  rcases setAside_cases rooms with ⟨h, hall⟩ | ⟨room, hroom, hnot, h⟩
  · exact ⟨fun _ => hall, fun _ => h⟩
  · exact ⟨fun hok => (nomatch hok.symm.trans h), fun hall => absurd (hall room hroom) hnot⟩

/-- Why a text describes nothing that can be worked with: it cannot be read at all, or what has been
read breaks a rule. -/
inductive TextFault where
  /-- The text does not have the form that it should have. -/
  | malformed
  /-- It has, but what it describes breaks a rule. -/
  | invalid (error : Error)
deriving DecidableEq

/-- A call that may change a state and may fail.  The state that it leaves is known in either case,
so that one can ask whether a failure has changed anything. -/
abbrev Action (σ α : Type) := EStateM Error σ α

end Retrace
