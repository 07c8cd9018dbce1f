/-
# The identity registry

One registry serves one runtime thread.  It holds

| part | |
| --- | --- |
| `contexts`, `nextContext`, `active` | the tracked contexts, oldest first |
| `journals`, `wrappers` | the journal and the host's wrapper of each context |
| `dead`, `changedInReplay`, `signals` | what happened to contexts, for the log and the collector |
| `objectOfId`, `idOfObject`, `nextId` | the ordinary ids in use, both ways, and the next one |
| `roots`, `localRoots`, `specialRoots` | what is pinned |
| `corePaths` | the paths of the core image, once they have been asked for |

Sentinel ids are in neither map: they are decoded and resolved through the tracked contexts.

This is the registry of the specification (section 4.1), which composes the journals and the path
resolver.
-/

import Retrace.CorePaths
import Retrace.Journal

namespace Retrace

/-- The identities of one runtime thread: which contexts are tracked, which objects have ids, and
what is pinned.  Calls are made one after another, so that nothing in here is ever locked. -/
structure Registry where
  /-- The settings that the registry was made with. -/
  config : Config
  /-- The tracked contexts, oldest first. -/
  contexts : List TrackedContext := []
  /-- The number that the next new context gets. -/
  nextContext : UInt32 := 0
  /-- The active context. -/
  active : Option ContextId := none
  /-- The journals of the tracked contexts. -/
  journals : OrderedMap ContextId Journal := .empty
  /-- The host's wrappers, also of contexts that have been retired. -/
  wrappers : OrderedMap ContextId WrapperRef := .empty
  /-- The contexts retired while recording, oldest first. -/
  dead : List DeadContext := []
  /-- Whether a context was made or retired while replaying. -/
  changedInReplay : Bool := false
  /-- The ordinary id that is handed out next. -/
  nextId : UInt64
  /-- The object of each ordinary id in use. -/
  objectOfId : OrderedMap LogId ObjectHandle := .empty
  /-- The ordinary id of each object that has one. -/
  idOfObject : OrderedMap ObjectHandle LogId := .empty
  /-- Objects pinned for the log. -/
  roots : PinSet ObjectHandle := .empty
  /-- Objects pinned for the current debug step. -/
  localRoots : PinSet ObjectHandle := .empty
  /-- Sentinels pinned by context and slot. -/
  specialRoots : PinSet ObjectHandle := .empty
  /-- Contexts that the collector reports as gone, oldest first. -/
  signals : List ContextId := []
  /-- The paths of the core image. -/
  corePaths : Option CorePaths := none

namespace Registry

/-- The room that a new registry sets aside for as many contexts as may be tracked, and for as many
signals. -/
def rooms (config : Config) : List Room :=
  [.list config.maxContexts.toNat 72, .list config.maxContexts.toNat 4]

/-- A new registry, if the settings can be worked with, and there can be room for as many contexts
as may be tracked.  Nothing is tracked, pinned or named yet. -/
def create (config : Config) : Except Error Registry := do
  config.validate
  setAside (rooms config)
  return { config, nextId := config.firstLogId }

/-- A tracked context by its number; nothing if the context was never registered, or has been
retired since. -/
def context? (r : Registry) (ctx : ContextId) : Option TrackedContext :=
  r.contexts.find? fun c => c.id = ctx

/-- A tracked context by its number.  It must be tracked, else the call that needs it fails and
names the number. -/
def context (r : Registry) (ctx : ContextId) : Except Error TrackedContext :=
  match r.context? ctx with
  | some c => .ok c
  | none => .error (.notFound .context (toString ctx))

/-- Whether a context is tracked, that is, registered and neither retired nor cleared since. -/
def isTracked (r : Registry) (ctx : ContextId) : Bool := r.contexts.any fun c => c.id = ctx

/-- The journal of a context, which is there from its registration to its retirement. -/
def journal (r : Registry) (ctx : ContextId) : Except Error Journal :=
  match r.journals.get? ctx with
  | some j => .ok j
  | none => .error (.notFound .context (toString ctx))

/-- Acts on the journal of a context, and on whatever else the call works with.  The journal is put
back as the action leaves it, also when the action fails. -/
def onJournal {σ α : Type} (ctx : ContextId) (action : Action (Journal × σ) α) :
    Action (Registry × σ) α := fun (r, s) =>
  match r.journal ctx with
  | .error e => .error e (r, s)
  | .ok j =>
    match action (j, s) with
    | .ok a (j, s) => .ok a ({ r with journals := r.journals.insert ctx j }, s)
    | .error e (j, s) => .error e ({ r with journals := r.journals.insert ctx j }, s)

/-- The paths of the core image: worked out when first asked for, and the same ever after, whatever
image is shown then.  If that fails nothing is kept, and the next call tries again. -/
def ensureCorePaths (image : CoreImage) (roots : List NamedRoot) : Action Registry CorePaths :=
  fun r =>
    match r.corePaths with
    | some p => .ok p r
    | none =>
      match CorePaths.buildFor r.config image roots with
      | .ok p => .ok p { r with corePaths := some p }
      | .error e => .error e r

end Registry

end Retrace
