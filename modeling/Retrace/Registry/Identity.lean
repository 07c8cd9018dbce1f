/-
# Ids and roots

An object that is pinned has an id.  A sentinel of a tracked context has its sentinel id and no
other; any other object gets an ordinary id, which while recording is the next one in line and while
replaying is the one found in the log.

| pinned by | id | until |
| --- | --- | --- |
| `addRoot`, `addRootWithId` | ordinary or sentinel | `removeRoot`; the id lives on until a refresh |
| `addLocalRoot` | ordinary or sentinel | `refreshLocalRoots` |
| `addSpecialRoot` | sentinel | `removeSpecialRoot`, or the context is retired |

The calls are the general, special and local roots of the registry, and its resolution of ids
(specification, section 4.1).
-/

import Retrace.Registry.Basic

namespace Retrace

namespace Registry

/-! ## Resolution -/

/-- The id that an object has as a sentinel: that of the first slot it stands in, of the first
tracked context that has it. -/
def sentinelIdOf? (r : Registry) (obj : ObjectHandle) : Option LogId :=
  r.contexts.findSome? fun c => (c.sentinels.slotOf? obj).map (LogId.sentinel c.id)

/-- Whether an object is a sentinel of a tracked context, pinned or not. -/
def isSpecialRoot (r : Registry) (obj : ObjectHandle) : Bool :=
  r.contexts.any fun c => (c.sentinels.slotOf? obj).isSome

/-- The sentinel that an id names, which it does as long as its context is tracked; nothing has to
be pinned for it. -/
def lookupSentinel (r : Registry) (id : LogId) : Except Error ObjectHandle :=
  match id.asSentinel? with
  | none => .error (.notFound .logId (toString id))
  | some (ctx, slot) =>
    match r.context? ctx with
    | some c => .ok (c.sentinels.get slot)
    | none => .error (.notFound .logId (toString id))

/-- The object that an id names.  A sentinel id is decoded and resolved through its context, and any
other id is looked up. -/
def lookupObject (r : Registry) (id : LogId) : Except Error ObjectHandle :=
  if id.isSentinel then r.lookupSentinel id
  else match r.objectOfId.get? id with
    | some obj => .ok obj
    | none => .error (.notFound .logId (toString id))

/-- The id of an object: the ordinary one if it has one, else the one that it has as a sentinel of a
tracked context. -/
def idOf (r : Registry) (obj : ObjectHandle) : Except Error LogId :=
  match (r.idOfObject.get? obj).or (r.sentinelIdOf? obj) with
  | some id => .ok id
  | none => .error (.notFound .logId (toString obj))

/-- The tracked context whose global object an id names; the other sentinels of a context do not
stand for it. -/
def lookupContext (r : Registry) (id : LogId) : Except Error ContextId :=
  match r.contexts.find? fun c => c.sentinelIds.globalObject = id with
  | some c => .ok c.id
  | none => .error (.notFound .context (toString id))

/-! ## Giving ids -/

/-- Enters an object and its ordinary id in both maps.  Whether either of them is in use already is
for the caller to ask. -/
def bindId (r : Registry) (obj : ObjectHandle) (id : LogId) : Registry :=
  { r with
    objectOfId := r.objectOfId.insert id obj
    idOfObject := r.idOfObject.insert obj id }

/-- The id of an object, which is the next ordinary one if it has none.  The range of the sentinel
ids is never entered: before it the call fails. -/
def idOrNext (obj : ObjectHandle) : Action Registry LogId := fun r =>
  match (r.idOfObject.get? obj).or (r.sentinelIdOf? obj) with
  | some id => .ok id r
  | none =>
    if LogId.sentinelBase ≤ r.nextId then .error (.violation .idsExhausted) r
    else .ok ⟨r.nextId⟩ ({ r with nextId := r.nextId + 1 }.bindId obj ⟨r.nextId⟩)

/-! ## General roots -/

/-- Pins an object for the log, once more if it is pinned already.  It gets no id by that. -/
def pinRoot (r : Registry) (obj : ObjectHandle) : Registry :=
  { r with roots := (r.roots.pin obj).2 }

/-- Pins an object for the log and tells its id, giving it the next ordinary one if it has none. -/
def addRoot (obj : ObjectHandle) : Action Registry LogId := do
  let id ← idOrNext obj
  modify fun r => r.pinRoot obj
  return id

/-- What speaks against giving an object an ordinary id found in a log: it is a sentinel, the id
names another object, or the object has another id. -/
def bindingViolation? (r : Registry) (obj : ObjectHandle) (id : LogId) : Option Violation :=
  match r.sentinelIdOf? obj with
  | some own => some (.objectIsSentinel obj own id)
  | none =>
    match (r.objectOfId.get? id).filter fun bound => bound ≠ obj with
    | some bound => some (.idTaken id bound obj)
    | none =>
      ((r.idOfObject.get? obj).filter fun own => own ≠ id).map fun own => .objectHasId obj own id

/-- Pins an object for the log under the id found in the log.  Ids handed out later are above that
one; a sentinel id must already be the object's own. -/
def addRootWithId (obj : ObjectHandle) (id : LogId) : Action Registry Unit := fun r =>
  if id.isSentinel then
    match r.lookupSentinel id with
    | .error e => .error e r
    | .ok bound =>
      if bound = obj then .ok () (r.pinRoot obj)
      else .error (.violation (.sentinelNamesOther id bound obj)) r
  else
    match r.bindingViolation? obj id with
    | some v => .error (.violation v) r
    | none => .ok () ({ r.bindId obj id with nextId := max r.nextId (id.raw + 1) }.pinRoot obj)

/-- Gives one pin for the log back; the id stays until the next refresh, even if that was the last
pin. -/
def removeRoot (obj : ObjectHandle) : Action Registry Unit := fun r =>
  match r.roots.unpin obj with
  | (some _, roots) => .ok () { r with roots }
  | (none, _) => .error (.notFound .logId (toString obj)) r

/-! ## Special roots -/

/-- Pins the sentinel in a slot of a context and tells its id, which it has in any case. -/
def addSpecialRoot (ctx : ContextId) (slot : SentinelSlot) : Action Registry LogId := fun r =>
  match r.context ctx with
  | .error e => .error e r
  | .ok c =>
    .ok (.sentinel ctx slot)
      { r with specialRoots := (r.specialRoots.pin (c.sentinels.get slot)).2 }

/-- Gives one pin on the sentinel that an id names back.  Without such a pin the call fails, as it
does if the id names no sentinel. -/
def removeSpecialRoot (id : LogId) : Action Registry Unit := fun r =>
  match r.lookupSentinel id with
  | .error e => .error e r
  | .ok obj =>
    match r.specialRoots.unpin obj with
    | (some _, specialRoots) => .ok () { r with specialRoots }
    | (none, _) => .error (.notFound .logId (toString id)) r

/-! ## Local roots -/

/-- Pins an object for the current debug step and tells its id, giving it the next ordinary one if
it has none. -/
def addLocalRoot (obj : ObjectHandle) : Action Registry LogId := do
  let id ← idOrNext obj
  modify fun r => { r with localRoots := (r.localRoots.pin obj).2 }
  return id

/-- Ends a debug step: gives the local pins back, drops the ordinary ids of objects that are not
pinned for the log, and tells how many those were. -/
def refreshLocalRoots (r : Registry) : Nat × Registry :=
  let objectOfId := r.objectOfId.filter fun e => r.roots.contains e.2
  (r.objectOfId.size - objectOfId.size,
    { r with
      localRoots := .empty
      objectOfId
      idOfObject := r.idOfObject.filter fun e => r.roots.contains e.1 })

end Registry

end Retrace
