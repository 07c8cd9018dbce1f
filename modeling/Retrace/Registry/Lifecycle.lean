/-
# The life of a context

A context is tracked from its registration to its retirement.  A new context gets the next number;
one that is made again while replaying keeps the number that the log has for it.  Its wrapper, which
the host makes, outlives it until all contexts are cleared.

The collector cannot retire a context while it sweeps.  It leaves a signal in storage of fixed size,
and `processSignals` retires the contexts signalled.

The calls are those of the registry about contexts, from *register context* to *bulk clear*, and the
collector notifier (specification, sections 4.1 and 5).
-/

import Retrace.Registry.Identity

namespace Retrace

/-- How the host, whose state is a `φ`, wraps a new context.  It cannot fail, and is told the number
and the mode of the context. -/
abbrev WrapContext (φ : Type) := ContextId → ExecutionMode → StateM φ WrapperRef

namespace Registry

/-- The number after a context number; the last one has itself, so that a count of contexts gets
stuck there rather than starting again. -/
def numberAfter (ctx : ContextId) : UInt32 :=
  if ctx.index = 0xFFFFFFFF then ctx.index else ctx.index + 1

/-- What speaks against an object as a sentinel of a new context: an ordinary id, or being a
sentinel of another one. -/
def sentinelViolation? (r : Registry) (obj : ObjectHandle) : Option Violation :=
  match r.idOfObject.get? obj with
  | some own => some (.sentinelHasId obj own)
  | none => if r.isSpecialRoot obj then some (.sharedSentinel obj) else none

/-- Why a context with certain sentinels cannot be tracked: there are as many as there may be, or
the first sentinel that something speaks against. -/
def refusal? (r : Registry) (sentinels : PerSlot ObjectHandle) : Option Error :=
  if r.config.maxContexts.toNat ≤ r.contexts.length then
    some (.capacityExceeded r.config.maxContexts)
  else (sentinels.toList.findSome? r.sentinelViolation?).map .violation

/-- The registry with one more context, which comes last, has an empty journal, and keeps the host's
wrapper.  A context made again in replay is noted as such. -/
def track (r : Registry) (ctx : ContextId) (mode : ExecutionMode)
    (sentinels : PerSlot ObjectHandle) (wrapper : WrapperRef) : Registry :=
  { r with
    contexts := r.contexts ++ [⟨ctx, mode, sentinels, LogId.sentinelsOf ctx⟩]
    nextContext := max r.nextContext (numberAfter ctx)
    journals := r.journals.insert ctx { context := ctx }
    wrappers := r.wrappers.insert ctx wrapper
    changedInReplay := r.changedInReplay || mode = .replay }

/-- Tracks a context under a number, if nothing speaks against it; only then is it wrapped.  So a
refused context leaves no trace with the host. -/
def enroll {φ : Type} (wrap : WrapContext φ) (ctx : ContextId) (mode : ExecutionMode)
    (sentinels : PerSlot ObjectHandle) : Action (Registry × φ) ContextId := fun (r, host) =>
  match r.refusal? sentinels with
  | some e => .error e (r, host)
  | none =>
    let (wrapper, host) := wrap ctx mode host
    .ok ctx (r.track ctx mode sentinels wrapper, host)

/-- Tracks a new context, in either mode, and tells its number, which is the next one.  Whether that
number is in use is not asked. -/
def registerContext {φ : Type} (wrap : WrapContext φ) (mode : ExecutionMode)
    (sentinels : PerSlot ObjectHandle) : Action (Registry × φ) ContextId := fun (r, host) =>
  enroll wrap ⟨r.nextContext⟩ mode sentinels (r, host)

/-- Tracks a context again, while replaying, under the number that the log has for it.  The number
must be free, also of contexts that have been retired but whose wrapper is kept. -/
def registerRecorded {φ : Type} (wrap : WrapContext φ) (recorded : ContextId)
    (sentinels : PerSlot ObjectHandle) : Action (Registry × φ) ContextId := fun (r, host) =>
  if r.isTracked recorded || r.wrappers.contains recorded then
    .error (.violation (.contextInUse recorded)) (r, host)
  else enroll wrap recorded .replay sentinels (r, host)

/-- Makes a context the active one, or none.  Only a tracked context can be active. -/
def setActive (ctx : Option ContextId) : Action Registry Unit := fun r =>
  match ctx.filter fun c => !r.isTracked c with
  | some c => .error (.notFound .context (toString c)) r
  | none => .ok () { r with active := ctx }

/-- The host's wrapper of a context, also after that was retired, until all contexts are cleared. -/
def wrapperOf (r : Registry) (ctx : ContextId) : Except Error WrapperRef :=
  match r.wrappers.get? ctx with
  | some w => .ok w
  | none => .error (.notFound .context (toString ctx))

/-- The registry without a tracked context: with it go its journal and the pins by slot on its
sentinels.  Its wrapper stays, and so do all other pins. -/
def dropContext (r : Registry) (c : TrackedContext) : Registry :=
  { r with
    contexts := r.contexts.eraseP fun d => d.id = c.id
    active := if r.active = some c.id then none else r.active
    specialRoots := c.sentinels.toList.foldl (fun pins obj => (pins.release obj).2) r.specialRoots
    journals := r.journals.erase c.id }

/-- Retires a context while recording, and remembers the ids of its sentinels, for the log writer to
tell the replay. -/
def destroyInRecord (ctx : ContextId) : Action Registry DeadContext := fun r =>
  match r.context ctx with
  | .error e => .error e r
  | .ok c =>
    let record : DeadContext := ⟨ctx, c.sentinelIds⟩
    let r := r.dropContext c
    .ok record { r with dead := r.dead ++ [record] }

/-- Retires, while replaying, the context whose global object has the id that the log reports.  The
other four ids are not looked at. -/
def destroyInReplay (ids : PerSlot LogId) : Action Registry ContextId := fun r =>
  match r.lookupContext ids.globalObject with
  | .error e => .error e r
  | .ok ctx =>
    match r.context ctx with
    | .error e => .error e r
    | .ok c => .ok ctx { r.dropContext c with changedInReplay := true }

/-- What remains of a context that was retired while recording: of its first retirement, should
there have been several under its number. -/
def deadContext (r : Registry) (ctx : ContextId) : Except Error DeadContext :=
  match r.dead.find? fun d => d.context = ctx with
  | some d => .ok d
  | none => .error (.notFound .context (toString ctx))

/-- Forgets the contexts retired while recording, once the log writer has told of them. -/
def clearDead (r : Registry) : Registry := { r with dead := [] }

/-- Forgets that a context was made or retired while replaying, once the replay driver has seen
it. -/
def resetChangedInReplay (r : Registry) : Registry := { r with changedInReplay := false }

/-! ## Signals of the collector -/

/-- Leaves the signal that a context is gone, and tells whether there was room for it.  Nothing else
is touched, so that the collector may do it while it sweeps. -/
def signalRetired (r : Registry) (ctx : ContextId) : Bool × Registry :=
  if r.config.maxContexts.toNat ≤ r.signals.length then (false, r)
  else (true, { r with signals := r.signals ++ [ctx] })

/-- Retires the contexts in a list that are still tracked when their turn comes, and passes over the
others. -/
def retireAll : List ContextId → Action Registry (List DeadContext)
  | [] => pure []
  | ctx :: rest => do
    if (← get).isTracked ctx then
      let record ← destroyInRecord ctx
      return record :: (← retireAll rest)
    else retireAll rest

/-- Takes the signals and retires the contexts signalled, in the order of their first signals, as if
each had been destroyed in record mode. -/
def processSignals : Action Registry (List DeadContext) := do
  let signals := (← get).signals
  modify fun r => { r with signals := [] }
  retireAll signals

/-! ## Before a snapshot is restored -/

/-- Forgets all contexts, and hands out the wrappers, also of retired ones, in the order of context
numbers.  The host has to finalize them. -/
def clearContexts (r : Registry) : List WrapperRef × Registry :=
  (r.wrappers.values,
    { r with
      contexts := []
      journals := .empty
      wrappers := .empty
      active := none
      specialRoots := .empty
      signals := [] })

/-- Forgets all pins and all ordinary ids, as before a snapshot is restored.  The contexts stay, and
the next ordinary id is what it was. -/
def clearRoots (r : Registry) : Registry :=
  { r with
    roots := .empty
    localRoots := .empty
    specialRoots := .empty
    objectOfId := .empty
    idOfObject := .empty }

end Registry

end Retrace
