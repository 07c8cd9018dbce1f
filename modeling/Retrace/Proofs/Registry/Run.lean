/-
# Runs of a registry

A registry changes by calls, one after another, some of which fail.  `Call` lists every call that
may change a registry; what only looks at one (`idOf`, `lookupObject`, `marks`, …) is not listed.

| in a call | stands for |
| --- | --- |
| `wrap` | the host, which wraps a new context as it likes, and by its own state |
| `action` of `onJournal` | whatever is done to a journal that has been handed out |
| `φ` | the state of all that surrounds the registry |

`Reachable` holds of the registries that some run leaves, from one that has just been created.

The list is that of the registry's operations (specification, section 4.1), which are made one after
another (section 5).
-/

import Retrace.Registry.Snapshot

namespace Retrace

namespace Action

variable {σ φ α β : Type}

/-- The state that an action leaves, whether it fails or not, for a failed action leaves one as
well. -/
def after (action : Action σ α) (s : σ) : σ :=
  match action s with
  | .ok _ s => s
  | .error _ s => s

/-- An action on a state beside which another one stands still. -/
def beside (action : Action σ α) : Action (σ × φ) α := fun t =>
  match action t.1 with
  | .ok a s => .ok a (s, t.2)
  | .error e s => .error e (s, t.2)

/-- An action that cannot fail. -/
def ofFn (f : σ → α × σ) : Action σ α := fun s => .ok (f s).1 (f s).2

theorem bind_apply (action : Action σ α) (f : α → Action σ β) (s : σ) :
    (action >>= f) s = match action s with
      | .ok a s => f a s
      | .error e s => .error e s := by
  show EStateM.bind action f s = _
  unfold EStateM.bind
  cases action s <;> rfl

theorem map_eq_ok_iff (g : α → β) (action : Action σ α) {s t : σ} {b : β} :
    (g <$> action : Action σ β) s = .ok b t ↔ ∃ a, action s = .ok a t ∧ g a = b := by
  show EStateM.map g action s = _ ↔ _
  unfold EStateM.map
  cases action s with
  | error e u => simp
  | ok a u =>
    constructor
    · intro h
      cases h
      exact ⟨a, rfl, rfl⟩
    · rintro ⟨a', h, rfl⟩
      cases h
      rfl

theorem map_of_eq_error (g : α → β) {action : Action σ α} {s t : σ} {e : Error}
    (h : action s = .error e t) : (g <$> action : Action σ β) s = .error e t := by
  show EStateM.map g action s = _
  unfold EStateM.map
  rw [h]

/-- An action succeeds beside a state that stands still as it does alone. -/
theorem map_beside_eq_ok_iff (g : α → β) (action : Action σ α) {t t' : σ × φ} {b : β} :
    (g <$> action.beside : Action (σ × φ) β) t = .ok b t' ↔
      ∃ a s, action t.1 = .ok a s ∧ g a = b ∧ t' = (s, t.2) := by
  rw [map_eq_ok_iff, beside]
  cases action t.1 with
  | error e s => simp
  | ok a s =>
    constructor
    · rintro ⟨a', h, rfl⟩
      cases h
      exact ⟨a, s, rfl, rfl, rfl⟩
    · rintro ⟨a', s', h, rfl, rfl⟩
      cases h
      exact ⟨a, rfl, rfl⟩

theorem after_of_eq_ok {action : Action σ α} {s t : σ} {a : α} (h : action s = .ok a t) :
    action.after s = t := by
  rw [after, h]

theorem after_of_eq_error {action : Action σ α} {s t : σ} {e : Error} (h : action s = .error e t) :
    action.after s = t := by
  rw [after, h]

@[simp] theorem after_beside (action : Action σ α) (t : σ × φ) :
    (action.beside : Action (σ × φ) α).after t = (action.after t.1, t.2) := by
  unfold after beside
  cases action t.1 <;> rfl

@[simp] theorem after_ofFn (f : σ → α × σ) (s : σ) : (ofFn f).after s = (f s).2 := rfl

@[simp] theorem after_map (g : α → β) (action : Action σ α) (s : σ) :
    Action.after (g <$> action : Action σ β) s = action.after s := by
  show Action.after (EStateM.map g action) s = action.after s
  unfold after EStateM.map
  cases action s <;> rfl

theorem after_map_beside (g : α → β) (action : Action σ α) (t : σ × φ) :
    Action.after (g <$> action.beside : Action (σ × φ) β) t = (action.after t.1, t.2) := by
  rw [after_map, after_beside]

end Action

namespace Registry

/-- A call that may change a registry, in surroundings whose state is a `φ`: the host that wraps
contexts, or what code is loaded in. -/
inductive Call (φ : Type) where
  /-- Tracks a new context. -/
  | registerContext (wrap : WrapContext φ) (mode : ExecutionMode) (sentinels : PerSlot ObjectHandle)
  /-- Tracks a context again under a recorded number. -/
  | registerRecorded (wrap : WrapContext φ) (recorded : ContextId)
      (sentinels : PerSlot ObjectHandle)
  /-- Makes a context the active one, or none. -/
  | setActive (ctx : Option ContextId)
  /-- Retires a context while recording. -/
  | destroyInRecord (ctx : ContextId)
  /-- Retires a context while replaying, by the ids of its sentinels. -/
  | destroyInReplay (ids : PerSlot LogId)
  /-- Forgets the contexts retired while recording. -/
  | clearDead
  /-- Forgets that a context was made or retired while replaying. -/
  | resetChangedInReplay
  /-- Leaves the signal that a context is gone. -/
  | signalRetired (ctx : ContextId)
  /-- Retires the contexts signalled. -/
  | processSignals
  /-- Forgets all contexts. -/
  | clearContexts
  /-- Pins an object for the log. -/
  | addRoot (obj : ObjectHandle)
  /-- Pins an object for the log under a recorded id. -/
  | addRootWithId (obj : ObjectHandle) (id : LogId)
  /-- Gives one pin for the log back. -/
  | removeRoot (obj : ObjectHandle)
  /-- Pins the sentinel in a slot of a context. -/
  | addSpecialRoot (ctx : ContextId) (slot : SentinelSlot)
  /-- Gives one pin on a sentinel back. -/
  | removeSpecialRoot (id : LogId)
  /-- Pins an object for the current debug step. -/
  | addLocalRoot (obj : ObjectHandle)
  /-- Ends a debug step. -/
  | refreshLocalRoots
  /-- Forgets all pins and all ordinary ids. -/
  | clearRoots
  /-- Works out the paths of the core image. -/
  | ensureCorePaths (image : CoreImage) (roots : List NamedRoot)
  /-- Acts on the journal of a context. -/
  | onJournal (ctx : ContextId) (action : Action (Journal × φ) Unit)

/-- What a call answers if it succeeds. -/
inductive Answer where
  /-- Nothing but that it is done. -/
  | done
  /-- A context. -/
  | context (ctx : ContextId)
  /-- An id. -/
  | id (id : LogId)
  /-- Contexts that have been retired. -/
  | retired (records : List DeadContext)
  /-- Wrappers that the host is to finalize. -/
  | wrappers (refs : List WrapperRef)
  /-- How many ids were dropped. -/
  | dropped (count : Nat)
  /-- Whether a signal was taken. -/
  | taken (room : Bool)

variable {φ : Type}

/-- Makes a call.  Whether it succeeds or fails, it leaves a registry and surroundings. -/
def Call.run : Call φ → Action (Registry × φ) Answer
  | registerContext wrap mode sentinels =>
    Answer.context <$> Registry.registerContext wrap mode sentinels
  | registerRecorded wrap recorded sentinels =>
    Answer.context <$> Registry.registerRecorded wrap recorded sentinels
  | setActive ctx => (fun _ => .done) <$> (Registry.setActive ctx).beside
  | destroyInRecord ctx => (fun d => .retired [d]) <$> (Registry.destroyInRecord ctx).beside
  | destroyInReplay ids => Answer.context <$> (Registry.destroyInReplay ids).beside
  | clearDead => (Action.ofFn fun r : Registry => (.done, r.clearDead)).beside
  | resetChangedInReplay => (Action.ofFn fun r : Registry => (.done, r.resetChangedInReplay)).beside
  | signalRetired ctx => Answer.taken <$> (Action.ofFn (·.signalRetired ctx)).beside
  | processSignals => Answer.retired <$> Registry.processSignals.beside
  | clearContexts => Answer.wrappers <$> (Action.ofFn Registry.clearContexts).beside
  | addRoot obj => Answer.id <$> (Registry.addRoot obj).beside
  | addRootWithId obj id => (fun _ => .done) <$> (Registry.addRootWithId obj id).beside
  | removeRoot obj => (fun _ => .done) <$> (Registry.removeRoot obj).beside
  | addSpecialRoot ctx slot => Answer.id <$> (Registry.addSpecialRoot ctx slot).beside
  | removeSpecialRoot id => (fun _ => .done) <$> (Registry.removeSpecialRoot id).beside
  | addLocalRoot obj => Answer.id <$> (Registry.addLocalRoot obj).beside
  | refreshLocalRoots => Answer.dropped <$> (Action.ofFn Registry.refreshLocalRoots).beside
  | clearRoots => (Action.ofFn fun r : Registry => (.done, r.clearRoots)).beside
  | ensureCorePaths image roots =>
    (fun _ => .done) <$> (Registry.ensureCorePaths image roots).beside
  | onJournal ctx action => (fun _ => .done) <$> Registry.onJournal ctx action

/-- A registry and its surroundings that a run leaves, whatever calls it makes and whichever fail,
from a registry created with some settings. -/
inductive Reachable (config : Config) : Registry × φ → Prop where
  /-- The registry has just been created. -/
  | created {r : Registry} (w : φ) : create config = .ok r → Reachable config (r, w)
  /-- One more call has been made. -/
  | called {t : Registry × φ} (c : Call φ) : Reachable config t → Reachable config (c.run.after t)

end Registry

end Retrace
