/-
# What a call does to the bookkeeping of contexts

Tracked contexts are accounted for in eight places: the list of them, the next number, the active
one, the journals, the wrappers, the signals, the pins by slot, and the settings that bound them.  A
call changes them by a few small steps, one after the other (`Call.contextSteps`), so what every step
keeps is kept by every call (`ContextSteps.keeps`).

| step | made by |
| --- | --- |
| `same` | every call that fails, and all that a call does elsewhere |
| `tracked` | `registerContext`, `registerRecorded` |
| `activated` | `setActive` |
| `dropped` | `destroyInRecord`, `destroyInReplay`, and `processSignals` for each context retired |
| `written` | `onJournal` |
| `signalled` | `signalRetired`, `processSignals` |
| `pinned` | `addSpecialRoot`, `removeSpecialRoot`, `clearRoots` |
| `cleared` | `clearContexts` |

The steps gather what the specification says of contexts, operation by operation (section 4.1).
-/

import Mathlib.Logic.Relation
import Retrace.Proofs.Registry.IdSteps

namespace Retrace

namespace Registry

variable {φ : Type}

/-! ## Steps -/

/-- The bookkeeping of contexts is as before: which are tracked, which is active, and what is kept
about each. -/
structure SameContexts (r r' : Registry) : Prop where
  /-- The settings are as before. -/
  config : r'.config = r.config
  /-- The tracked contexts are as before. -/
  contexts : r'.contexts = r.contexts
  /-- The next number is as before. -/
  nextContext : r'.nextContext = r.nextContext
  /-- The active context is as before. -/
  active : r'.active = r.active
  /-- The journals are as before. -/
  journals : r'.journals = r.journals
  /-- The wrappers are as before. -/
  wrappers : r'.wrappers = r.wrappers
  /-- The signals are as before. -/
  signals : r'.signals = r.signals
  /-- The pins by slot are as before. -/
  specialRoots : r'.specialRoots = r.specialRoots

theorem SameContexts.refl (r : Registry) : SameContexts r r :=
  ⟨rfl, rfl, rfl, rfl, rfl, rfl, rfl, rfl⟩

/-- One step of what a call does to the bookkeeping of contexts.  A call may make several, as when
it retires all contexts that were signalled. -/
inductive ContextStep (c : Call φ) (r : Registry) : Registry → Prop where
  /-- It leaves the bookkeeping alone. -/
  | same {r' : Registry} : SameContexts r r' → ContextStep c r r'
  /-- It tracks a context with the sentinels given, which are not refused, under a number that has no
  wrapper or is the next one. -/
  | tracked {sentinels : PerSlot ObjectHandle} (ctx : ContextId) (mode : ExecutionMode)
      (wrapper : WrapperRef) : c.sentinels? = some sentinels → r.refusal? sentinels = none →
      (r.wrappers.contains ctx = true → ctx = ⟨r.nextContext⟩) →
      ContextStep c r (r.track ctx mode sentinels wrapper)
  /-- It makes a tracked context the active one, or none. -/
  | activated {ctx : Option ContextId} : (∀ q, ctx = some q → r.isTracked q = true) →
      ContextStep c r { r with active := ctx }
  /-- It drops a context. -/
  | dropped {d : TrackedContext} : r.context? d.id = some d → ContextStep c r (r.dropContext d)
  /-- It acts on a journal as it has been told to. -/
  | written {ctx : ContextId} {action : Action (Journal × φ) Unit} {j : Journal} (s : φ) :
      c = .onJournal ctx action → r.journals.get? ctx = some j →
      ContextStep c r { r with journals := r.journals.insert ctx (action.after (j, s)).1 }
  /-- It leaves signals, as many as there is room for. -/
  | signalled {signals : List ContextId} : signals.length ≤ r.config.maxContexts.toNat →
      ContextStep c r { r with signals }
  /-- It pins sentinels by slot, or gives such pins back. -/
  | pinned {pins : PinSet ObjectHandle} : (∀ obj, pins.contains obj = true →
      r.specialRoots.contains obj = true ∨ r.isSpecialRoot obj = true) →
      ContextStep c r { r with specialRoots := pins }
  /-- It forgets all contexts. -/
  | cleared : c = .clearContexts → ContextStep c r r.clearContexts.2

/-- Steps of what a call does to the bookkeeping of contexts, one after the other. -/
abbrev ContextSteps (c : Call φ) : Registry → Registry → Prop :=
  Relation.ReflTransGen (ContextStep c)

/-- **What every step keeps is kept by all of them**: by induction on the steps that a call
makes. -/
theorem ContextSteps.keeps {c : Call φ} {P : Registry → Prop} {r r' : Registry}
    (h : ContextSteps c r r') (hstep : ∀ {s s'}, P s → ContextStep c s s' → P s') (hr : P r) :
    P r' := by
  induction h with
  | refl => exact hr
  | tail _ hs ih => exact hstep ih hs

/-! ## The steps of each call -/

variable (c : Call φ)

theorem contextSteps_setActive (ctx : Option ContextId) (r : Registry) :
    ContextSteps c r ((setActive ctx).after r) := by
  unfold Action.after setActive
  cases hf : ctx.filter fun q => !r.isTracked q with
  | some q => exact .refl
  | none =>
    refine .single (.activated fun q hq => ?_)
    subst hq
    simpa [Option.filter] using hf

theorem contextSteps_destroyInRecord (ctx : ContextId) (r : Registry) :
    ContextSteps c r ((destroyInRecord ctx).after r) := by
  unfold Action.after destroyInRecord
  cases hc : r.context ctx with
  | error e => exact .refl
  | ok d =>
    have hd := (context_eq_ok_iff r).1 hc
    obtain ⟨_, rfl⟩ := mem_of_context? hd
    exact .tail (.single (.dropped hd)) (.same ⟨rfl, rfl, rfl, rfl, rfl, rfl, rfl, rfl⟩)

theorem contextSteps_destroyInReplay (ids : PerSlot LogId) (r : Registry) :
    ContextSteps c r ((destroyInReplay ids).after r) := by
  unfold Action.after destroyInReplay
  cases r.lookupContext ids.globalObject with
  | error e => exact .refl
  | ok ctx =>
    dsimp only
    cases hc : r.context ctx with
    | error e => exact .refl
    | ok d =>
      have hd := (context_eq_ok_iff r).1 hc
      obtain ⟨_, rfl⟩ := mem_of_context? hd
      exact .tail (.single (.dropped hd)) (.same ⟨rfl, rfl, rfl, rfl, rfl, rfl, rfl, rfl⟩)

theorem contextSteps_signalRetired (ctx : ContextId) (r : Registry) :
    ContextSteps c r (r.signalRetired ctx).2 := by
  unfold signalRetired
  split
  · exact .refl
  · rename_i hlt
    refine .single (.signalled ?_)
    rw [List.length_append, List.length_singleton]
    omega

theorem contextSteps_retireAll (ctxs : List ContextId) (r : Registry) :
    ContextSteps c r ((retireAll ctxs).after r) := by
  induction ctxs generalizing r with
  | nil => exact .refl
  | cons ctx rest ih =>
    rw [after_retireAll_cons]
    exact (contextSteps_destroyInRecord c ctx r).trans (ih _)

theorem contextSteps_processSignals (r : Registry) :
    ContextSteps c r (processSignals.after r) := by
  have h : ContextSteps c r { r with signals := [] } :=
    .single (.signalled (Nat.zero_le _))
  unfold Action.after
  rw [processSignals_eq]
  exact h.trans (contextSteps_retireAll c r.signals _)

theorem contextSteps_addSpecialRoot (ctx : ContextId) (slot : SentinelSlot) (r : Registry) :
    ContextSteps c r ((addSpecialRoot ctx slot).after r) := by
  unfold Action.after addSpecialRoot
  cases hc : r.context ctx with
  | error e => exact .refl
  | ok d =>
    obtain ⟨hmem, _⟩ := mem_of_context? ((context_eq_ok_iff r).1 hc)
    refine .single (.pinned fun obj ho => ?_)
    rcases (PinSet.contains_pin _ _ _).1 ho with rfl | ho
    · exact .inr ((isSpecialRoot_iff r _).2 ⟨d, hmem, slot, rfl⟩)
    · exact .inl ho

theorem contextSteps_removeSpecialRoot (id : LogId) (r : Registry) :
    ContextSteps c r ((removeSpecialRoot id).after r) := by
  unfold Action.after removeSpecialRoot
  cases r.lookupSentinel id with
  | error e => exact .refl
  | ok obj =>
    dsimp only
    have hsub : ∀ o, (r.specialRoots.unpin obj).2.contains o = true →
        r.specialRoots.contains o = true := fun o => PinSet.contains_of_unpin
    rcases hu : r.specialRoots.unpin obj with ⟨_ | n, pins⟩
    · exact .refl
    · rw [hu] at hsub
      exact .single (.pinned fun o ho => .inl (hsub o ho))

theorem contextSteps_clearRoots (r : Registry) : ContextSteps c r r.clearRoots := by
  have h : ContextStep c r { r with specialRoots := .empty } :=
    .pinned fun _ ho => absurd ho Bool.false_ne_true
  exact .tail (.single h) (.same ⟨rfl, rfl, rfl, rfl, rfl, rfl, rfl, rfl⟩)

theorem contextSteps_onJournal (ctx : ContextId) (action : Action (Journal × φ) Unit)
    (t : Registry × φ) :
    ContextSteps (.onJournal ctx action) t.1 ((onJournal ctx action).after t).1 := by
  obtain ⟨r, w⟩ := t
  unfold Action.after onJournal journal
  dsimp only
  cases hj : r.journals.get? ctx with
  | none => exact .refl
  | some j =>
    have hs := ContextStep.written (c := .onJournal ctx action) w rfl hj
    unfold Action.after at hs
    dsimp only
    cases ha : action (j, w) <;> rw [ha] at hs <;> exact .single hs

/-! ## What leaves the bookkeeping alone -/

theorem sameContexts_clearDead (r : Registry) : SameContexts r r.clearDead :=
  ⟨rfl, rfl, rfl, rfl, rfl, rfl, rfl, rfl⟩

theorem sameContexts_resetChangedInReplay (r : Registry) : SameContexts r r.resetChangedInReplay :=
  ⟨rfl, rfl, rfl, rfl, rfl, rfl, rfl, rfl⟩

theorem sameContexts_pinRoot (r : Registry) (obj : ObjectHandle) : SameContexts r (r.pinRoot obj) :=
  ⟨rfl, rfl, rfl, rfl, rfl, rfl, rfl, rfl⟩

theorem sameContexts_pinLocal (r : Registry) (obj : ObjectHandle) :
    SameContexts r { r with localRoots := (r.localRoots.pin obj).2 } :=
  ⟨rfl, rfl, rfl, rfl, rfl, rfl, rfl, rfl⟩

theorem sameContexts_refreshLocalRoots (r : Registry) : SameContexts r r.refreshLocalRoots.2 :=
  ⟨rfl, rfl, rfl, rfl, rfl, rfl, rfl, rfl⟩

theorem sameContexts_pinById {pin : Registry → Registry} (hp : ∀ s, SameContexts s (pin s))
    (obj : ObjectHandle) (r : Registry) : SameContexts r ((pinById pin obj).after r) := by
  rcases idOrNext_cases obj r with ⟨id, _, he⟩ | ⟨_, _, _, he⟩ | ⟨_, _, _, he⟩
  · rw [Action.after_of_eq_ok (pinById_eq_ok_iff.2 ⟨r, he, rfl⟩)]
    exact hp r
  · have hfail : pinById pin obj r = .error (.violation .idsExhausted) r := by
      rw [pinById, he]
    rw [Action.after_of_eq_error hfail]
    exact .refl r
  · rw [Action.after_of_eq_ok (pinById_eq_ok_iff.2 ⟨_, he, rfl⟩)]
    have h := hp ({ r with nextId := r.nextId + 1 }.bindId obj ⟨r.nextId⟩)
    exact ⟨h.config, h.contexts, h.nextContext, h.active, h.journals, h.wrappers, h.signals,
      h.specialRoots⟩

theorem sameContexts_addRootWithId (obj : ObjectHandle) (id : LogId) (r : Registry) :
    SameContexts r ((addRootWithId obj id).after r) := by
  unfold Action.after addRootWithId
  cases id.isSentinel with
  | true =>
    rw [if_pos rfl]
    cases r.lookupSentinel id with
    | error e => exact .refl r
    | ok bound =>
      dsimp only
      by_cases hb : bound = obj
      · rw [if_pos hb]
        exact ⟨rfl, rfl, rfl, rfl, rfl, rfl, rfl, rfl⟩
      · rw [if_neg hb]
        exact .refl r
  | false =>
    rw [if_neg Bool.false_ne_true]
    cases r.bindingViolation? obj id <;> exact ⟨rfl, rfl, rfl, rfl, rfl, rfl, rfl, rfl⟩

theorem sameContexts_removeRoot (obj : ObjectHandle) (r : Registry) :
    SameContexts r ((removeRoot obj).after r) := by
  unfold Action.after removeRoot
  rcases r.roots.unpin obj with ⟨_ | n, pins⟩ <;> exact ⟨rfl, rfl, rfl, rfl, rfl, rfl, rfl, rfl⟩

theorem sameContexts_ensureCorePaths (image : CoreImage) (roots : List NamedRoot) (r : Registry) :
    SameContexts r ((ensureCorePaths image roots).after r) := by
  unfold Action.after ensureCorePaths
  cases r.corePaths with
  | some p => exact .refl r
  | none =>
    cases CorePaths.buildFor r.config image roots <;> exact ⟨rfl, rfl, rfl, rfl, rfl, rfl, rfl, rfl⟩

/-! ## Every call -/

/-- **Every call, whether it succeeds or fails, makes such steps**, none or one or several. -/
theorem Call.contextSteps (t : Registry × φ) : ContextSteps c t.1 (c.run.after t).1 := by
  have hregisters : ∀ sentinels, c.sentinels? = some sentinels →
      ContextSteps c t.1 (c.run.after t).1 := fun sentinels hc => by
    rcases Call.run_cases_of_sentinels? hc t with
      ⟨ctx, mode, wrapper, host, hs, hctx, he⟩ | ⟨e, he⟩
    · rw [Action.after_of_eq_ok he]
      exact .single (.tracked ctx mode wrapper hc hs hctx)
    · rw [Action.after_of_eq_error he]
  cases c with
  | registerContext wrap mode sentinels => exact hregisters sentinels rfl
  | registerRecorded wrap recorded sentinels => exact hregisters sentinels rfl
  | setActive ctx =>
    rw [Call.run, Action.after_map_beside]
    exact contextSteps_setActive _ ctx t.1
  | destroyInRecord ctx =>
    rw [Call.run, Action.after_map_beside]
    exact contextSteps_destroyInRecord _ ctx t.1
  | destroyInReplay ids =>
    rw [Call.run, Action.after_map_beside]
    exact contextSteps_destroyInReplay _ ids t.1
  | clearDead => exact .single (.same (sameContexts_clearDead t.1))
  | resetChangedInReplay => exact .single (.same (sameContexts_resetChangedInReplay t.1))
  | signalRetired ctx =>
    rw [Call.run, Action.after_map_beside, Action.after_ofFn]
    exact contextSteps_signalRetired _ ctx t.1
  | processSignals =>
    rw [Call.run, Action.after_map_beside]
    exact contextSteps_processSignals _ t.1
  | clearContexts =>
    rw [Call.run, Action.after_map_beside, Action.after_ofFn]
    exact .single (.cleared rfl)
  | addRoot obj =>
    rw [Call.run, Action.after_map_beside, addRoot_eq]
    exact .single (.same (sameContexts_pinById
      (fun s => sameContexts_pinRoot s obj) obj t.1))
  | addRootWithId obj id =>
    rw [Call.run, Action.after_map_beside]
    exact .single (.same (sameContexts_addRootWithId obj id t.1))
  | removeRoot obj =>
    rw [Call.run, Action.after_map_beside]
    exact .single (.same (sameContexts_removeRoot obj t.1))
  | addSpecialRoot ctx slot =>
    rw [Call.run, Action.after_map_beside]
    exact contextSteps_addSpecialRoot _ ctx slot t.1
  | removeSpecialRoot id =>
    rw [Call.run, Action.after_map_beside]
    exact contextSteps_removeSpecialRoot _ id t.1
  | addLocalRoot obj =>
    rw [Call.run, Action.after_map_beside, addLocalRoot_eq]
    exact .single (.same (sameContexts_pinById
      (fun s => sameContexts_pinLocal s obj) obj t.1))
  | refreshLocalRoots =>
    rw [Call.run, Action.after_map_beside, Action.after_ofFn]
    exact .single (.same (sameContexts_refreshLocalRoots t.1))
  | clearRoots => exact contextSteps_clearRoots _ t.1
  | ensureCorePaths image roots =>
    rw [Call.run, Action.after_map_beside]
    exact .single (.same (sameContexts_ensureCorePaths image roots t.1))
  | onJournal ctx action =>
    rw [Call.run, Action.after_map]
    exact contextSteps_onJournal ctx action t

end Registry

end Retrace
