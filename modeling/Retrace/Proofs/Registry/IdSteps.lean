/-
# What a call does to the ids

Every call does one of six things to the ids of a registry (`Call.idStep`).  So what is to hold of the
ids after every call has six cases, whatever the calls are.  Most calls leave them alone (`SameIds`),
and the numbers of contexts with them (`SameNumbers`); of these most are quiet and leave the pins for
the log and for the debug step alone too (`Call.samePins`).

| step | made by |
| --- | --- |
| `same` | every call that fails, and most of the others |
| `handedOut` | `addRoot`, `addLocalRoot`, for an object that has no id |
| `recorded` | `addRootWithId` under an ordinary id |
| `tracked` | `registerContext`, `registerRecorded` |
| `refreshed` | `refreshLocalRoots` |
| `cleared` | `clearRoots` |

The two calls that register a context obey one law (`Call.run_cases_of_sentinels?`): they track it
with the sentinels given, or fail and change nothing.

The steps gather what the specification says of ids, operation by operation (section 4.1).
-/

import Retrace.Proofs.Registry.Effects

namespace Retrace

namespace Registry

/-! ## What leaves ids and numbers alone -/

/-- The next context number is as before, and no context or wrapper has been added. -/
structure SameNumbers (r r' : Registry) : Prop where
  /-- The tracked contexts are those from before, or fewer. -/
  contexts : r'.contexts.Sublist r.contexts
  /-- The next number is as before. -/
  nextContext : r'.nextContext = r.nextContext
  /-- The wrapped contexts are those from before, or fewer. -/
  wrappers : ∀ ctx, r'.wrappers.contains ctx = true → r.wrappers.contains ctx = true

/-- The ids are as before too. -/
structure SameIds (r r' : Registry) : Prop extends SameNumbers r r' where
  /-- The objects by id are as before. -/
  objectOfId : r'.objectOfId = r.objectOfId
  /-- The ids by object are as before. -/
  idOfObject : r'.idOfObject = r.idOfObject
  /-- The next id is as before. -/
  nextId : r'.nextId = r.nextId

/-- The pins for the log and for the debug step are as before too. -/
structure SamePins (r r' : Registry) : Prop extends SameIds r r' where
  /-- The pins for the log are as before. -/
  roots : r'.roots = r.roots
  /-- The pins for the debug step are as before. -/
  localRoots : r'.localRoots = r.localRoots

theorem SameNumbers.trans {a b c : Registry} (h : SameNumbers a b) (h' : SameNumbers b c) :
    SameNumbers a c :=
  ⟨h'.contexts.trans h.contexts, h'.nextContext.trans h.nextContext,
    fun ctx hc => h.wrappers ctx (h'.wrappers ctx hc)⟩

theorem SameIds.trans {a b c : Registry} (h : SameIds a b) (h' : SameIds b c) : SameIds a c :=
  ⟨h.toSameNumbers.trans h'.toSameNumbers, h'.objectOfId.trans h.objectOfId,
    h'.idOfObject.trans h.idOfObject, h'.nextId.trans h.nextId⟩

theorem SamePins.trans {a b c : Registry} (h : SamePins a b) (h' : SamePins b c) : SamePins a c :=
  ⟨h.toSameIds.trans h'.toSameIds, h'.roots.trans h.roots, h'.localRoots.trans h.localRoots⟩

theorem sameNumbers_of_eq {r r' : Registry} (hc : r'.contexts = r.contexts)
    (hn : r'.nextContext = r.nextContext) (hw : r'.wrappers = r.wrappers) : SameNumbers r r' :=
  ⟨hc ▸ List.Sublist.refl _, hn, fun _ h => hw ▸ h⟩

theorem samePins_of_eq {r r' : Registry} (hc : r'.contexts = r.contexts)
    (hn : r'.nextContext = r.nextContext) (hw : r'.wrappers = r.wrappers)
    (ho : r'.objectOfId = r.objectOfId) (hi : r'.idOfObject = r.idOfObject)
    (hid : r'.nextId = r.nextId) (hr : r'.roots = r.roots) (hl : r'.localRoots = r.localRoots) :
    SamePins r r' :=
  ⟨⟨sameNumbers_of_eq hc hn hw, ho, hi, hid⟩, hr, hl⟩

theorem SameIds.refl (r : Registry) : SameIds r r := ⟨sameNumbers_of_eq rfl rfl rfl, rfl, rfl, rfl⟩

theorem SamePins.refl (r : Registry) : SamePins r r := samePins_of_eq rfl rfl rfl rfl rfl rfl rfl rfl

theorem sameIds_pinRoot (r : Registry) (obj : ObjectHandle) : SameIds r (r.pinRoot obj) :=
  ⟨sameNumbers_of_eq rfl rfl rfl, rfl, rfl, rfl⟩

theorem sameIds_pinLocal (r : Registry) (obj : ObjectHandle) :
    SameIds r { r with localRoots := (r.localRoots.pin obj).2 } :=
  ⟨sameNumbers_of_eq rfl rfl rfl, rfl, rfl, rfl⟩

theorem sameIds_removeRoot (obj : ObjectHandle) (r : Registry) :
    SameIds r ((removeRoot obj).after r) := by
  unfold Action.after removeRoot
  rcases r.roots.unpin obj with ⟨_ | n, pins⟩ <;> exact ⟨sameNumbers_of_eq rfl rfl rfl, rfl, rfl, rfl⟩

theorem samePins_dropContext (r : Registry) (c : TrackedContext) : SamePins r (r.dropContext c) :=
  ⟨⟨⟨List.eraseP_sublist, rfl, fun _ h => h⟩, rfl, rfl, rfl⟩, rfl, rfl⟩

theorem samePins_setActive (ctx : Option ContextId) (r : Registry) :
    SamePins r ((setActive ctx).after r) := by
  unfold Action.after setActive
  cases ctx.filter fun c => !r.isTracked c <;>
    exact samePins_of_eq rfl rfl rfl rfl rfl rfl rfl rfl

theorem samePins_destroyInRecord (ctx : ContextId) (r : Registry) :
    SamePins r ((destroyInRecord ctx).after r) := by
  unfold Action.after destroyInRecord
  cases r.context ctx with
  | error e => exact .refl r
  | ok c =>
    exact (samePins_dropContext r c).trans (samePins_of_eq rfl rfl rfl rfl rfl rfl rfl rfl)

theorem samePins_destroyInReplay (ids : PerSlot LogId) (r : Registry) :
    SamePins r ((destroyInReplay ids).after r) := by
  unfold Action.after destroyInReplay
  cases r.lookupContext ids.globalObject with
  | error e => exact .refl r
  | ok ctx =>
    dsimp only
    cases r.context ctx with
    | error e => exact .refl r
    | ok c =>
      exact (samePins_dropContext r c).trans (samePins_of_eq rfl rfl rfl rfl rfl rfl rfl rfl)

theorem samePins_signalRetired (ctx : ContextId) (r : Registry) :
    SamePins r (r.signalRetired ctx).2 := by
  unfold signalRetired
  split <;> exact samePins_of_eq rfl rfl rfl rfl rfl rfl rfl rfl

theorem samePins_retireAll (ctxs : List ContextId) (r : Registry) :
    SamePins r ((retireAll ctxs).after r) := by
  induction ctxs generalizing r with
  | nil => exact .refl r
  | cons ctx rest ih =>
    rw [after_retireAll_cons]
    exact (samePins_destroyInRecord ctx r).trans (ih _)

theorem samePins_processSignals (r : Registry) : SamePins r (processSignals.after r) := by
  have h : SamePins r { r with signals := [] } :=
    samePins_of_eq rfl rfl rfl rfl rfl rfl rfl rfl
  unfold Action.after
  rw [processSignals_eq]
  exact h.trans (samePins_retireAll r.signals _)

theorem samePins_addSpecialRoot (ctx : ContextId) (slot : SentinelSlot) (r : Registry) :
    SamePins r ((addSpecialRoot ctx slot).after r) := by
  unfold Action.after addSpecialRoot
  cases r.context ctx <;> exact samePins_of_eq rfl rfl rfl rfl rfl rfl rfl rfl

theorem samePins_removeSpecialRoot (id : LogId) (r : Registry) :
    SamePins r ((removeSpecialRoot id).after r) := by
  unfold Action.after removeSpecialRoot
  cases r.lookupSentinel id with
  | error e => exact .refl r
  | ok obj =>
    rcases hu : r.specialRoots.unpin obj with ⟨_ | n, pins⟩ <;>
      simp only [hu] <;> exact samePins_of_eq rfl rfl rfl rfl rfl rfl rfl rfl

theorem samePins_ensureCorePaths (image : CoreImage) (roots : List NamedRoot) (r : Registry) :
    SamePins r ((ensureCorePaths image roots).after r) := by
  unfold Action.after ensureCorePaths
  cases r.corePaths with
  | some p => exact .refl r
  | none =>
    cases CorePaths.buildFor r.config image roots <;>
      exact samePins_of_eq rfl rfl rfl rfl rfl rfl rfl rfl

theorem samePins_onJournal {φ : Type} (ctx : ContextId) (action : Action (Journal × φ) Unit)
    (t : Registry × φ) : SamePins t.1 ((onJournal ctx action).after t).1 := by
  obtain ⟨r, w⟩ := t
  unfold Action.after onJournal
  dsimp only
  cases r.journal ctx with
  | error e => exact .refl r
  | ok j =>
    dsimp only
    cases action (j, w) <;> exact samePins_of_eq rfl rfl rfl rfl rfl rfl rfl rfl

/-! ## Calls that register a context -/

/-- The sentinels that a call registers a context with, if it registers one. -/
def Call.sentinels? {φ : Type} : Call φ → Option (PerSlot ObjectHandle)
  | registerContext _ _ sentinels => some sentinels
  | registerRecorded _ _ sentinels => some sentinels
  | _ => none

theorem enroll_cases {φ : Type} (wrap : WrapContext φ) (ctx : ContextId) (mode : ExecutionMode)
    (sentinels : PerSlot ObjectHandle) (t : Registry × φ) :
    (∃ wrapper host, t.1.refusal? sentinels = none ∧ enroll wrap ctx mode sentinels t =
        .ok ctx (t.1.track ctx mode sentinels wrapper, host)) ∨
      ∃ e, enroll wrap ctx mode sentinels t = .error e t := by
  obtain ⟨r, host⟩ := t
  unfold enroll
  dsimp only
  cases r.refusal? sentinels with
  | some e => exact .inr ⟨e, rfl⟩
  | none => exact .inl ⟨_, _, rfl, rfl⟩

/-- **A call that is given sentinels** tracks a context with them, which are not refused, under a
number that has no wrapper or is the next one; or it fails and changes nothing. -/
theorem Call.run_cases_of_sentinels? {φ : Type} {c : Call φ} {sentinels : PerSlot ObjectHandle}
    (hc : c.sentinels? = some sentinels) (t : Registry × φ) :
    (∃ ctx mode wrapper host, t.1.refusal? sentinels = none ∧
        (t.1.wrappers.contains ctx = true → ctx = ⟨t.1.nextContext⟩) ∧
        c.run t = .ok (.context ctx) (t.1.track ctx mode sentinels wrapper, host)) ∨
      ∃ e, c.run t = .error e t := by
  cases c with
  | registerContext wrap mode s =>
    obtain rfl : s = sentinels := Option.some.inj hc
    have hrun : Registry.registerContext wrap mode s t =
        enroll wrap ⟨t.1.nextContext⟩ mode s t := rfl
    rcases enroll_cases wrap ⟨t.1.nextContext⟩ mode s t with
      ⟨wrapper, host, hs, hok⟩ | ⟨e, herr⟩
    · exact .inl ⟨_, mode, wrapper, host, hs, fun _ => rfl,
        (Action.map_eq_ok_iff _ _).2 ⟨_, hrun.trans hok, rfl⟩⟩
    · exact .inr ⟨e, Action.map_of_eq_error _ (hrun.trans herr)⟩
  | registerRecorded wrap recorded s =>
    obtain rfl : s = sentinels := Option.some.inj hc
    by_cases hu : (t.1.isTracked recorded || t.1.wrappers.contains recorded) = true
    · have he : Registry.registerRecorded wrap recorded s t =
          .error (.violation (.contextInUse recorded)) t := if_pos hu
      exact .inr ⟨_, Action.map_of_eq_error _ he⟩
    · have hrun : Registry.registerRecorded wrap recorded s t =
          enroll wrap recorded .replay s t := if_neg hu
      rw [Bool.or_eq_true, not_or] at hu
      rcases enroll_cases wrap recorded .replay s t with ⟨wrapper, host, hs, hok⟩ | ⟨e, herr⟩
      · exact .inl ⟨recorded, .replay, wrapper, host, hs, fun hw => absurd hw hu.2,
          (Action.map_eq_ok_iff _ _).2 ⟨_, hrun.trans hok, rfl⟩⟩
      · exact .inr ⟨e, Action.map_of_eq_error _ (hrun.trans herr)⟩
  | _ => cases hc

/-! ## Steps -/

/-- What a call may do to the ids of a registry, given the sentinels that it registers a context
with, if it registers one. -/
inductive IdStep (given : Option (PerSlot ObjectHandle)) (r : Registry) : Registry → Prop where
  /-- It leaves them alone. -/
  | same {r' : Registry} : SameIds r r' → IdStep given r r'
  /-- It gives the next id to an object that has none. -/
  | handedOut {r' : Registry} {obj : ObjectHandle} : r.idOfObject.get? obj = none →
      r.sentinelIdOf? obj = none → r.nextId < LogId.sentinelBase →
      SameIds ({ r with nextId := r.nextId + 1 }.bindId obj ⟨r.nextId⟩) r' → IdStep given r r'
  /-- It gives an object an id found in a log, if nothing speaks against that. -/
  | recorded {r' : Registry} {obj : ObjectHandle} {id : LogId} : id.isSentinel = false →
      r.bindingViolation? obj id = none →
      SameIds ({ r with nextId := max r.nextId (id.raw + 1) }.bindId obj id) r' → IdStep given r r'
  /-- It tracks a context with the sentinels given, which are not refused. -/
  | tracked {sentinels : PerSlot ObjectHandle} (ctx : ContextId) (mode : ExecutionMode)
      (wrapper : WrapperRef) : given = some sentinels → r.refusal? sentinels = none →
      IdStep given r (r.track ctx mode sentinels wrapper)
  /-- It ends a debug step. -/
  | refreshed : IdStep given r r.refreshLocalRoots.2
  /-- It forgets all ordinary ids. -/
  | cleared : IdStep given r r.clearRoots

variable {given : Option (PerSlot ObjectHandle)}

/-- A step tracks one more context, with the sentinels given, or no more than before. -/
theorem IdStep.contexts_cases {r r' : Registry} (h : IdStep given r r') :
    r'.contexts.Sublist r.contexts ∨ ∃ sentinels ctx mode wrapper, given = some sentinels ∧
      r.refusal? sentinels = none ∧ r' = r.track ctx mode sentinels wrapper := by
  cases h with
  | same hs => exact .inl hs.contexts
  | handedOut _ _ _ hs => exact .inl hs.contexts
  | recorded _ _ hs => exact .inl hs.contexts
  | tracked ctx mode wrapper he hs => exact .inr ⟨_, ctx, mode, wrapper, he, hs, rfl⟩
  | refreshed => exact .inl (List.Sublist.refl _)
  | cleared => exact .inl (List.Sublist.refl _)

theorem idStep_pinById {pin : Registry → Registry} (hp : ∀ s, SameIds s (pin s))
    (obj : ObjectHandle) (r : Registry) : IdStep given r ((pinById pin obj).after r) := by
  rcases idOrNext_cases obj r with ⟨id, _, he⟩ | ⟨_, _, _, he⟩ | ⟨hi, hs, hlt, he⟩
  · rw [Action.after_of_eq_ok (pinById_eq_ok_iff.2 ⟨r, he, rfl⟩)]
    exact .same (hp r)
  · have hfail : pinById pin obj r = .error (.violation .idsExhausted) r := by
      rw [pinById, he]
    rw [Action.after_of_eq_error hfail]
    exact .same (.refl r)
  · rw [Action.after_of_eq_ok (pinById_eq_ok_iff.2 ⟨_, he, rfl⟩)]
    exact .handedOut hi hs hlt (hp _)

theorem idStep_addRoot (obj : ObjectHandle) (r : Registry) :
    IdStep given r ((addRoot obj).after r) := by
  rw [addRoot_eq]
  exact idStep_pinById (fun s => sameIds_pinRoot s obj) obj r

theorem idStep_addLocalRoot (obj : ObjectHandle) (r : Registry) :
    IdStep given r ((addLocalRoot obj).after r) := by
  rw [addLocalRoot_eq]
  exact idStep_pinById (fun s => sameIds_pinLocal s obj) obj r

theorem idStep_addRootWithId (obj : ObjectHandle) (id : LogId) (r : Registry) :
    IdStep given r ((addRootWithId obj id).after r) := by
  unfold Action.after addRootWithId
  cases hid : id.isSentinel with
  | true =>
    rw [if_pos rfl]
    cases r.lookupSentinel id with
    | error e => exact .same (.refl r)
    | ok bound =>
      dsimp only
      by_cases hb : bound = obj
      · rw [if_pos hb]
        exact .same (sameIds_pinRoot r obj)
      · rw [if_neg hb]
        exact .same (.refl r)
  | false =>
    rw [if_neg Bool.false_ne_true]
    cases hv : r.bindingViolation? obj id with
    | some v => exact .same (.refl r)
    | none => exact .recorded hid hv ⟨sameNumbers_of_eq rfl rfl rfl, rfl, rfl, rfl⟩

variable {φ : Type}

/-- Whether a call leaves ids, and pins for the log and for the debug step, alone. -/
def Call.isQuiet : Call φ → Bool
  | setActive _ | destroyInRecord _ | destroyInReplay _ | clearDead | resetChangedInReplay
  | signalRetired _ | processSignals | clearContexts | addSpecialRoot _ _ | removeSpecialRoot _
  | ensureCorePaths _ _ | onJournal _ _ => true
  | registerContext _ _ _ | registerRecorded _ _ _ | addRoot _ | addRootWithId _ _ | removeRoot _
  | addLocalRoot _ | refreshLocalRoots | clearRoots => false

theorem Call.samePins {c : Call φ} (h : c.isQuiet = true) (t : Registry × φ) :
    SamePins t.1 (c.run.after t).1 := by
  cases c with
  | setActive ctx =>
    rw [Call.run, Action.after_map_beside]
    exact samePins_setActive ctx t.1
  | destroyInRecord ctx =>
    rw [Call.run, Action.after_map_beside]
    exact samePins_destroyInRecord ctx t.1
  | destroyInReplay ids =>
    rw [Call.run, Action.after_map_beside]
    exact samePins_destroyInReplay ids t.1
  | clearDead => exact samePins_of_eq rfl rfl rfl rfl rfl rfl rfl rfl
  | resetChangedInReplay => exact samePins_of_eq rfl rfl rfl rfl rfl rfl rfl rfl
  | signalRetired ctx =>
    rw [Call.run, Action.after_map_beside, Action.after_ofFn]
    exact samePins_signalRetired ctx t.1
  | processSignals =>
    rw [Call.run, Action.after_map_beside]
    exact samePins_processSignals t.1
  | clearContexts =>
    rw [Call.run, Action.after_map_beside]
    exact ⟨⟨⟨List.nil_sublist _, rfl, fun _ h => nomatch h⟩, rfl, rfl, rfl⟩, rfl, rfl⟩
  | addSpecialRoot ctx slot =>
    rw [Call.run, Action.after_map_beside]
    exact samePins_addSpecialRoot ctx slot t.1
  | removeSpecialRoot id =>
    rw [Call.run, Action.after_map_beside]
    exact samePins_removeSpecialRoot id t.1
  | ensureCorePaths image roots =>
    rw [Call.run, Action.after_map_beside]
    exact samePins_ensureCorePaths image roots t.1
  | onJournal ctx action =>
    rw [Call.run, Action.after_map]
    exact samePins_onJournal ctx action t
  | registerContext | registerRecorded | addRoot | addRootWithId | removeRoot | addLocalRoot
  | refreshLocalRoots | clearRoots => cases h

/-- **Every call, whether it succeeds or fails, does one of six things to the ids.** -/
theorem Call.idStep (c : Call φ) (t : Registry × φ) :
    IdStep c.sentinels? t.1 (c.run.after t).1 := by
  have hregisters : ∀ sentinels, c.sentinels? = some sentinels →
      IdStep c.sentinels? t.1 (c.run.after t).1 := fun sentinels hc => by
    rcases Call.run_cases_of_sentinels? hc t with
      ⟨ctx, mode, wrapper, host, hs, _, he⟩ | ⟨e, he⟩
    · rw [Action.after_of_eq_ok he]
      exact .tracked ctx mode wrapper hc hs
    · rw [Action.after_of_eq_error he]
      exact .same (.refl t.1)
  cases c with
  | registerContext wrap mode sentinels => exact hregisters sentinels rfl
  | registerRecorded wrap recorded sentinels => exact hregisters sentinels rfl
  | addRoot obj =>
    rw [Call.run, Action.after_map_beside]
    exact idStep_addRoot obj t.1
  | addRootWithId obj id =>
    rw [Call.run, Action.after_map_beside]
    exact idStep_addRootWithId obj id t.1
  | removeRoot obj =>
    rw [Call.run, Action.after_map_beside]
    exact .same (sameIds_removeRoot obj t.1)
  | addLocalRoot obj =>
    rw [Call.run, Action.after_map_beside]
    exact idStep_addLocalRoot obj t.1
  | refreshLocalRoots =>
    rw [Call.run, Action.after_map_beside, Action.after_ofFn]
    exact .refreshed
  | clearRoots => exact .cleared
  | setActive | destroyInRecord | destroyInReplay | clearDead | resetChangedInReplay
  | signalRetired | processSignals | clearContexts | addSpecialRoot | removeSpecialRoot
  | ensureCorePaths | onJournal => exact .same (Call.samePins rfl t).toSameIds

end Registry

end Retrace
