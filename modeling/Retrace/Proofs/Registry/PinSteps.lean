/-
# What a call does to pins

An object is pinned for the log, for the current debug step, or both (`Pinned`), and what is pinned
is to have an id (`Named`).  Every call does one of five things to the pins and to the ordinary ids
of objects (`Call.pinStep`):

| step | made by | and the ids of objects |
| --- | --- | --- |
| `kept` | every call that fails, and those on contexts, journals and core paths | stay |
| `pinned` | `addRoot`, `addRootWithId`, `addLocalRoot` | the object pinned has one then |
| `released` | `removeRoot` | stay |
| `refreshed` | `refreshLocalRoots` | go, unless the object is pinned for the log |
| `cleared` | `clearRoots` | go |

The pins are the root sets of the data model (specification, section 3), but for the special ones.
-/

import Retrace.Proofs.Registry.ContextSteps
import Retrace.Proofs.Registry.History

namespace Retrace

namespace Registry

/-! ## Pinned and named objects -/

/-- Whether an object is pinned for the log or for the current debug step.  Pins by slot do not
count here. -/
def Pinned (r : Registry) (obj : ObjectHandle) : Prop :=
  r.roots.contains obj = true ∨ r.localRoots.contains obj = true

instance (r : Registry) (obj : ObjectHandle) : Decidable (r.Pinned obj) :=
  inferInstanceAs (Decidable (_ ∨ _))

/-- Whether an object has an id, ordinary or as a sentinel of a tracked context. -/
def Named (r : Registry) (obj : ObjectHandle) : Prop := ∃ id, r.idOf obj = .ok id

/-- An object has an id exactly if it has an ordinary one or is a sentinel of a tracked context. -/
theorem named_iff (r : Registry) (obj : ObjectHandle) :
    r.Named obj ↔ r.idOfObject.contains obj = true ∨ r.isSpecialRoot obj = true := by
  have hsentinel : (∃ id, r.sentinelIdOf? obj = some id) ↔ r.isSpecialRoot obj = true := by
    rw [← Option.ne_none_iff_exists', Ne, sentinelIdOf?_eq_none_iff, Bool.not_eq_false]
  rw [← hsentinel, OrderedMap.contains, Option.isSome_iff_exists]
  simp only [Named, idOf_eq_ok_iff]
  constructor
  · rintro ⟨id, hid | ⟨_, hid⟩⟩
    · exact .inl ⟨id, hid⟩
    · exact .inr ⟨id, hid⟩
  · rintro (⟨id, hid⟩ | ⟨id, hid⟩)
    · exact ⟨id, .inl hid⟩
    · cases hown : r.idOfObject.get? obj with
      | some own => exact ⟨own, .inl rfl⟩
      | none => exact ⟨id, .inr ⟨rfl, hid⟩⟩

theorem pinned_pinRoot_iff (r : Registry) (obj o : ObjectHandle) :
    (r.pinRoot obj).Pinned o ↔ obj = o ∨ r.Pinned o :=
  (or_congr_left (PinSet.contains_pin r.roots obj o)).trans or_assoc

theorem pinned_pinLocal_iff (r : Registry) (obj o : ObjectHandle) :
    Pinned { r with localRoots := (r.localRoots.pin obj).2 } o ↔ obj = o ∨ r.Pinned o :=
  (or_congr_right (PinSet.contains_pin r.localRoots obj o)).trans or_left_comm

/-! ## Steps -/

/-- The pins for the log and for the debug step, and the ordinary ids of objects, are as before. -/
structure SamePinnedIds (r r' : Registry) : Prop where
  /-- The pins for the log are as before. -/
  roots : r'.roots = r.roots
  /-- The pins for the debug step are as before. -/
  localRoots : r'.localRoots = r.localRoots
  /-- The ids by object are as before. -/
  idOfObject : r'.idOfObject = r.idOfObject

/-- What a call may do to the pins of a registry and to the ordinary ids of objects, said without
the words of the call. -/
inductive PinStep {φ : Type} (c : Call φ) (r : Registry) : Registry → Prop where
  /-- It leaves them alone. -/
  | kept {r' : Registry} : SamePinnedIds r r' → PinStep c r r'
  /-- It pins an object, which has an id then. -/
  | pinned {r' : Registry} {obj : ObjectHandle} : SameContexts r r' → r'.Named obj →
      (∀ o, r'.Pinned o ↔ obj = o ∨ r.Pinned o) →
      (∀ o, obj ≠ o → r'.idOfObject.get? o = r.idOfObject.get? o) → PinStep c r r'
  /-- It gives a pin for the log back. -/
  | released {obj : ObjectHandle} : c = .removeRoot obj →
      PinStep c r { r with roots := (r.roots.unpin obj).2 }
  /-- It ends a debug step. -/
  | refreshed : PinStep c r r.refreshLocalRoots.2
  /-- It forgets all pins and all ordinary ids. -/
  | cleared : PinStep c r r.clearRoots

variable {φ : Type} {c : Call φ}

theorem SamePinnedIds.refl (r : Registry) : SamePinnedIds r r := ⟨rfl, rfl, rfl⟩

theorem SamePinnedIds.pinned_iff {r r' : Registry} (h : SamePinnedIds r r') (obj : ObjectHandle) :
    r'.Pinned obj ↔ r.Pinned obj := by
  rw [Pinned, Pinned, h.roots, h.localRoots]

theorem SamePins.samePinnedIds {r r' : Registry} (h : SamePins r r') : SamePinnedIds r r' :=
  ⟨h.roots, h.localRoots, h.idOfObject⟩

/-- Pinning an object once it has an id is such a step, for every way of pinning. -/
theorem pinStep_pinById {pin : Registry → Registry} {obj : ObjectHandle}
    (hctx : ∀ s, SameContexts s (pin s)) (hids : ∀ s, SameIds s (pin s))
    (hpin : ∀ s o, (pin s).Pinned o ↔ obj = o ∨ s.Pinned o) (r : Registry) :
    PinStep c r ((pinById pin obj).after r) := by
  have hsame := sameContexts_pinById hctx obj r
  rcases idOrNext_cases obj r with ⟨id, hid, he⟩ | ⟨_, _, _, he⟩ | ⟨_, _, _, he⟩
  · have hok : pinById pin obj r = .ok id (pin r) := pinById_eq_ok_iff.2 ⟨r, he, rfl⟩
    rw [Action.after_of_eq_ok hok] at hsame ⊢
    have hnamed : (pin r).Named obj := by
      refine ⟨id, ?_⟩
      rw [idOf, (hids r).idOfObject, sentinelIdOf?, hsame.contexts, ← sentinelIdOf?, hid]
    exact .pinned hsame hnamed (hpin r) fun o _ => by rw [(hids r).idOfObject]
  · have hfail : pinById pin obj r = .error (.violation .idsExhausted) r := by
      rw [pinById, he]
    rw [Action.after_of_eq_error hfail]
    exact .kept (.refl r)
  · have hok : pinById pin obj r = .ok _ _ := pinById_eq_ok_iff.2 ⟨_, he, rfl⟩
    rw [Action.after_of_eq_ok hok] at hsame ⊢
    have hget : (pin ({ r with nextId := r.nextId + 1 }.bindId obj ⟨r.nextId⟩)).idOfObject =
        r.idOfObject.insert obj ⟨r.nextId⟩ := (hids _).idOfObject
    refine .pinned hsame ((named_iff _ obj).2 (.inl ?_)) (hpin _) fun o ho => ?_
    · rw [hget]
      exact (OrderedMap.contains_insert_iff _ _ _ _).2 (.inl rfl)
    · rw [hget]
      exact OrderedMap.get?_insert_of_ne _ _ ho

theorem pinStep_addRoot (obj : ObjectHandle) (r : Registry) :
    PinStep c r ((addRoot obj).after r) := by
  rw [addRoot_eq]
  exact pinStep_pinById (fun s => sameContexts_pinRoot s obj) (fun s => sameIds_pinRoot s obj)
    (fun s o => pinned_pinRoot_iff s obj o) r

theorem pinStep_addLocalRoot (obj : ObjectHandle) (r : Registry) :
    PinStep c r ((addLocalRoot obj).after r) := by
  rw [addLocalRoot_eq]
  exact pinStep_pinById (fun s => sameContexts_pinLocal s obj) (fun s => sameIds_pinLocal s obj)
    (fun s o => pinned_pinLocal_iff s obj o) r

theorem pinStep_addRootWithId (obj : ObjectHandle) (id : LogId) (r : Registry) :
    PinStep c r ((addRootWithId obj id).after r) := by
  unfold Action.after addRootWithId
  cases id.isSentinel with
  | true =>
    rw [if_pos rfl]
    cases hl : r.lookupSentinel id with
    | error e => exact .kept (.refl r)
    | ok bound =>
      dsimp only
      by_cases hb : bound = obj
      · rw [if_pos hb]
        subst hb
        obtain ⟨ctx, slot, d, _, hd, hslot⟩ := (lookupSentinel_eq_ok_iff r).1 hl
        have hspecial : r.isSpecialRoot bound = true :=
          (isSpecialRoot_iff r bound).2 ⟨d, (mem_of_context? hd).1, slot, hslot⟩
        exact .pinned (sameContexts_pinRoot r bound) ((named_iff _ bound).2 (.inr hspecial))
          (pinned_pinRoot_iff r bound) fun _ _ => rfl
      · rw [if_neg hb]
        exact .kept (.refl r)
  | false =>
    rw [if_neg Bool.false_ne_true]
    cases r.bindingViolation? obj id with
    | some v => exact .kept (.refl r)
    | none =>
      refine .pinned ⟨rfl, rfl, rfl, rfl, rfl, rfl, rfl, rfl⟩ ((named_iff _ obj).2 (.inl ?_))
        (pinned_pinRoot_iff _ obj) fun o ho => ?_
      · exact (OrderedMap.contains_insert_iff _ _ _ _).2 (.inl rfl)
      · exact OrderedMap.get?_insert_of_ne _ _ ho

theorem pinStep_removeRoot (obj : ObjectHandle) (r : Registry) :
    PinStep (φ := φ) (.removeRoot obj) r ((removeRoot obj).after r) := by
  have hrel : PinStep (φ := φ) (.removeRoot obj) r { r with roots := (r.roots.unpin obj).2 } :=
    .released rfl
  unfold Action.after removeRoot
  rcases hu : r.roots.unpin obj with ⟨_ | n, pins⟩
  · exact .kept (.refl r)
  · rw [hu] at hrel
    exact hrel

/-- **Every call, whether it succeeds or fails, makes such a step**, in whatever registry it is
made. -/
theorem Call.pinStep (c : Call φ) (t : Registry × φ) : PinStep c t.1 (c.run.after t).1 := by
  have hregisters : ∀ sentinels, c.sentinels? = some sentinels →
      PinStep c t.1 (c.run.after t).1 := fun sentinels hc => by
    rcases Call.run_cases_of_sentinels? hc t with ⟨_, _, _, _, _, _, he⟩ | ⟨e, he⟩
    · rw [Action.after_of_eq_ok he]
      exact .kept ⟨rfl, rfl, rfl⟩
    · rw [Action.after_of_eq_error he]
      exact .kept (.refl t.1)
  cases c with
  | registerContext wrap mode sentinels => exact hregisters sentinels rfl
  | registerRecorded wrap recorded sentinels => exact hregisters sentinels rfl
  | addRoot obj =>
    rw [Call.run, Action.after_map_beside]
    exact pinStep_addRoot obj t.1
  | addRootWithId obj id =>
    rw [Call.run, Action.after_map_beside]
    exact pinStep_addRootWithId obj id t.1
  | removeRoot obj =>
    rw [Call.run, Action.after_map_beside]
    exact pinStep_removeRoot obj t.1
  | addLocalRoot obj =>
    rw [Call.run, Action.after_map_beside]
    exact pinStep_addLocalRoot obj t.1
  | refreshLocalRoots =>
    rw [Call.run, Action.after_map_beside, Action.after_ofFn]
    exact .refreshed
  | clearRoots => exact .cleared
  | setActive | destroyInRecord | destroyInReplay | clearDead | resetChangedInReplay
  | signalRetired | processSignals | clearContexts | addSpecialRoot | removeSpecialRoot
  | ensureCorePaths | onJournal => exact .kept (Call.samePins rfl t).samePinnedIds

/-- From one call to the next, a history makes such a step; after its last one it stands still. -/
theorem History.pinStep {config : Config} (h : History config φ) (n : Nat) :
    (h.calls[n]? = none ∧ h.registry (n + 1) = h.registry n) ∨
      ∃ c : Call φ, h.calls[n]? = some c ∧ PinStep c (h.registry n) (h.registry (n + 1)) := by
  unfold registry
  cases hc : h.calls[n]? with
  | none => exact .inl ⟨rfl, congrArg Prod.fst (h.state_succ_of_none hc)⟩
  | some c =>
    rw [h.state_succ_of_some hc]
    exact .inr ⟨c, rfl, c.pinStep (h.state n)⟩

end Registry

end Retrace
