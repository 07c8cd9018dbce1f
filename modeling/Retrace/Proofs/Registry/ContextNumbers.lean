/-
# Context numbers

Numbers are given to contexts one after the other, so a number below the next one may be in use, and
no other is: not by a tracked context, nor by a wrapper, which outlives its context.  Registration
keeps this as long as the last number, after which there is no next one, has not been given.

The numbers are the indices that the registry assigns (specification, section 3).
-/

import Retrace.Proofs.Distinct
import Retrace.Proofs.Registry.IdSteps

namespace Retrace

namespace Registry

/-- What holds of the context numbers in use while the last one has not been given: they are
distinct, and below the next one. -/
structure NumbersInOrder (r : Registry) : Prop where
  /-- No two tracked contexts share a number. -/
  distinct : (r.contexts.map (·.id)).Nodup
  /-- The number of a tracked context is below the next one. -/
  tracked : ∀ c ∈ r.contexts, c.id.index < r.nextContext
  /-- The number of a wrapped context is below the next one. -/
  wrapped : ∀ ctx, r.wrappers.contains ctx = true → ctx.index < r.nextContext
  /-- The sentinel ids of a tracked context are those of its number. -/
  derived : ∀ c ∈ r.contexts, c.sentinelIds = LogId.sentinelsOf c.id

theorem numbersInOrder_create {config : Config} {r : Registry} (h : create config = .ok r) :
    NumbersInOrder r := by
  obtain ⟨_, rfl⟩ := create_eq_ok_iff.1 h
  exact ⟨List.nodup_nil, fun _ hc => absurd hc List.not_mem_nil,
    fun _ hw => absurd hw Bool.false_ne_true, fun _ hc => absurd hc List.not_mem_nil⟩

/-! ## What leaves the numbers alone -/

theorem SameNumbers.numbersInOrder {r r' : Registry} (hs : SameNumbers r r')
    (h : NumbersInOrder r) : NumbersInOrder r' where
  distinct := h.distinct.sublist (hs.contexts.map _)
  tracked c hm := by rw [hs.nextContext]; exact h.tracked c (hs.contexts.subset hm)
  wrapped ctx hm := by rw [hs.nextContext]; exact h.wrapped ctx (hs.wrappers ctx hm)
  derived c hm := h.derived c (hs.contexts.subset hm)

theorem sameNumbers_idOrNext {obj : ObjectHandle} {id : LogId} {r s : Registry}
    (h : idOrNext obj r = .ok id s) : SameNumbers r s := by
  rcases idOrNext_cases obj r with ⟨_, _, he⟩ | ⟨_, _, _, he⟩ | ⟨_, _, _, he⟩ <;> rw [he] at h <;>
    cases h <;> exact sameNumbers_of_eq rfl rfl rfl

theorem sameNumbers_addRoot {obj : ObjectHandle} {id : LogId} {r s : Registry}
    (h : addRoot obj r = .ok id s) : SameNumbers r s := by
  rw [addRoot_eq, pinById_eq_ok_iff] at h
  obtain ⟨t, hi, rfl⟩ := h
  exact (sameNumbers_idOrNext hi).trans (sameNumbers_of_eq rfl rfl rfl)

theorem sameNumbers_addLocalRoot {obj : ObjectHandle} {id : LogId} {r s : Registry}
    (h : addLocalRoot obj r = .ok id s) : SameNumbers r s := by
  rw [addLocalRoot_eq, pinById_eq_ok_iff] at h
  obtain ⟨t, hi, rfl⟩ := h
  exact (sameNumbers_idOrNext hi).trans (sameNumbers_of_eq rfl rfl rfl)

theorem sameNumbers_refreshLocalRoots (r : Registry) : SameNumbers r r.refreshLocalRoots.2 :=
  sameNumbers_of_eq rfl rfl rfl

/-! ## New contexts -/

theorem NumbersInOrder.isTracked_next {r : Registry} (h : NumbersInOrder r) :
    r.isTracked ⟨r.nextContext⟩ = false := by
  rw [isTracked, List.any_eq_false]
  intro c hc he
  have hlt := h.tracked c hc
  rw [of_decide_eq_true he] at hlt
  exact UInt32.lt_irrefl _ hlt

theorem NumbersInOrder.contains_next {r : Registry} (h : NumbersInOrder r) :
    r.wrappers.contains ⟨r.nextContext⟩ = false := by
  cases hc : r.wrappers.contains ⟨r.nextContext⟩ with
  | false => rfl
  | true => exact absurd (h.wrapped _ hc) (UInt32.lt_irrefl _)

theorem numberAfter_of_lt {ctx : ContextId} (h : ctx.index < 0xFFFFFFFF) :
    (numberAfter ctx).toNat = ctx.index.toNat + 1 := by
  have hne : ctx.index ≠ 0xFFFFFFFF := UInt32.ne_of_lt h
  have hlt : ctx.index.toNat < 4294967295 := UInt32.lt_iff_toNat_lt.1 h
  rw [numberAfter, if_neg hne, UInt32.toNat_add, UInt32.toNat_one]
  omega

theorem toNat_max32 (a b : UInt32) : (max a b).toNat = max a.toNat b.toNat := by
  show (if a ≤ b then b else a).toNat = _
  split
  · rename_i h
    exact (Nat.max_eq_right (UInt32.le_iff_toNat_le.1 h)).symm
  · rename_i h
    exact (Nat.max_eq_left (Nat.le_of_not_le fun hle => h (UInt32.le_iff_toNat_le.2 hle))).symm

/-- A context whose number is not tracked shares its number with none. -/
theorem nodup_ids_track {r : Registry} (h : (r.contexts.map (·.id)).Nodup) {ctx : ContextId}
    (hnew : r.isTracked ctx = false) (mode : ExecutionMode) (sentinels : PerSlot ObjectHandle)
    (wrapper : WrapperRef) :
    ((r.track ctx mode sentinels wrapper).contexts.map (·.id)).Nodup := by
  show ((r.contexts ++ [_]).map _).Nodup
  rw [List.map_append, List.nodup_append]
  refine ⟨h, by simp, fun a ha b hb hab => ?_⟩
  obtain ⟨c, hc, rfl⟩ := List.mem_map.1 ha
  rw [isTracked, List.any_eq_false] at hnew
  refine hnew c hc ?_
  rw [decide_eq_true_eq, hab]
  simpa using hb

/-- **Tracking a context whose number is not in use keeps the numbers in order**, unless the number
is the last one. -/
theorem NumbersInOrder.track {r : Registry} (h : NumbersInOrder r) {ctx : ContextId}
    (hlast : ctx.index < 0xFFFFFFFF) (hnew : r.isTracked ctx = false) (mode : ExecutionMode)
    (sentinels : PerSlot ObjectHandle) (wrapper : WrapperRef) :
    NumbersInOrder (r.track ctx mode sentinels wrapper) := by
  have hmax : (r.track ctx mode sentinels wrapper).nextContext.toNat =
      max r.nextContext.toNat (ctx.index.toNat + 1) := by
    rw [← numberAfter_of_lt hlast]
    exact toNat_max32 _ _
  have hold : ∀ n : UInt32, n < r.nextContext →
      n < (r.track ctx mode sentinels wrapper).nextContext := fun n hn => by
    rw [UInt32.lt_iff_toNat_lt] at hn ⊢
    omega
  have hown : ctx.index < (r.track ctx mode sentinels wrapper).nextContext := by
    rw [UInt32.lt_iff_toNat_lt]
    omega
  refine ⟨nodup_ids_track h.distinct hnew mode sentinels wrapper, fun c hc => ?_, fun q hq => ?_,
    fun c hc => ?_⟩
  · rcases List.mem_append.1 hc with hc | hc
    · exact hold _ (h.tracked c hc)
    · rw [List.mem_singleton.1 hc]
      exact hown
  · rw [Registry.track, OrderedMap.contains_insert, Bool.or_eq_true, decide_eq_true_eq] at hq
    rcases hq with hq | hq
    · rw [← number_inj.1 hq]
      exact hown
    · exact hold _ (h.wrapped q hq)
  · rcases List.mem_append.1 hc with hc | hc
    · exact h.derived c hc
    · rw [List.mem_singleton.1 hc]

theorem nextContext_track {r : Registry} (h : r.nextContext < 0xFFFFFFFF)
    (mode : ExecutionMode) (sentinels : PerSlot ObjectHandle) (wrapper : WrapperRef) :
    (r.track ⟨r.nextContext⟩ mode sentinels wrapper).nextContext.toNat = r.nextContext.toNat + 1 := by
  show (max r.nextContext (numberAfter ⟨r.nextContext⟩)).toNat = _
  rw [toNat_max32, numberAfter_of_lt h]
  exact Nat.max_eq_right (Nat.le_succ _)

/-! ## Look-ups by number -/

/-- A tracked context is the one found by its number, as no other has the number. -/
theorem NumbersInOrder.context?_id {r : Registry} (h : NumbersInOrder r) {c : TrackedContext}
    (hc : c ∈ r.contexts) : r.context? c.id = some c :=
  find?_eq_some_of_nodup h.distinct hc

/-- The id that a sentinel has names the sentinel. -/
theorem NumbersInOrder.lookupSentinel {r : Registry} (h : NumbersInOrder r) {obj : ObjectHandle}
    {id : LogId} (hs : r.sentinelIdOf? obj = some id) : r.lookupSentinel id = .ok obj := by
  obtain ⟨c, hc, hcs⟩ := List.exists_of_findSome?_eq_some hs
  obtain ⟨slot, hslot, rfl⟩ := Option.map_eq_some_iff.1 hcs
  rw [Registry.lookupSentinel, LogId.asSentinel?_sentinel]
  dsimp only
  rw [h.context?_id hc]
  exact congrArg Except.ok (PerSlot.get_of_slotOf? hslot)

/-- The id of its global object names a tracked context, and not another one that was found
before. -/
theorem NumbersInOrder.lookupContext {r : Registry} (h : NumbersInOrder r) {c : TrackedContext}
    (hc : c ∈ r.contexts) : r.lookupContext c.sentinelIds.globalObject = .ok c.id := by
  have hnodup : (r.contexts.map (·.sentinelIds.globalObject)).Nodup := by
    have hd := h.distinct
    rw [List.Nodup, List.pairwise_map] at hd ⊢
    refine hd.imp_of_mem fun {a b} ha hb hne he => hne ?_
    rw [h.derived a ha, h.derived b hb] at he
    have hs : LogId.sentinel a.id .globalObject = LogId.sentinel b.id .globalObject := he
    exact (LogId.sentinel_inj.1 hs).1
  rw [Registry.lookupContext, find?_eq_some_of_nodup hnodup hc]

end Registry

end Retrace
