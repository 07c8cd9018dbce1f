/-
# The two id maps

An ordinary id and its object are entered in two maps, one for each direction.  `IdsInOrder` says
what holds of them in every reachable registry (`Reachable.idsInOrder`):

| part | says |
| --- | --- |
| `inverse` | each map is the other one read backwards |
| `ordinary`, `below` | an id in use is ordinary, and smaller than the next one |
| `bounded` | the next id is not larger than the first one kept for sentinels |
| `unshared` | an object with an ordinary id is no sentinel of a tracked context |

Each of the six steps keeps it (`IdsInOrder.idStep`).

This is the bijection that the data model asks for (specification, section 3), of ordinary ids.
-/

import Retrace.Proofs.Registry.IdSteps

namespace Retrace

namespace Registry

/-! ## The invariant -/

/-- What holds of the id maps of every registry: each leads back where the other leads, and only
ordinary ids below the next one are in them. -/
structure IdsInOrder (r : Registry) : Prop where
  /-- Each map is the other one read backwards. -/
  inverse : ∀ id obj, r.objectOfId.get? id = some obj ↔ r.idOfObject.get? obj = some id
  /-- An id in use is ordinary. -/
  ordinary : ∀ id obj, r.objectOfId.get? id = some obj → id.isSentinel = false
  /-- An id in use is smaller than the next one. -/
  below : ∀ id obj, r.objectOfId.get? id = some obj → id.raw < r.nextId
  /-- The next id is not larger than the first one kept for sentinels. -/
  bounded : r.nextId ≤ LogId.sentinelBase
  /-- An object with an ordinary id is no sentinel of a tracked context. -/
  unshared : ∀ id obj, r.objectOfId.get? id = some obj → r.isSpecialRoot obj = false

theorem isSpecialRoot_mono {r r' : Registry} (h : r'.contexts ⊆ r.contexts) {obj : ObjectHandle}
    (ho : r.isSpecialRoot obj = false) : r'.isSpecialRoot obj = false := by
  rw [isSpecialRoot, List.any_eq_false] at ho ⊢
  exact fun c hc => ho c (h hc)

theorem IdsInOrder.ofSameIds {r r' : Registry} (h : IdsInOrder r) (hs : SameIds r r') :
    IdsInOrder r' where
  inverse id obj := by rw [hs.objectOfId, hs.idOfObject]; exact h.inverse id obj
  ordinary id obj := by rw [hs.objectOfId]; exact h.ordinary id obj
  below id obj := by rw [hs.objectOfId, hs.nextId]; exact h.below id obj
  bounded := by rw [hs.nextId]; exact h.bounded
  unshared id obj := by
    rw [hs.objectOfId]
    exact fun hi => isSpecialRoot_mono hs.contexts.subset (h.unshared id obj hi)

theorem idsInOrder_create {config : Config} {r : Registry} (h : create config = .ok r) :
    IdsInOrder r := by
  have hle := UInt64.le_of_lt (firstLogId_lt_of_create h)
  obtain ⟨_, rfl⟩ := create_eq_ok_iff.1 h
  refine ⟨fun id obj => ?_, fun id obj hi => ?_, fun id obj hi => ?_, hle, fun id obj hi => ?_⟩
  · simp
  all_goals cases hi

/-- **An object and an id that nothing speaks against may be entered.**  The id is below the new
next id, no other object has it, and the object has no other id. -/
theorem IdsInOrder.bindId {r : Registry} (h : IdsInOrder r) {obj : ObjectHandle} {id : LogId}
    {next : UInt64} (hid : id.isSentinel = false) (hlt : id.raw < next) (hnext : r.nextId ≤ next)
    (hbase : next ≤ LogId.sentinelBase) (hobj : r.isSpecialRoot obj = false)
    (hfree : ∀ o, r.objectOfId.get? id = some o → o = obj)
    (hnew : ∀ i, r.idOfObject.get? obj = some i → i = id) :
    IdsInOrder ({ r with nextId := next }.bindId obj id) where
  inverse i o := by
    show (r.objectOfId.insert id obj).get? i = some o ↔ (r.idOfObject.insert obj id).get? o = some i
    rw [OrderedMap.get?_insert_eq_some_iff, OrderedMap.get?_insert_eq_some_iff, h.inverse]
    constructor
    · rintro (⟨rfl, rfl⟩ | ⟨hi, ho⟩)
      · exact .inl ⟨rfl, rfl⟩
      · refine .inr ⟨?_, ho⟩
        rintro rfl
        exact hi (hnew i ho).symm
    · rintro (⟨rfl, rfl⟩ | ⟨ho, hi⟩)
      · exact .inl ⟨rfl, rfl⟩
      · refine .inr ⟨?_, hi⟩
        rintro rfl
        exact ho (hfree o ((h.inverse _ _).2 hi)).symm
  ordinary i o hi := by
    rcases (OrderedMap.get?_insert_eq_some_iff _).1 hi with ⟨rfl, rfl⟩ | ⟨_, hi⟩
    · exact hid
    · exact h.ordinary i o hi
  below i o hi := by
    rcases (OrderedMap.get?_insert_eq_some_iff _).1 hi with ⟨rfl, rfl⟩ | ⟨_, hi⟩
    · exact hlt
    · exact UInt64.lt_of_lt_of_le (h.below i o hi) hnext
  bounded := hbase
  unshared i o hi := by
    rcases (OrderedMap.get?_insert_eq_some_iff _).1 hi with ⟨rfl, rfl⟩ | ⟨_, hi⟩
    · exact hobj
    · exact h.unshared i o hi

/-- An id that is as large as the next one names nothing. -/
theorem IdsInOrder.get?_nextId {r : Registry} (h : IdsInOrder r) :
    r.objectOfId.get? ⟨r.nextId⟩ = none := by
  cases hg : r.objectOfId.get? ⟨r.nextId⟩ with
  | none => rfl
  | some obj => exact absurd (h.below _ _ hg) (UInt64.lt_irrefl _)

/-- A sentinel of a tracked context has no ordinary id. -/
theorem IdsInOrder.get?_sentinel {r : Registry} (h : IdsInOrder r) {c : TrackedContext}
    (hc : c ∈ r.contexts) (slot : SentinelSlot) :
    r.idOfObject.get? (c.sentinels.get slot) = none := by
  cases hown : r.idOfObject.get? (c.sentinels.get slot) with
  | none => rfl
  | some own =>
    have hs := (isSpecialRoot_iff r _).2 ⟨c, hc, slot, rfl⟩
    rw [h.unshared own _ ((h.inverse own _).2 hown)] at hs
    cases hs

/-- The next id may be given to an object that has none. -/
theorem IdsInOrder.handedOut {r : Registry} (h : IdsInOrder r) {obj : ObjectHandle}
    (hi : r.idOfObject.get? obj = none) (hs : r.sentinelIdOf? obj = none)
    (hlt : r.nextId < LogId.sentinelBase) :
    IdsInOrder ({ r with nextId := r.nextId + 1 }.bindId obj ⟨r.nextId⟩) := by
  obtain ⟨hn, hb⟩ := lt_add_one_of_lt_sentinelBase hlt
  refine h.bindId (isSentinel_eq_false_of_lt hlt) hn (UInt64.le_of_lt hn) hb
    ((sentinelIdOf?_eq_none_iff r obj).1 hs) (fun o ho => ?_) (fun i hi' => ?_)
  · rw [h.get?_nextId] at ho
    cases ho
  · rw [hi] at hi'
    cases hi'

/-- An id found in a log may be given to an object if nothing speaks against it. -/
theorem IdsInOrder.recorded {r : Registry} (h : IdsInOrder r) {obj : ObjectHandle} {id : LogId}
    (hid : id.isSentinel = false) (hv : r.bindingViolation? obj id = none) :
    IdsInOrder ({ r with nextId := max r.nextId (id.raw + 1) }.bindId obj id) := by
  obtain ⟨hs, hfree, hnew⟩ := (bindingViolation?_eq_none_iff r obj id).1 hv
  obtain ⟨hlt, hle⟩ := lt_add_one_of_lt_sentinelBase (lt_of_isSentinel_eq_false hid)
  have hb := h.bounded
  have hmax := toNat_max r.nextId (id.raw + 1)
  rw [UInt64.lt_iff_toNat_lt] at hlt
  rw [UInt64.le_iff_toNat_le] at hle hb
  refine h.bindId hid ?_ ?_ ?_ ((sentinelIdOf?_eq_none_iff r obj).1 hs) hfree hnew
  · rw [UInt64.lt_iff_toNat_lt]
    omega
  · rw [UInt64.le_iff_toNat_le]
    omega
  · rw [UInt64.le_iff_toNat_le]
    omega

/-! ## New contexts -/

/-- A new context whose sentinels have no ordinary ids leaves the ids in order. -/
theorem IdsInOrder.track {r : Registry} (h : IdsInOrder r) {sentinels : PerSlot ObjectHandle}
    (hs : r.refusal? sentinels = none) (ctx : ContextId) (mode : ExecutionMode)
    (wrapper : WrapperRef) : IdsInOrder (r.track ctx mode sentinels wrapper) where
  inverse := h.inverse
  ordinary := h.ordinary
  below := h.below
  bounded := h.bounded
  unshared id obj hi := by
    rw [isSpecialRoot_track, h.unshared id obj hi, Bool.false_or]
    refine Bool.eq_false_iff.2 fun hso => ?_
    obtain ⟨slot, rfl⟩ := (PerSlot.slotOf?_isSome_iff _ _).1 hso
    have hnone := (((refusal?_eq_none_iff r sentinels).1 hs).2 slot).1
    rw [(h.inverse _ _).1 hi] at hnone
    cases hnone

/-! ## What drops ids -/

/-- The end of a debug step drops from both maps the entries of the same objects. -/
theorem IdsInOrder.refreshLocalRoots {r : Registry} (h : IdsInOrder r) :
    IdsInOrder r.refreshLocalRoots.2 := by
  have hsub : ∀ {id obj}, r.refreshLocalRoots.2.objectOfId.get? id = some obj →
      r.objectOfId.get? id = some obj := fun hi => ((OrderedMap.get?_filter_eq_some_iff _).1 hi).1
  refine ⟨fun id obj => ?_, fun id obj hi => h.ordinary id obj (hsub hi),
    fun id obj hi => h.below id obj (hsub hi), h.bounded, fun id obj hi => h.unshared id obj (hsub hi)⟩
  show (r.objectOfId.filter _).get? id = some obj ↔ (r.idOfObject.filter _).get? obj = some id
  rw [OrderedMap.get?_filter_eq_some_iff, OrderedMap.get?_filter_eq_some_iff, h.inverse]

theorem IdsInOrder.clearRoots {r : Registry} (h : IdsInOrder r) : IdsInOrder r.clearRoots where
  inverse id obj := by simp [Registry.clearRoots]
  ordinary id obj hi := by cases hi
  below id obj hi := by cases hi
  bounded := h.bounded
  unshared id obj hi := by cases hi

/-! ## Every reachable registry -/

/-- **Every step keeps the ids in order**, of the six that a call may make. -/
theorem IdsInOrder.idStep {given : Option (PerSlot ObjectHandle)} {r r' : Registry}
    (h : IdsInOrder r) (hs : IdStep given r r') : IdsInOrder r' := by
  cases hs with
  | same hs => exact h.ofSameIds hs
  | handedOut hi hs hlt hsame => exact (h.handedOut hi hs hlt).ofSameIds hsame
  | recorded hid hv hsame => exact (h.recorded hid hv).ofSameIds hsame
  | tracked ctx mode wrapper _ hs => exact h.track hs ctx mode wrapper
  | refreshed => exact h.refreshLocalRoots
  | cleared => exact h.clearRoots

/-- **Every call keeps the ids in order**, whether it succeeds or fails. -/
theorem IdsInOrder.call {φ : Type} {t : Registry × φ} (h : IdsInOrder t.1) (c : Call φ) :
    IdsInOrder (c.run.after t).1 :=
  h.idStep (c.idStep t)

theorem Reachable.idsInOrder {φ : Type} {config : Config} {t : Registry × φ}
    (h : Reachable config t) : IdsInOrder t.1 := by
  induction h with
  | created w hc => exact idsInOrder_create hc
  | called c _ ih => exact ih.call c

/-- **The stored ids are a bijection.**  In every reachable registry an id names an object in the one
map exactly if the object has the id in the other; an id in use is ordinary and smaller than the
next one, which never exceeds `2 ^ 63`; and no object with an ordinary id fills a slot of a tracked
context. -/
theorem storedIds_bijection {φ : Type} {config : Config} {t : Registry × φ}
    (h : Reachable config t) :
    (∀ id obj, t.1.objectOfId.get? id = some obj ↔ t.1.idOfObject.get? obj = some id) ∧
      (∀ id obj, t.1.objectOfId.get? id = some obj →
        id.isSentinel = false ∧ id.raw < t.1.nextId) ∧
      t.1.nextId.toNat ≤ 0x8000000000000000 ∧
      ∀ id obj, t.1.objectOfId.get? id = some obj →
        ∀ c ∈ t.1.contexts, ∀ slot, c.sentinels.get slot ≠ obj := by
  have hi := h.idsInOrder
  refine ⟨hi.inverse, fun id obj ho => ⟨hi.ordinary id obj ho, hi.below id obj ho⟩,
    UInt64.le_iff_toNat_le.1 hi.bounded, fun id obj ho c hc slot he => ?_⟩
  have hs : t.1.isSpecialRoot obj = true := (isSpecialRoot_iff t.1 obj).2 ⟨c, hc, slot, he⟩
  rw [hi.unshared id obj ho] at hs
  cases hs

/-- The last ordinary id, taken from a log: it is entered both ways and the next id is `2 ^ 63`,
so that the pin of another object fails and changes nothing. -/
theorem storedIds_bijection_at_last_id :
    ∃ t : Registry × Unit, Reachable {} t ∧ t.1.nextId.toNat = 0x8000000000000000 ∧
      t.1.objectOfId.get? ⟨0x7fffffffffffffff⟩ = some ⟨7⟩ ∧
      t.1.idOfObject.get? ⟨7⟩ = some ⟨0x7fffffffffffffff⟩ ∧
      (∀ c ∈ t.1.contexts, ∀ slot, c.sentinels.get slot ≠ ⟨7⟩) := by
  let sentinels : PerSlot ObjectHandle := ⟨⟨0⟩, ⟨1⟩, ⟨2⟩, ⟨3⟩, ⟨4⟩⟩
  let wrap : WrapContext Unit := fun ctx _ => pure ⟨ctx.index.toUInt64⟩
  have h : Reachable {} _ := (((Reachable.created (φ := Unit) () (rfl : create {} = .ok _)).called
    (.registerContext wrap .record sentinels)).called
    (.addRootWithId ⟨7⟩ ⟨0x7fffffffffffffff⟩)).called (.addRoot ⟨8⟩)
  have hb := storedIds_bijection h
  exact ⟨_, h, by decide, by decide, (hb.1 _ _).1 (by decide), hb.2.2.2 ⟨0x7fffffffffffffff⟩ ⟨7⟩ (by decide)⟩

end Registry

end Retrace
