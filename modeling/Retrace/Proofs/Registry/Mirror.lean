/-
# Registries that mirror each other

A registry that replays knows the objects of the recorded one by other handles, which an injective
renaming `f` gives.  `Mirrors f r r'` says that `r'` is to the replay what `r` was to the recording:

| part of `r` | part of `r'` |
| --- | --- |
| a tracked context | one with the same number and ids, and with the renamed sentinels |
| the object of an id | the renamed object |
| the id of an object, the pins on it | the same of the renamed object |
| the next id, the contexts with a wrapper | the same |

Each call keeps this if its counterpart is made on the other side: where the recording hands out an
id or a number, the replay takes it from the log.

The renaming is what the specification calls a different address space (section 1).
-/

import Retrace.Proofs.Registry.ContextNumbers
import Retrace.Proofs.Registry.IdMaps

namespace Retrace

/-! ## Renamed slots and pins -/

namespace PerSlot

variable {α β : Type}

/-- Renames what every slot holds. -/
def map (f : α → β) (p : PerSlot α) : PerSlot β := ofFn fun slot => f (p.get slot)

@[simp] theorem get_map (f : α → β) (p : PerSlot α) (slot : SentinelSlot) :
    (p.map f).get slot = f (p.get slot) := get_ofFn _ slot

theorem toList_map (f : α → β) (p : PerSlot α) : (p.map f).toList = p.toList.map f := by
  simp [toList, Function.comp_def]

theorem slotOf?_map [DecidableEq α] [DecidableEq β] {f : α → β} (hf : ∀ a b, f a = f b → a = b)
    (p : PerSlot α) (a : α) : (p.map f).slotOf? (f a) = p.slotOf? a := by
  have h : ∀ slot, decide ((p.map f).get slot = f a) = decide (p.get slot = a) := fun slot => by
    rw [get_map, decide_eq_decide]
    exact ⟨hf _ _, fun e => e ▸ rfl⟩
  simp only [slotOf?, h]

end PerSlot

namespace PinSet

variable {f : ObjectHandle → ObjectHandle} {s s' : PinSet ObjectHandle}

/-- Every renamed handle is pinned as often as the handle itself. -/
def Renamed (f : ObjectHandle → ObjectHandle) (s s' : PinSet ObjectHandle) : Prop :=
  ∀ h, s'.counts.get? (f h) = s.counts.get? h

theorem renamed_empty : Renamed f .empty .empty := fun _ => rfl

theorem Renamed.contains (h : Renamed f s s') (obj : ObjectHandle) :
    s'.contains (f obj) = s.contains obj := by
  rw [PinSet.contains, PinSet.contains, OrderedMap.contains, OrderedMap.contains, h obj]

theorem Renamed.insert (hf : ∀ a b, f a = f b → a = b) (h : Renamed f s s') (obj : ObjectHandle)
    (n : Nat) : Renamed f ⟨s.counts.insert obj n⟩ ⟨s'.counts.insert (f obj) n⟩ := fun q => by
  by_cases e : obj = q
  · subst e
    simp [OrderedMap.get?_insert_self]
  · have e' : f obj ≠ f q := fun he => e (hf _ _ he)
    simp only [OrderedMap.get?_insert_of_ne _ _ e, OrderedMap.get?_insert_of_ne _ _ e', h q]

theorem Renamed.erase (hf : ∀ a b, f a = f b → a = b) (h : Renamed f s s') (obj : ObjectHandle) :
    Renamed f ⟨s.counts.erase obj⟩ ⟨s'.counts.erase (f obj)⟩ := fun q => by
  by_cases e : obj = q
  · subst e
    simp [OrderedMap.get?_erase_self]
  · have e' : f obj ≠ f q := fun he => e (hf _ _ he)
    simp only [OrderedMap.get?_erase_of_ne _ e, OrderedMap.get?_erase_of_ne _ e', h q]

theorem Renamed.pin (hf : ∀ a b, f a = f b → a = b) (h : Renamed f s s') (obj : ObjectHandle) :
    Renamed f (s.pin obj).2 (s'.pin (f obj)).2 := by
  have hc : s'.count (f obj) = s.count obj := by rw [count, count, h obj]
  rw [PinSet.pin, PinSet.pin, hc]
  exact h.insert hf obj _

/-- Giving a pin back succeeds on both sides or on neither, with the same remainder. -/
theorem Renamed.unpin (hf : ∀ a b, f a = f b → a = b) (h : Renamed f s s') (obj : ObjectHandle) :
    (s'.unpin (f obj)).1 = (s.unpin obj).1 ∧ Renamed f (s.unpin obj).2 (s'.unpin (f obj)).2 := by
  unfold PinSet.unpin
  rw [h obj]
  cases s.counts.get? obj with
  | none => exact ⟨rfl, h⟩
  | some n =>
    refine ⟨rfl, ?_⟩
    by_cases hn : n ≤ 1
    · simp only [hn, if_true]
      exact h.erase hf obj
    · simp only [hn, if_false]
      exact h.insert hf obj _

theorem Renamed.releaseAll (hf : ∀ a b, f a = f b → a = b) (h : Renamed f s s')
    (objs : List ObjectHandle) :
    Renamed f (objs.foldl (fun pins obj => (pins.release obj).2) s)
      ((objs.map f).foldl (fun pins obj => (pins.release obj).2) s') := by
  induction objs generalizing s s' with
  | nil => exact h
  | cons obj rest ih => exact ih (h.erase hf obj)

end PinSet

/-- The context that a replay makes of a recorded one. -/
def TrackedContext.replayed (f : ObjectHandle → ObjectHandle) (c : TrackedContext) :
    TrackedContext :=
  { c with mode := .replay, sentinels := c.sentinels.map f }

namespace Registry

/-- The registry of a replay beside that of the recording, whose objects it knows by other handles. -/
structure Mirrors (f : ObjectHandle → ObjectHandle) (r r' : Registry) : Prop where
  /-- The settings are the same. -/
  config : r'.config = r.config
  /-- The contexts are the same but for their mode and the handles of their sentinels. -/
  contexts : r'.contexts = r.contexts.map (·.replayed f)
  /-- The same contexts have wrappers. -/
  wrappers : ∀ ctx, r'.wrappers.contains ctx = r.wrappers.contains ctx
  /-- The next ids are the same. -/
  nextId : r'.nextId = r.nextId
  /-- An id names the renamed object. -/
  objectOfId : ∀ id, r'.objectOfId.get? id = (r.objectOfId.get? id).map f
  /-- The renamed object has the same id. -/
  idOfObject : ∀ obj, r'.idOfObject.get? (f obj) = r.idOfObject.get? obj
  /-- The renamed objects are pinned for the log. -/
  roots : r.roots.Renamed f r'.roots
  /-- The renamed objects are pinned for the current debug step. -/
  localRoots : r.localRoots.Renamed f r'.localRoots
  /-- The renamed sentinels are pinned by slot. -/
  specialRoots : r.specialRoots.Renamed f r'.specialRoots

theorem mirrors_create {config : Config} {r : Registry} (f : ObjectHandle → ObjectHandle)
    (h : create config = .ok r) : Mirrors f r r := by
  obtain ⟨_, rfl⟩ := create_eq_ok_iff.1 h
  exact ⟨rfl, rfl, fun _ => rfl, rfl, fun _ => rfl, fun _ => rfl, PinSet.renamed_empty,
    PinSet.renamed_empty, PinSet.renamed_empty⟩

namespace Mirrors

variable {f : ObjectHandle → ObjectHandle} {r r' : Registry}

/-! ## Look-ups -/

theorem context? (h : Mirrors f r r') (ctx : ContextId) :
    r'.context? ctx = (r.context? ctx).map (·.replayed f) := by
  rw [Registry.context?, h.contexts, List.find?_map]
  rfl

theorem isTracked (h : Mirrors f r r') (ctx : ContextId) : r'.isTracked ctx = r.isTracked ctx := by
  rw [Registry.isTracked, h.contexts, List.any_map]
  rfl

theorem sentinelIdOf? (hf : ∀ a b, f a = f b → a = b) (h : Mirrors f r r') (obj : ObjectHandle) :
    r'.sentinelIdOf? (f obj) = r.sentinelIdOf? obj := by
  rw [Registry.sentinelIdOf?, h.contexts, List.findSome?_map]
  simp only [Function.comp_def, TrackedContext.replayed, PerSlot.slotOf?_map hf]
  rfl

theorem isSpecialRoot (hf : ∀ a b, f a = f b → a = b) (h : Mirrors f r r') (obj : ObjectHandle) :
    r'.isSpecialRoot (f obj) = r.isSpecialRoot obj := by
  rw [Registry.isSpecialRoot, h.contexts, List.any_map]
  simp only [Function.comp_def, TrackedContext.replayed, PerSlot.slotOf?_map hf]
  rfl

theorem lookupSentinel (h : Mirrors f r r') (id : LogId) :
    r'.lookupSentinel id = (r.lookupSentinel id).map f := by
  unfold Registry.lookupSentinel
  cases id.asSentinel? with
  | none => rfl
  | some p =>
    dsimp only
    rw [h.context?]
    cases r.context? p.1 with
    | none => rfl
    | some c =>
      show Except.ok ((c.sentinels.map f).get p.2) = Except.ok (f (c.sentinels.get p.2))
      rw [PerSlot.get_map]

/-- An id names on the replay's side what renames the object that it names on the other, or is
unknown on both. -/
theorem lookupObject (h : Mirrors f r r') (id : LogId) :
    r'.lookupObject id = (r.lookupObject id).map f := by
  unfold Registry.lookupObject
  by_cases hs : id.isSentinel = true
  · rw [if_pos hs, if_pos hs, h.lookupSentinel]
  · rw [if_neg hs, if_neg hs, h.objectOfId]
    cases r.objectOfId.get? id <;> rfl

theorem ownId (hf : ∀ a b, f a = f b → a = b) (h : Mirrors f r r') (obj : ObjectHandle) :
    (r'.idOfObject.get? (f obj)).or (r'.sentinelIdOf? (f obj)) =
      (r.idOfObject.get? obj).or (r.sentinelIdOf? obj) := by
  rw [h.idOfObject, h.sentinelIdOf? hf]

theorem refusal? (hf : ∀ a b, f a = f b → a = b) (h : Mirrors f r r')
    {sentinels : PerSlot ObjectHandle} (hs : r.refusal? sentinels = none) :
    r'.refusal? (sentinels.map f) = none := by
  obtain ⟨hlt, hfree⟩ := (refusal?_eq_none_iff r sentinels).1 hs
  refine (refusal?_eq_none_iff r' _).2 ⟨?_, fun slot => ?_⟩
  · rw [h.contexts, h.config, List.length_map]
    exact hlt
  · rw [PerSlot.get_map, h.idOfObject, h.isSpecialRoot hf]
    exact hfree slot

/-! ## Ids and roots -/

theorem bindId (hf : ∀ a b, f a = f b → a = b) (h : Mirrors f r r') (obj : ObjectHandle)
    (id : LogId) (next : UInt64) :
    Mirrors f { r.bindId obj id with nextId := next }
      { r'.bindId (f obj) id with nextId := next } where
  config := h.config
  contexts := h.contexts
  wrappers := h.wrappers
  nextId := rfl
  objectOfId i := by
    show (r'.objectOfId.insert id (f obj)).get? i = ((r.objectOfId.insert id obj).get? i).map f
    by_cases e : id = i
    · subst e
      simp [OrderedMap.get?_insert_self]
    · rw [OrderedMap.get?_insert_of_ne _ _ e, OrderedMap.get?_insert_of_ne _ _ e, h.objectOfId]
  idOfObject o := by
    show (r'.idOfObject.insert (f obj) id).get? (f o) = (r.idOfObject.insert obj id).get? o
    by_cases e : obj = o
    · subst e
      simp [OrderedMap.get?_insert_self]
    · have e' : f obj ≠ f o := fun he => e (hf _ _ he)
      rw [OrderedMap.get?_insert_of_ne _ _ e, OrderedMap.get?_insert_of_ne _ _ e', h.idOfObject]
  roots := h.roots
  localRoots := h.localRoots
  specialRoots := h.specialRoots

theorem pinRoot (hf : ∀ a b, f a = f b → a = b) (h : Mirrors f r r') (obj : ObjectHandle) :
    Mirrors f (r.pinRoot obj) (r'.pinRoot (f obj)) :=
  { h with roots := h.roots.pin hf obj }

/-- What is given an id next is given the same one on both sides. -/
theorem idOrNext (hf : ∀ a b, f a = f b → a = b) (h : Mirrors f r r') {obj : ObjectHandle}
    {id : LogId} {s : Registry} (hr : idOrNext obj r = .ok id s) :
    ∃ s', Registry.idOrNext (f obj) r' = .ok id s' ∧ Mirrors f s s' := by
  unfold Registry.idOrNext at hr ⊢
  rw [h.ownId hf, h.nextId]
  cases ho : (r.idOfObject.get? obj).or (r.sentinelIdOf? obj) with
  | some own =>
    rw [ho] at hr
    cases hr
    exact ⟨r', rfl, h⟩
  | none =>
    rw [ho] at hr
    by_cases hle : LogId.sentinelBase ≤ r.nextId
    · rw [if_pos hle] at hr
      cases hr
    · rw [if_neg hle] at hr
      cases hr
      exact ⟨_, if_neg hle, h.bindId hf obj ⟨r.nextId⟩ (r.nextId + 1)⟩

theorem addLocalRoot (hf : ∀ a b, f a = f b → a = b) (h : Mirrors f r r') {obj : ObjectHandle}
    {id : LogId} {s : Registry} (hr : addLocalRoot obj r = .ok id s) :
    ∃ s', Registry.addLocalRoot (f obj) r' = .ok id s' ∧ Mirrors f s s' := by
  rw [addLocalRoot_eq, pinById_eq_ok_iff] at hr
  obtain ⟨t, ht, rfl⟩ := hr
  obtain ⟨t', ht', hm⟩ := h.idOrNext hf ht
  rw [addLocalRoot_eq]
  exact ⟨_, pinById_eq_ok_iff.2 ⟨t', ht', rfl⟩, { hm with localRoots := hm.localRoots.pin hf obj }⟩

/-- An ordinary id that the recording has just given or confirmed may be entered in the replay. -/
theorem addRootWithId_of_ordinary (hf : ∀ a b, f a = f b → a = b) (h : Mirrors f r r')
    {obj : ObjectHandle} {id : LogId} (hid : id.isSentinel = false)
    (hs : r.sentinelIdOf? obj = none) (hfree : ∀ o, r.objectOfId.get? id = some o → o = obj)
    (hnew : ∀ i, r.idOfObject.get? obj = some i → i = id) :
    ∃ s', addRootWithId (f obj) id r' = .ok () s' ∧
      Mirrors f ({ r.bindId obj id with nextId := max r.nextId (id.raw + 1) }.pinRoot obj) s' := by
  have hv : r'.bindingViolation? (f obj) id = none := by
    refine (bindingViolation?_eq_none_iff r' _ _).2 ⟨?_, fun o ho => ?_, fun i hi => ?_⟩
    · rw [h.sentinelIdOf? hf, hs]
    · rw [h.objectOfId] at ho
      obtain ⟨o', ho', rfl⟩ := Option.map_eq_some_iff.1 ho
      rw [hfree o' ho']
    · rw [h.idOfObject] at hi
      exact hnew i hi
  unfold addRootWithId
  rw [if_neg (by simp [hid]), hv, h.nextId]
  exact ⟨_, rfl, (h.bindId hf obj id _).pinRoot hf obj⟩

/-- An ordinary id that the object has had before: entering it again changes neither the maps nor
the next id. -/
theorem addRootWithId_of_known (hf : ∀ a b, f a = f b → a = b) (h : Mirrors f r r')
    (hi : IdsInOrder r) {obj : ObjectHandle} {id : LogId} (hg : r.idOfObject.get? obj = some id) :
    ∃ s', addRootWithId (f obj) id r' = .ok () s' ∧ Mirrors f (r.pinRoot obj) s' := by
  have hid := (hi.inverse _ _).2 hg
  have hlt := hi.below _ _ hid
  have hs : r.sentinelIdOf? obj = none :=
    (sentinelIdOf?_eq_none_iff r obj).2 (hi.unshared _ _ hid)
  obtain ⟨s', hs', hm⟩ := h.addRootWithId_of_ordinary hf (hi.ordinary _ _ hid) hs
    (fun o ho => Option.some.inj (ho.symm.trans hid))
    (fun i hi' => Option.some.inj (hi'.symm.trans hg))
  have hbind : r.bindId obj id = r := by
    rw [Registry.bindId, OrderedMap.insert_of_get? hid, OrderedMap.insert_of_get? hg]
  rw [hbind, max_add_one_of_lt hlt hi.bounded] at hm
  exact ⟨s', hs', hm⟩

/-- A sentinel id names the sentinel in the replay too. -/
theorem addRootWithId_of_sentinel (h : Mirrors f r r') (hn : NumbersInOrder r)
    {obj : ObjectHandle} {id : LogId} (hs : r.sentinelIdOf? obj = some id) :
    addRootWithId (f obj) id r' = .ok () (r'.pinRoot (f obj)) := by
  have hl : r'.lookupSentinel id = .ok (f obj) := by
    rw [h.lookupSentinel, hn.lookupSentinel hs]
    rfl
  unfold addRootWithId
  rw [if_pos (isSentinel_of_sentinelIdOf? hs), hl]
  exact if_pos rfl

/-- **The id that the recording gives to an object pinned for the log may be given in the replay.** -/
theorem addRoot (hf : ∀ a b, f a = f b → a = b) (h : Mirrors f r r') (hi : IdsInOrder r)
    (hn : NumbersInOrder r) {obj : ObjectHandle} {id : LogId} {s : Registry}
    (hr : addRoot obj r = .ok id s) :
    ∃ s', addRootWithId (f obj) id r' = .ok () s' ∧ Mirrors f s s' ∧
      (s.idOfObject.get? obj).or (s.sentinelIdOf? obj) = some id := by
  rw [addRoot_eq, pinById_eq_ok_iff] at hr
  obtain ⟨t, ht, rfl⟩ := hr
  rcases idOrNext_cases obj r with ⟨own, ho, he⟩ | ⟨_, _, _, he⟩ | ⟨ho, hs, hlt, he⟩
  · rw [he] at ht
    cases ht
    cases hg : r.idOfObject.get? obj with
    | some own =>
      obtain rfl : own = id := Option.some.inj (by rw [← ho, hg]; rfl)
      obtain ⟨s', hs', hm⟩ := h.addRootWithId_of_known hf hi hg
      exact ⟨s', hs', hm, ho⟩
    | none =>
      have hs : r.sentinelIdOf? obj = some id := by
        rw [← ho, hg]
        rfl
      exact ⟨_, h.addRootWithId_of_sentinel hn hs, h.pinRoot hf obj, ho⟩
  · rw [he] at ht
    cases ht
  · rw [he] at ht
    cases ht
    have hid : LogId.isSentinel ⟨r.nextId⟩ = false := isSentinel_eq_false_of_lt hlt
    obtain ⟨s', hs', hm⟩ := h.addRootWithId_of_ordinary hf hid hs
      (fun o ho' => by rw [hi.get?_nextId] at ho'; cases ho')
      (fun i hi' => by rw [ho] at hi'; cases hi')
    rw [max_add_one_self hlt] at hm
    refine ⟨s', hs', hm, ?_⟩
    show ((r.idOfObject.insert obj ⟨r.nextId⟩).get? obj).or _ = _
    rw [OrderedMap.get?_insert_self]
    rfl

theorem removeRoot (hf : ∀ a b, f a = f b → a = b) (h : Mirrors f r r') {obj : ObjectHandle}
    {s : Registry} (hr : removeRoot obj r = .ok () s) :
    ∃ s', Registry.removeRoot (f obj) r' = .ok () s' ∧ Mirrors f s s' := by
  obtain ⟨hn, hp⟩ := h.roots.unpin hf obj
  unfold Registry.removeRoot at hr ⊢
  rcases hu : r.roots.unpin obj with ⟨n, pins⟩
  rcases hu' : r'.roots.unpin (f obj) with ⟨n', pins'⟩
  rw [hu, hu'] at hn hp
  rw [hu] at hr
  obtain rfl : n' = n := hn
  cases n' with
  | none => cases hr
  | some k =>
    cases hr
    exact ⟨_, rfl, { h with roots := hp }⟩

theorem addSpecialRoot (hf : ∀ a b, f a = f b → a = b) (h : Mirrors f r r') {ctx : ContextId}
    {slot : SentinelSlot} {id : LogId} {s : Registry} (hr : addSpecialRoot ctx slot r = .ok id s) :
    ∃ s', Registry.addSpecialRoot ctx slot r' = .ok id s' ∧ Mirrors f s s' := by
  unfold Registry.addSpecialRoot context at hr ⊢
  rw [h.context?]
  cases hc : r.context? ctx with
  | none =>
    rw [hc] at hr
    cases hr
  | some c =>
    rw [hc] at hr
    cases hr
    refine ⟨_, rfl, { h with specialRoots := ?_ }⟩
    have hg : (c.replayed f).sentinels.get slot = f (c.sentinels.get slot) := PerSlot.get_map f _ slot
    dsimp only
    rw [hg]
    exact h.specialRoots.pin hf _

theorem removeSpecialRoot (hf : ∀ a b, f a = f b → a = b) (h : Mirrors f r r') {id : LogId}
    {s : Registry} (hr : removeSpecialRoot id r = .ok () s) :
    ∃ s', Registry.removeSpecialRoot id r' = .ok () s' ∧ Mirrors f s s' := by
  unfold Registry.removeSpecialRoot at hr ⊢
  rw [h.lookupSentinel]
  cases hl : r.lookupSentinel id with
  | error e =>
    rw [hl] at hr
    cases hr
  | ok obj =>
    rw [hl] at hr
    obtain ⟨hn, hp⟩ := h.specialRoots.unpin hf obj
    dsimp only [Except.map] at hr ⊢
    rcases hu : r.specialRoots.unpin obj with ⟨n, pins⟩
    rcases hu' : r'.specialRoots.unpin (f obj) with ⟨n', pins'⟩
    rw [hu, hu'] at hn hp
    rw [hu] at hr
    obtain rfl : n' = n := hn
    cases n' with
    | none => cases hr
    | some k =>
      cases hr
      exact ⟨_, rfl, { h with specialRoots := hp }⟩

/-- **The end of a debug step drops the same ids on both sides.** -/
theorem refreshLocalRoots (h : Mirrors f r r') :
    r'.refreshLocalRoots.1 = r.refreshLocalRoots.1 ∧
      Mirrors f r.refreshLocalRoots.2 r'.refreshLocalRoots.2 := by
  have ho : ∀ id, r'.refreshLocalRoots.2.objectOfId.get? id =
      (r.refreshLocalRoots.2.objectOfId.get? id).map f := by
    intro id
    show (r'.objectOfId.filter _).get? id = ((r.objectOfId.filter _).get? id).map f
    rw [OrderedMap.get?_filter, OrderedMap.get?_filter, h.objectOfId]
    cases r.objectOfId.get? id with
    | none => rfl
    | some obj =>
      show (some (f obj)).filter _ = ((some obj).filter _).map f
      rw [Option.filter_some, Option.filter_some, h.roots.contains]
      cases r.roots.contains obj <;> rfl
  have hi : ∀ obj, r'.refreshLocalRoots.2.idOfObject.get? (f obj) =
      r.refreshLocalRoots.2.idOfObject.get? obj := by
    intro obj
    show (r'.idOfObject.filter _).get? (f obj) = (r.idOfObject.filter _).get? obj
    rw [OrderedMap.get?_filter, OrderedMap.get?_filter, h.idOfObject]
    dsimp only
    rw [h.roots.contains]
  have hsize : ∀ {m m' : OrderedMap LogId ObjectHandle},
      (∀ id, m'.get? id = (m.get? id).map f) → m'.size = m.size := by
    intro m m' hm
    refine OrderedMap.size_eq_of_contains fun id => ?_
    rw [OrderedMap.contains, OrderedMap.contains, hm, Option.isSome_map]
  refine ⟨?_, ?_⟩
  · show r'.objectOfId.size - r'.refreshLocalRoots.2.objectOfId.size =
      r.objectOfId.size - r.refreshLocalRoots.2.objectOfId.size
    rw [hsize h.objectOfId, hsize ho]
  · exact ⟨h.config, h.contexts, h.wrappers, h.nextId, ho, hi, h.roots, PinSet.renamed_empty,
      h.specialRoots⟩

/-! ## Contexts -/

theorem track (h : Mirrors f r r') (ctx : ContextId) (sentinels : PerSlot ObjectHandle)
    (wrapper wrapper' : WrapperRef) :
    Mirrors f (r.track ctx .record sentinels wrapper)
      (r'.track ctx .replay (sentinels.map f) wrapper') where
  config := h.config
  contexts := by
    show r'.contexts ++ [_] = (r.contexts ++ [_]).map _
    rw [h.contexts, List.map_append]
    rfl
  wrappers q := by
    show (r'.wrappers.insert ctx wrapper').contains q = (r.wrappers.insert ctx wrapper).contains q
    rw [OrderedMap.contains_insert, OrderedMap.contains_insert, h.wrappers]
  nextId := h.nextId
  objectOfId := h.objectOfId
  idOfObject := h.idOfObject
  roots := h.roots
  localRoots := h.localRoots
  specialRoots := h.specialRoots

/-- **A context that the recording has just tracked may be made again under its number.** -/
theorem registerContext {φ ψ : Type} (hf : ∀ a b, f a = f b → a = b) (h : Mirrors f r r')
    (hn : NumbersInOrder r) {wrap : WrapContext φ} (wrap' : WrapContext ψ)
    {sentinels : PerSlot ObjectHandle} {host : φ} (host' : ψ) {ctx : ContextId}
    {t : Registry × φ} (hr : registerContext wrap .record sentinels (r, host) = .ok ctx t) :
    ∃ t', registerRecorded wrap' ctx (sentinels.map f) (r', host') = .ok ctx t' ∧
      Mirrors f t.1 t'.1 := by
  obtain ⟨hs, rfl, rfl⟩ := enroll_eq_ok_iff.1 hr
  have hfree : ¬(r'.isTracked ⟨r.nextContext⟩ || r'.wrappers.contains ⟨r.nextContext⟩) = true := by
    rw [h.isTracked, h.wrappers, hn.isTracked_next, hn.contains_next]
    exact Bool.false_ne_true
  refine ⟨_, (if_neg hfree).trans (enroll_eq_ok_iff.2 ⟨h.refusal? hf hs, rfl, rfl⟩), ?_⟩
  exact h.track _ sentinels _ _

theorem dropContext (hf : ∀ a b, f a = f b → a = b) (h : Mirrors f r r') (c : TrackedContext) :
    Mirrors f (r.dropContext c) (r'.dropContext (c.replayed f)) where
  config := h.config
  contexts := by
    show r'.contexts.eraseP _ = (r.contexts.eraseP _).map _
    rw [h.contexts, List.eraseP_map]
    rfl
  wrappers := h.wrappers
  nextId := h.nextId
  objectOfId := h.objectOfId
  idOfObject := h.idOfObject
  roots := h.roots
  localRoots := h.localRoots
  specialRoots := by
    show PinSet.Renamed f _ ((c.sentinels.map f).toList.foldl _ r'.specialRoots)
    rw [PerSlot.toList_map]
    exact h.specialRoots.releaseAll hf _

theorem lookupContext (h : Mirrors f r r') (id : LogId) :
    r'.lookupContext id = r.lookupContext id := by
  unfold Registry.lookupContext
  rw [h.contexts, List.find?_map]
  have hkey : (fun c : TrackedContext => decide (c.sentinelIds.globalObject = id)) ∘
      TrackedContext.replayed f = fun c => decide (c.sentinelIds.globalObject = id) := rfl
  rw [hkey]
  cases r.contexts.find? fun c => c.sentinelIds.globalObject = id <;> rfl

/-- **A context that the recording has just retired may be retired in the replay**, by the ids that
the recording remembers. -/
theorem destroyInRecord (hf : ∀ a b, f a = f b → a = b) (h : Mirrors f r r')
    (hn : NumbersInOrder r) {ctx : ContextId} {d : DeadContext} {s : Registry}
    (hr : destroyInRecord ctx r = .ok d s) :
    ∃ s', destroyInReplay d.ids r' = .ok ctx s' ∧ Mirrors f s s' := by
  obtain ⟨c, hc, rfl, rfl⟩ := destroyInRecord_eq_ok_iff.1 hr
  obtain ⟨hmem, hid⟩ := mem_of_context? hc
  have hl : r'.lookupContext c.sentinelIds.globalObject = .ok ctx := by
    rw [h.lookupContext, hn.lookupContext hmem, hid]
  have hc' : r'.context ctx = .ok (c.replayed f) := by
    rw [context_eq_ok_iff, h.context?, hc]
    rfl
  have hm := h.dropContext hf c
  refine ⟨{ r'.dropContext (c.replayed f) with changedInReplay := true }, ?_, ⟨hm.config,
    hm.contexts, hm.wrappers, hm.nextId, hm.objectOfId, hm.idOfObject, hm.roots, hm.localRoots,
    hm.specialRoots⟩⟩
  simp only [destroyInReplay, hl, hc']

end Mirrors

end Registry

end Retrace
