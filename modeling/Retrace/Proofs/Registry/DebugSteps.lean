/-
# Debug steps

A debug step pins objects as local roots, any objects in any order, and its end gives them all back.
A local root that has no id is lent the next ordinary one for the step.

| the end of the step | |
| --- | --- |
| the local roots | are none |
| ids lent to objects that are not pinned for the log | are dropped, and counted |
| ids lent to objects that are pinned for the log | stay |
| the next id | stays as it is, so that no id is handed out twice |
| all else | is as it was before the step |

So a step leaves no trace exactly if no object that is pinned for the log needs an id in it
(`leavesNoTrace_iff`).  Pinning for the log gives an id, so that none should; but the id of a sentinel
goes with its context, and then the pin is left without one (`trace_of_rootWithoutId`).

This is local-root isolation, one of the testable properties of the specification (section 12).
-/

import Mathlib.Data.Set.Card
import Retrace.Proofs.Registry.Failures
import Retrace.Proofs.Registry.LocalRoots

namespace Retrace

namespace Registry

variable {r s : Registry} {obj l : ObjectHandle} {objs new : List ObjectHandle}

/-! ## Pinning local roots -/

/-- What a debug step leaves that pins objects one after another, whichever of the pins fail. -/
def pinLocals (r : Registry) (objs : List ObjectHandle) : Registry :=
  objs.foldl (fun s obj => (addLocalRoot obj).after s) r

/-- Whether an object that has no id gets one in a debug step that pins certain objects. -/
def GetsId (r : Registry) (objs : List ObjectHandle) (obj : ObjectHandle) : Prop :=
  (∀ id, r.idOf obj ≠ .ok id) ∧ ∃ id, (r.pinLocals objs).idOf obj = .ok id

/-- Whether a debug step that pins certain objects leaves no trace: its end gives the registry back as
it was before, but for the next id, which may have grown, and tells how many objects got an id. -/
def LeavesNoTrace (r : Registry) (objs : List ObjectHandle) : Prop :=
  ∃ next, r.nextId ≤ next ∧
    (r.pinLocals objs).refreshLocalRoots.2 = { r with nextId := next } ∧
    ((r.pinLocals objs).refreshLocalRoots.1 : ℕ∞) = {obj | r.GetsId objs obj}.encard

/-- The three ways of pinning a local root: the pin fails and nothing happens, or the object has an
id, or it takes the next one. -/
theorem after_addLocalRoot_cases (l : ObjectHandle) (r : Registry) :
    (addLocalRoot l).after r = r ∨
      (addLocalRoot l).after r = { r with localRoots := (r.localRoots.pin l).2 } ∨
      r.TakesNext l ⟨r.nextId⟩ ∧ (addLocalRoot l).after r =
        { { r with nextId := r.nextId + 1 }.bindId l ⟨r.nextId⟩ with
          localRoots := (r.localRoots.pin l).2 } := by
  cases hl : addLocalRoot l r with
  | error e r' =>
    rw [Action.after_of_eq_error hl]
    exact .inl (atomic_addLocalRoot l r e r' hl)
  | ok own r' =>
    rw [Action.after_of_eq_ok hl]
    rcases addLocalRoot_cases hl with ⟨_, rfl⟩ | ⟨⟨hnone, rfl⟩, rfl⟩
    · exact .inr (.inl rfl)
    · exact .inr (.inr ⟨⟨hnone, rfl⟩, rfl⟩)

/-! ## The ids lent -/

/-- What a debug step has done by now, if it has lent ids to certain objects. -/
structure Lent (r : Registry) (new : List ObjectHandle) (s : Registry) : Prop where
  /-- All but local roots and ids is as before. -/
  rest : s = { r with
    nextId := s.nextId
    localRoots := s.localRoots
    objectOfId := s.objectOfId
    idOfObject := s.idOfObject }
  /-- The next id may have grown. -/
  nextId : r.nextId ≤ s.nextId
  /-- Any other object has the ordinary id that it had. -/
  kept : ∀ obj ∉ new, s.idOfObject.get? obj = r.idOfObject.get? obj
  /-- An object that was lent an id had none. -/
  unnamed : ∀ obj ∈ new, ∀ id, r.idOf obj ≠ .ok id
  /-- It has an ordinary one now. -/
  lent : ∀ obj ∈ new, s.idOfObject.contains obj = true
  /-- No object was lent two ids. -/
  nodup : new.Nodup
  /-- There are as many more ids as were lent. -/
  size : s.objectOfId.size = r.objectOfId.size + new.length
  /-- The ids are in order. -/
  inOrder : IdsInOrder s

theorem Lent.refl (h : IdsInOrder r) : Lent r [] r where
  rest := rfl
  nextId := UInt64.le_refl _
  kept _ _ := rfl
  unnamed _ hobj := nomatch hobj
  lent _ hobj := nomatch hobj
  nodup := .nil
  size := rfl
  inOrder := h

/-- What an object that was lent no id is called is as before. -/
theorem Lent.idOf_eq (h : Lent r new s) (hobj : obj ∉ new) : s.idOf obj = r.idOf obj := by
  have hsentinel : s.sentinelIdOf? obj = r.sentinelIdOf? obj := by
    rw [h.rest]
    rfl
  rw [idOf, idOf, h.kept obj hobj, hsentinel]

/-- A local root that takes the next id is lent it: the object had none, and both maps have it
now. -/
theorem Lent.lend {pins : PinSet ObjectHandle} (h : Lent r new s)
    (htakes : s.TakesNext l ⟨s.nextId⟩)
    (hafter : IdsInOrder
      { { s with nextId := s.nextId + 1 }.bindId l ⟨s.nextId⟩ with localRoots := pins }) :
    Lent r (l :: new)
      { { s with nextId := s.nextId + 1 }.bindId l ⟨s.nextId⟩ with localRoots := pins } := by
  have hl : l ∉ new := by
    intro hl
    obtain ⟨own, hown⟩ := Option.isSome_iff_exists.1 (h.lent l hl)
    exact htakes.1 own ((idOf_eq_ok_iff s).2 (.inl hown))
  have hfree : s.objectOfId.contains ⟨s.nextId⟩ = false := by
    rw [OrderedMap.contains, h.inOrder.get?_nextId, Option.isSome_none]
  -- The next id has been given out, so it is below the one after it.
  have hgrown : s.nextId < s.nextId + 1 :=
    hafter.below ⟨s.nextId⟩ l (OrderedMap.get?_insert_self _ _ _)
  refine ⟨?rest, ?nextId, fun obj hobj => ?kept, fun obj hobj => ?unnamed, fun obj hobj => ?lent,
    List.nodup_cons.2 ⟨hl, h.nodup⟩, ?size, hafter⟩
  case rest =>
    rw [h.rest]
    rfl
  case nextId => exact UInt64.le_trans h.nextId (UInt64.le_of_lt hgrown)
  case kept =>
    rw [List.mem_cons, not_or] at hobj
    exact (OrderedMap.get?_insert_of_ne _ _ (Ne.symm hobj.1)).trans (h.kept obj hobj.2)
  case unnamed =>
    rcases List.mem_cons.1 hobj with rfl | hobj
    · rw [← h.idOf_eq hl]
      exact htakes.1
    · exact h.unnamed obj hobj
  case lent =>
    refine (OrderedMap.contains_insert_iff _ _ _ _).2 ?_
    exact (List.mem_cons.1 hobj).imp Eq.symm (h.lent obj)
  case size =>
    calc (s.objectOfId.insert ⟨s.nextId⟩ l).size
        = s.objectOfId.size + 1 := OrderedMap.size_insert hfree l
      _ = r.objectOfId.size + (l :: new).length := by
          rw [h.size, List.length_cons, Nat.add_assoc]

/-- Another local root is lent an id, or nobody is, because the root has one or none is left. -/
theorem Lent.addLocalRoot (h : Lent r new s) (l : ObjectHandle) :
    ∃ new', Lent r new' ((addLocalRoot l).after s) := by
  have hstep : IdStep none s ((Registry.addLocalRoot l).after s) := idStep_addLocalRoot l s
  have hafter := h.inOrder.idStep hstep
  rcases after_addLocalRoot_cases l s with he | he | ⟨htakes, he⟩
  · rw [he]
    exact ⟨new, h⟩
  · rw [he] at hafter ⊢
    refine ⟨new, ?_, h.nextId, h.kept, h.unnamed, h.lent, h.nodup, h.size, hafter⟩
    rw [h.rest]
  · rw [he] at hafter ⊢
    exact ⟨l :: new, h.lend htakes hafter⟩

/-- **A debug step lends ids, and does nothing else**, however many objects it pins. -/
theorem exists_lent_pinLocals (h : IdsInOrder r) (objs : List ObjectHandle) :
    ∃ new, Lent r new (r.pinLocals objs) := by
  suffices ∀ {s new}, Lent r new s → ∃ new', Lent r new' (s.pinLocals objs) from
    this (Lent.refl h)
  induction objs with
  | nil => exact fun {s new} hs => ⟨new, hs⟩
  | cons obj rest ih =>
    intro s new hs
    obtain ⟨new', hs'⟩ := hs.addLocalRoot obj
    exact ih hs'

/-- The objects that get an id are those that are lent one. -/
theorem Lent.getsId_iff (h : Lent r new (r.pinLocals objs)) : r.GetsId objs obj ↔ obj ∈ new := by
  constructor
  · rintro ⟨hnone, id, hid⟩
    by_contra hobj
    exact hnone id ((h.idOf_eq hobj).symm.trans hid)
  · intro hobj
    obtain ⟨id, hid⟩ := Option.isSome_iff_exists.1 (h.lent obj hobj)
    exact ⟨h.unnamed obj hobj, id, (idOf_eq_ok_iff _).2 (.inl hid)⟩

theorem Lent.encard_eq (h : Lent r new (r.pinLocals objs)) :
    {obj | r.GetsId objs obj}.encard = new.length := by
  classical
  have hset : {obj | r.GetsId objs obj} = new.toFinset := by
    ext obj
    rw [Set.mem_ofPred_eq, h.getsId_iff, List.coe_toFinset, Set.mem_ofPred_eq]
  rw [hset, Set.encard_coe_eq_coe_finsetCard, List.toFinset_card_of_nodup h.nodup]

/-! ## The end of a debug step -/

/-- The end of the step drops the ids lent, if they went to objects that are not pinned for the log. -/
theorem Lent.filter_idOfObject (h : Lent r new s)
    (hpinned : ∀ obj id, r.idOfObject.get? obj = some id → r.roots.contains obj = true)
    (hnew : ∀ obj ∈ new, r.roots.contains obj = false) :
    (s.idOfObject.filter fun e => s.roots.contains e.1) = r.idOfObject := by
  have hroots : s.roots = r.roots := by
    rw [h.rest]
  refine OrderedMap.ext_get? fun obj => Option.ext fun id => ?_
  rw [OrderedMap.get?_filter_eq_some_iff, hroots]
  by_cases hobj : obj ∈ new
  · constructor
    · rintro ⟨_, hroot⟩
      rw [hnew obj hobj] at hroot
      cases hroot
    · intro hid
      exact absurd ((idOf_eq_ok_iff r).2 (.inl hid)) (h.unnamed obj hobj id)
  · rw [h.kept obj hobj]
    exact ⟨fun hid => hid.1, fun hid => ⟨hid, hpinned obj id hid⟩⟩

/-- The other map loses the same entries. -/
theorem Lent.filter_objectOfId (h : Lent r new s) (hr : IdsInOrder r)
    (hfilter : (s.idOfObject.filter fun e => s.roots.contains e.1) = r.idOfObject) :
    (s.objectOfId.filter fun e => s.roots.contains e.2) = r.objectOfId := by
  refine OrderedMap.ext_get? fun id => Option.ext fun obj => ?_
  rw [OrderedMap.get?_filter_eq_some_iff, h.inOrder.inverse, hr.inverse, ← hfilter,
    OrderedMap.get?_filter_eq_some_iff]

/-- **When a debug step leaves no trace.**  Let every object that has an ordinary id be pinned for the
log, and let nothing be pinned for a debug step, as the end of the last one leaves it.  Pin any
objects as local roots, whichever of them are sentinels, pinned for the log or unknown, and whichever
of the pins fail, and end the debug step.  This leaves the registry as it was, but for the next id,
which may have grown, and tells how many objects got an id, exactly if none of those is pinned for the
log. -/
theorem leavesNoTrace_iff {φ : Type} {config : Config} {t : Registry × φ}
    (h : Reachable config t) (hlocal : t.1.localRoots = .empty)
    (hpinned : ∀ obj id, t.1.idOfObject.get? obj = some id → t.1.roots.contains obj = true)
    (objs : List ObjectHandle) :
    t.1.LeavesNoTrace objs ↔ ∀ obj, t.1.GetsId objs obj → t.1.roots.contains obj = false := by
  obtain ⟨new, hnew⟩ := exists_lent_pinLocals h.idsInOrder objs
  constructor
  · rintro ⟨next, _, hrefreshed, _⟩ obj hgets
    -- An object that keeps its id was not without one before.
    by_contra hroot
    have hroots : (t.1.pinLocals objs).roots = t.1.roots := by
      rw [hnew.rest]
    have hobj := hnew.getsId_iff.1 hgets
    obtain ⟨id, hid⟩ := Option.isSome_iff_exists.1 (hnew.lent obj hobj)
    have hkept : (t.1.pinLocals objs).refreshLocalRoots.2.idOfObject.get? obj = some id := by
      refine (OrderedMap.get?_filter_eq_some_iff _).2 ⟨hid, ?_⟩
      rw [hroots]
      exact eq_true_of_ne_false hroot
    rw [hrefreshed] at hkept
    exact hgets.1 id ((idOf_eq_ok_iff t.1).2 (.inl hkept))
  · intro hgets
    have hids := hnew.filter_idOfObject hpinned fun obj hobj => hgets obj (hnew.getsId_iff.2 hobj)
    have hobjects := hnew.filter_objectOfId h.idsInOrder hids
    refine ⟨(t.1.pinLocals objs).nextId, hnew.nextId, ?_, ?_⟩
    · rw [refreshLocalRoots, hids, hobjects, ← hlocal]
      exact congrArg (fun s : Registry => { s with
        localRoots := t.1.localRoots
        objectOfId := t.1.objectOfId
        idOfObject := t.1.idOfObject }) hnew.rest
    · rw [hnew.encard_eq, refreshLocalRoots, hobjects, hnew.size, Nat.add_sub_cancel_left]

/-- One object and a sentinel are pinned for the log.  A debug step pins both, and two new objects, one
of them twice: the two get ids and lose them again. -/
theorem leavesNoTrace_of_two_new_objects :
    ∃ t : Registry × Unit, Reachable {} t ∧ t.1.roots.handles = [⟨0⟩, ⟨10⟩] ∧
      t.1.LeavesNoTrace [⟨10⟩, ⟨0⟩, ⟨11⟩, ⟨11⟩, ⟨12⟩] ∧
      (t.1.pinLocals [⟨10⟩, ⟨0⟩, ⟨11⟩, ⟨11⟩, ⟨12⟩]).refreshLocalRoots.1 = 2 := by
  let sentinels : PerSlot ObjectHandle := ⟨⟨0⟩, ⟨1⟩, ⟨2⟩, ⟨3⟩, ⟨4⟩⟩
  let wrap : WrapContext Unit := fun ctx _ => pure ⟨ctx.index.toUInt64⟩
  have h : Reachable {} _ := (((Reachable.created (φ := Unit) () (rfl : create {} = .ok _)).called
    (.registerContext wrap .record sentinels)).called (.addRoot ⟨10⟩)).called (.addRoot ⟨0⟩)
  refine ⟨_, h, by decide, (leavesNoTrace_iff h rfl (fun obj id hid => ?_) _).2 fun obj hgets => ?_,
    by decide⟩
  · cases List.mem_singleton.1 ((OrderedMap.get?_eq_some_iff_mem _).1 hid)
    decide
  · -- Both objects pinned for the log have ids, so that neither gets one.
    refine Bool.eq_false_iff.2 fun hroot => ?_
    rcases List.mem_cons.1 ((PinSet.mem_handles_iff _).2 hroot) with rfl | hobj
    · exact hgets.1 _ rfl
    · obtain rfl := List.mem_singleton.1 hobj
      exact hgets.1 _ rfl

/-- A sentinel is pinned for the log, and then its context is retired.  A debug step that pins it as a
local root lends it the first id, which its end does not take back. -/
theorem trace_of_rootWithoutId :
    ∃ t : Registry × Unit, Reachable {} t ∧ t.1.localRoots = .empty ∧
      (∀ obj id, t.1.idOfObject.get? obj = some id → t.1.roots.contains obj = true) ∧
      t.1.idOfObject.get? ⟨0⟩ = none ∧
      (t.1.pinLocals [⟨0⟩]).refreshLocalRoots.2.idOfObject.get? ⟨0⟩ = some ⟨1⟩ ∧
      (t.1.pinLocals [⟨0⟩]).refreshLocalRoots.1 = 0 ∧ ¬ t.1.LeavesNoTrace [⟨0⟩] := by
  let sentinels : PerSlot ObjectHandle := ⟨⟨0⟩, ⟨1⟩, ⟨2⟩, ⟨3⟩, ⟨4⟩⟩
  let wrap : WrapContext Unit := fun ctx _ => pure ⟨ctx.index.toUInt64⟩
  have h : Reachable {} _ := (((Reachable.created (φ := Unit) () (rfl : create {} = .ok _)).called
    (.registerContext wrap .record sentinels)).called (.addRoot ⟨0⟩)).called (.destroyInRecord ⟨0⟩)
  obtain ⟨t, ht, hlocal, hempty, hkept, hcount⟩ : ∃ t : Registry × Unit, Reachable {} t ∧
      t.1.localRoots = .empty ∧ t.1.idOfObject = .empty ∧
      (t.1.pinLocals [⟨0⟩]).refreshLocalRoots.2.idOfObject.get? ⟨0⟩ = some ⟨1⟩ ∧
      (t.1.pinLocals [⟨0⟩]).refreshLocalRoots.1 = 0 := ⟨_, h, rfl, rfl, by decide, by decide⟩
  refine ⟨t, ht, hlocal, fun obj id hid => ?_, ?_, hkept, hcount, ?_⟩
  · rw [hempty] at hid
    cases hid
  · rw [hempty]
    rfl
  · rintro ⟨next, _, hrefreshed, _⟩
    rw [hrefreshed, hempty] at hkept
    cases hkept

end Registry

end Retrace
