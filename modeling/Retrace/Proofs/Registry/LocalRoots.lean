/-
# Local roots and ids from a log

Ids from a log are entered as given, unless another object has the id.  A local root that has no id
gets one, which is the next in line, so that pinning it may take the very id that the log has for an
object to come.

| the local root | ids from the log |
| --- | --- |
| has an id | are entered as before |
| gets the next id | are entered as before, that id excepted, which is refused |

The next id is the only one lost (`bindingViolation?_of_not_takesNext`), and it is lost for the debug
step only: ending that gives it back (`addRootWithId_after_refreshLocalRoots`), unless the local
root has been pinned for the log besides.

The specification refuses an id from a log that already names a different object (section 4.1); a
local root may be that object.
-/

import Retrace.Proofs.Registry.History

namespace Retrace

namespace Registry

variable {r r' s : Registry} {obj l o : ObjectHandle} {id own : LogId}

/-! ## Entering an id from a log -/

/-- An object is pinned under an ordinary id from a log exactly if nothing speaks against that. -/
theorem addRootWithId_eq_ok_iff (hid : id.isSentinel = false) :
    addRootWithId obj id r = .ok () s ↔ r.bindingViolation? obj id = none ∧
      s = { r.bindId obj id with nextId := max r.nextId (id.raw + 1) }.pinRoot obj := by
  unfold addRootWithId
  rw [hid, if_neg Bool.false_ne_true]
  cases r.bindingViolation? obj id with
  | some v => simp
  | none =>
    constructor
    · intro h
      cases h
      exact ⟨rfl, rfl⟩
    · rintro ⟨_, rfl⟩
      rfl

theorem addRootWithId_of_violation (hid : id.isSentinel = false) {v : Violation}
    (hv : r.bindingViolation? obj id = some v) :
    addRootWithId obj id r = .error (.violation v) r := by
  unfold addRootWithId
  rw [hid, if_neg Bool.false_ne_true, hv]

/-- What speaks against an id depends on what the object and the id are entered for. -/
theorem bindingViolation?_congr (hs : r'.sentinelIdOf? obj = r.sentinelIdOf? obj)
    (ho : r'.objectOfId.get? id = r.objectOfId.get? id)
    (hi : r'.idOfObject.get? obj = r.idOfObject.get? obj) :
    r'.bindingViolation? obj id = r.bindingViolation? obj id := by
  rw [bindingViolation?, hs, ho, hi, bindingViolation?]

theorem bindingViolation?_of_taken (hs : r.sentinelIdOf? obj = none)
    (ho : r.objectOfId.get? id = some l) (hne : l ≠ obj) :
    r.bindingViolation? obj id = some (.idTaken id l obj) := by
  simp [bindingViolation?, hs, ho, Option.filter, hne]

/-- An id that nothing speaks against is entered, and names its object then. -/
theorem exists_addRootWithId (hid : id.isSentinel = false)
    (hfree : r.bindingViolation? obj id = none) :
    ∃ s, addRootWithId obj id r = .ok () s ∧ s.lookupObject id = .ok obj :=
  ⟨_, (addRootWithId_eq_ok_iff hid).2 ⟨hfree, rfl⟩,
    (lookupObject_eq_ok_iff _).2 (.inl ⟨hid, OrderedMap.get?_insert_self _ _ _⟩)⟩

/-! ## Pinning a local root -/

/-- Whether an object has no id, and a certain id is the next one. -/
def TakesNext (r : Registry) (obj : ObjectHandle) (id : LogId) : Prop :=
  (∀ own, r.idOf obj ≠ .ok own) ∧ id = ⟨r.nextId⟩

/-- A local root has its id, or takes the next one. -/
theorem addLocalRoot_cases (h : addLocalRoot l r = .ok own r') :
    r.idOf l = .ok own ∧ r' = { r with localRoots := (r.localRoots.pin l).2 } ∨
      r.TakesNext l own ∧ r' = { { r with nextId := r.nextId + 1 }.bindId l own with
        localRoots := (r.localRoots.pin l).2 } := by
  rw [addLocalRoot_eq, pinById_eq_ok_iff] at h
  obtain ⟨s, he, rfl⟩ := h
  rcases idOrNext_cases l r with ⟨i, hi, hok⟩ | ⟨_, _, _, herr⟩ | ⟨hi, hs, _, hok⟩
  · cases he.symm.trans hok
    refine .inl ⟨?_, rfl⟩
    rw [idOf, hi]
  · cases he.symm.trans herr
  · cases he.symm.trans hok
    refine .inr ⟨⟨fun i hown => ?_, rfl⟩, rfl⟩
    rw [idOf, hi, hs] at hown
    cases hown

/-- **An id that the local root does not take** is entered as before, or refused as before. -/
theorem bindingViolation?_of_not_takesNext (h : addLocalRoot l r = .ok own r') (hne : o ≠ l)
    (hid : ¬ r.TakesNext l id) : r'.bindingViolation? o id = r.bindingViolation? o id := by
  rcases addLocalRoot_cases h with ⟨_, rfl⟩ | ⟨htakes, rfl⟩
  · rfl
  · have hown : own ≠ id := by
      rintro rfl
      exact hid htakes
    exact bindingViolation?_congr rfl (OrderedMap.get?_insert_of_ne _ _ hown)
      (OrderedMap.get?_insert_of_ne _ _ (Ne.symm hne))

/-- **The id that the local root takes** is refused to any other object, unless that is a sentinel,
which may not have it anyway. -/
theorem bindingViolation?_of_takesNext (h : addLocalRoot l r = .ok own r') (hne : o ≠ l)
    (hid : r.TakesNext l id) (hs : r.sentinelIdOf? o = none) :
    own = id ∧ r'.bindingViolation? o id = some (.idTaken id l o) := by
  rcases addLocalRoot_cases h with ⟨hhas, _⟩ | ⟨htakes, rfl⟩
  · exact absurd hhas (hid.1 own)
  · obtain rfl : own = id := htakes.2.trans hid.2.symm
    exact ⟨rfl, bindingViolation?_of_taken hs (OrderedMap.get?_insert_self _ _ _) (Ne.symm hne)⟩

/-- **A local root disturbs the replay of a log in one id at most.**  Let an object be about to get
an ordinary id from the log, and let another one be pinned as a local root before.  The first gets
its id nevertheless, and the id names it, unless the local root had no id and took that very one: it
is the next in line.  Then the object is refused, for the id maps to the local root. -/
theorem addRootWithId_after_addLocalRoot (hid : id.isSentinel = false) (hne : o ≠ l)
    (hadd : addRootWithId o id r = .ok () s) (hlocal : addLocalRoot l r = .ok own r') :
    (¬ r.TakesNext l id → ∃ s', addRootWithId o id r' = .ok () s' ∧ s'.lookupObject id = .ok o) ∧
      (r.TakesNext l id → own = id ∧
        addRootWithId o id r' = .error (.violation (.idTaken id l o)) r') := by
  obtain ⟨hfree, _⟩ := (addRootWithId_eq_ok_iff hid).1 hadd
  constructor
  · intro hnot
    exact exists_addRootWithId hid
      ((bindingViolation?_of_not_takesNext hlocal hne hnot).trans hfree)
  · intro htakes
    have hs := ((bindingViolation?_eq_none_iff r o id).1 hfree).1
    obtain ⟨hown, hv⟩ := bindingViolation?_of_takesNext hlocal hne htakes hs
    exact ⟨hown, addRootWithId_of_violation hid hv⟩

/-- One object has the first id, and a local root takes the second one.  From the log the fifth id is
entered as before, and the second one is refused. -/
theorem addRootWithId_after_second_id :
    ∃ (h : History {} Unit) (s₅ s₂ r' : Registry),
      addRootWithId ⟨8⟩ ⟨5⟩ (h.registry 1) = .ok () s₅ ∧
      addRootWithId ⟨8⟩ ⟨2⟩ (h.registry 1) = .ok () s₂ ∧
      addLocalRoot ⟨7⟩ (h.registry 1) = .ok ⟨2⟩ r' ∧
      (∃ s', addRootWithId ⟨8⟩ ⟨5⟩ r' = .ok () s' ∧ s'.lookupObject ⟨5⟩ = .ok ⟨8⟩) ∧
      addRootWithId ⟨8⟩ ⟨2⟩ r' = .error (.violation (.idTaken ⟨2⟩ ⟨7⟩ ⟨8⟩)) r' := by
  let h : History {} Unit := ⟨_, (rfl : create {} = .ok _), (), [.addRoot ⟨6⟩]⟩
  have hfive : addRootWithId ⟨8⟩ ⟨5⟩ (h.registry 1) = .ok () _ := rfl
  have htwo : addRootWithId ⟨8⟩ ⟨2⟩ (h.registry 1) = .ok () _ := rfl
  have hlocal : addLocalRoot ⟨7⟩ (h.registry 1) = .ok ⟨2⟩ _ := rfl
  have hnew : ∀ own, (h.registry 1).idOf ⟨7⟩ ≠ .ok own := fun own ho => by cases ho
  have hnot : ¬ (h.registry 1).TakesNext ⟨7⟩ ⟨5⟩ := fun ht => absurd ht.2 (by decide)
  have hne : (⟨8⟩ : ObjectHandle) ≠ ⟨7⟩ := by decide
  exact ⟨h, _, _, _, hfive, htwo, hlocal,
    (addRootWithId_after_addLocalRoot rfl hne hfive hlocal).1 hnot,
    ((addRootWithId_after_addLocalRoot rfl hne htwo hlocal).2 ⟨hnew, rfl⟩).2⟩

/-- In a new registry an object would get the first id from the log.  A local root takes that id, and
the object is refused. -/
theorem refused_after_addLocalRoot :
    ∃ (t : Registry × Unit) (s r' : Registry), Reachable {} t ∧
      addRootWithId ⟨8⟩ ⟨1⟩ t.1 = .ok () s ∧ addLocalRoot ⟨7⟩ t.1 = .ok ⟨1⟩ r' ∧
      addRootWithId ⟨8⟩ ⟨1⟩ r' = .error (.violation (.idTaken ⟨1⟩ ⟨7⟩ ⟨8⟩)) r' ∧
      r'.lookupObject ⟨1⟩ = .ok ⟨7⟩ := by
  have hcreate : create {} = .ok _ := rfl
  exact ⟨_, _, _, .created () hcreate, rfl, rfl, rfl, rfl⟩

/-! ## The end of a debug step -/

/-- **The end of the debug step gives the id back**, unless the local root has been pinned for the log
besides: the object gets its id from the log then as it would have got it before. -/
theorem addRootWithId_after_refreshLocalRoots (hid : id.isSentinel = false) (hne : o ≠ l)
    (hadd : addRootWithId o id r = .ok () s) (hlocal : addLocalRoot l r = .ok own r')
    (hl : r.roots.contains l = false) :
    ∃ s', addRootWithId o id r'.refreshLocalRoots.2 = .ok () s' ∧
      s'.lookupObject id = .ok o := by
  obtain ⟨hs, hobj, hown⟩ :=
    (bindingViolation?_eq_none_iff r o id).1 ((addRootWithId_eq_ok_iff hid).1 hadd).1
  refine exists_addRootWithId hid ((bindingViolation?_eq_none_iff _ o id).2 ?_)
  rcases addLocalRoot_cases hlocal with ⟨_, rfl⟩ | ⟨_, rfl⟩
  · exact ⟨hs, fun x hx => hobj x ((OrderedMap.get?_filter_eq_some_iff _).1 hx).1,
      fun i hi => hown i ((OrderedMap.get?_filter_eq_some_iff _).1 hi).1⟩
  · refine ⟨hs, fun x hx => ?_, fun i hi => ?_⟩
    · -- The id is that of the local root, which is not kept, or it was entered before.
      obtain ⟨hx, hpinned⟩ := (OrderedMap.get?_filter_eq_some_iff _).1 hx
      rcases (OrderedMap.get?_insert_eq_some_iff _).1 hx with ⟨_, rfl⟩ | ⟨_, hx⟩
      · exact absurd hpinned (Bool.eq_false_iff.1 hl)
      · exact hobj x hx
    · have hi := ((OrderedMap.get?_filter_eq_some_iff _).1 hi).1
      exact hown i ((OrderedMap.get?_insert_of_ne _ _ (Ne.symm hne)).symm.trans hi)

end Registry

end Retrace
