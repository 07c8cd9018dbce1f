/-
# Fresh ids

An ordinary id that is handed out is larger than every ordinary id that was in use before, however it
came into use and whether it still is (`fresh_or_exhausted`).  It is the next id that remembers: what
drops ids leaves it alone.

| of the next id, after any number of calls | |
| --- | --- |
| `first` | it is at least the first id of the settings |
| `above` | every id used so far is smaller |
| `origin` | it is the first id, or the one after an id used so far |

So the next id has left the ordinary range exactly once the last ordinary id has been used
(`used_lastOrdinary_iff`), and from then on no id is handed out.

This is the monotone counter of the data model (specification, section 3), which ids from a log bump
past them.
-/

import Retrace.Proofs.Registry.History

namespace Retrace

/-- The largest ordinary id, after which the range of the sentinel ids begins. -/
def LogId.lastOrdinary : LogId := ⟨sentinelBase - 1⟩

namespace Registry

theorem contains_objectOfId_iff (r : Registry) (id : LogId) :
    r.objectOfId.contains id = true ↔ ∃ obj, r.objectOfId.get? id = some obj := by
  rw [OrderedMap.contains, Option.isSome_iff_exists]

/-- A step leaves the next id as it is, or raises it past an id that it brings into use. -/
theorem IdStep.nextId_cases {given : Option (PerSlot ObjectHandle)} {r r' : Registry}
    (h : IdStep given r r') :
    r'.nextId = r.nextId ∨ r.nextId ≤ r'.nextId ∧
      ∃ id, r'.objectOfId.contains id = true ∧ r'.nextId = id.raw + 1 := by
  cases h with
  | same hs => exact .inl hs.nextId
  | @handedOut _ obj _ _ hlt hs =>
    refine .inr ⟨?_, ⟨r.nextId⟩, (contains_objectOfId_iff r' _).2 ⟨obj, ?_⟩, hs.nextId⟩
    · rw [hs.nextId]
      exact UInt64.le_of_lt (lt_add_one_of_lt_sentinelBase hlt).1
    · rw [hs.objectOfId]
      exact OrderedMap.get?_insert_self _ _ _
  | @recorded _ obj id _ _ hs =>
    have hnext : r'.nextId = max r.nextId (id.raw + 1) := hs.nextId
    by_cases hle : r.nextId ≤ id.raw + 1
    · have hmax : max r.nextId (id.raw + 1) = id.raw + 1 := if_pos hle
      refine .inr ⟨?_, id, (contains_objectOfId_iff r' _).2 ⟨obj, ?_⟩, hnext.trans hmax⟩
      · rw [hnext, hmax]
        exact hle
      · rw [hs.objectOfId]
        exact OrderedMap.get?_insert_self _ _ _
    · have hmax : max r.nextId (id.raw + 1) = r.nextId := if_neg hle
      exact .inl (hnext.trans hmax)
  | tracked => exact .inl rfl
  | refreshed => exact .inl rfl
  | cleared => exact .inl rfl

namespace History

variable {config : Config} {φ : Type}

/-- Whether an ordinary id has named an object after some of the first calls of a history. -/
def Used (h : History config φ) (n : Nat) (id : LogId) : Prop :=
  ∃ m ≤ n, (h.registry m).objectOfId.contains id = true

theorem Used.mono {h : History config φ} {m n : Nat} {id : LogId} (hu : h.Used m id) (hmn : m ≤ n) :
    h.Used n id := by
  obtain ⟨k, hk, hc⟩ := hu
  exact ⟨k, Nat.le_trans hk hmn, hc⟩

/-- What the next id tells of the ids used so far. -/
structure Counted (h : History config φ) (n : Nat) : Prop where
  /-- It is at least the first id of the settings. -/
  first : config.firstLogId ≤ (h.registry n).nextId
  /-- Every id used so far is smaller. -/
  above : ∀ id, h.Used n id → id.raw < (h.registry n).nextId
  /-- It is the first id, or the one after an id used so far. -/
  origin : (h.registry n).nextId = config.firstLogId ∨
    ∃ id, h.Used n id ∧ (h.registry n).nextId = id.raw + 1

theorem counted_zero (h : History config φ) : h.Counted 0 := by
  obtain ⟨_, hstart⟩ := create_eq_ok_iff.1 h.created
  have hnext : (h.registry 0).nextId = config.firstLogId := by rw [registry_zero, hstart]
  refine ⟨UInt64.le_of_eq hnext.symm, ?_, .inl hnext⟩
  rintro id ⟨m, hm, hc⟩
  obtain rfl := Nat.le_zero.1 hm
  rw [registry_zero, hstart] at hc
  cases hc

theorem Counted.succ {h : History config φ} {n : Nat} (hn : h.Counted n) : h.Counted (n + 1) := by
  have hcases := (h.idStep n).nextId_cases
  have hle : (h.registry n).nextId ≤ (h.registry (n + 1)).nextId := by
    rcases hcases with he | ⟨hle, _⟩
    · exact UInt64.le_of_eq he.symm
    · exact hle
  refine ⟨UInt64.le_trans hn.first hle, ?_, ?_⟩
  · rintro id ⟨m, hm, hc⟩
    -- An id of the registry that the step leaves is below the next one, whatever the step was.
    rcases Nat.le_or_eq_of_le_succ hm with hm | rfl
    · exact UInt64.lt_of_lt_of_le (hn.above id ⟨m, hm, hc⟩) hle
    · obtain ⟨obj, ho⟩ := (contains_objectOfId_iff _ id).1 hc
      exact (h.idsInOrder (n + 1)).below id obj ho
  · rcases hcases with he | ⟨_, id, hc, he⟩
    · rw [he]
      exact hn.origin.imp_right fun ⟨id, hu, hid⟩ => ⟨id, hu.mono (Nat.le_succ n), hid⟩
    · exact .inr ⟨id, ⟨n + 1, Nat.le_refl _, hc⟩, he⟩

/-- **The next id keeps account of all ids used so far**, those included that have been dropped
since. -/
theorem counted (h : History config φ) (n : Nat) : h.Counted n := by
  induction n with
  | zero => exact h.counted_zero
  | succ n ih => exact ih.succ

/-- **The next id has left the ordinary range once the last ordinary id has been used**, and not
before. -/
theorem used_lastOrdinary_iff (h : History config φ) (n : Nat) :
    h.Used n .lastOrdinary ↔ LogId.sentinelBase ≤ (h.registry n).nextId := by
  have hlast : LogId.lastOrdinary.raw.toNat = 9223372036854775807 := rfl
  have hn := h.counted n
  constructor
  · intro hu
    have hlt := UInt64.lt_iff_toNat_lt.1 (hn.above _ hu)
    rw [UInt64.le_iff_toNat_le, LogId.toNat_sentinelBase]
    omega
  · intro hle
    have heq : (h.registry n).nextId = LogId.sentinelBase :=
      UInt64.le_antisymm (h.idsInOrder n).bounded hle
    rcases hn.origin with he | ⟨id, hu, he⟩
    · rw [he] at heq
      exact absurd heq (UInt64.ne_of_lt (firstLogId_lt_of_create h.created))
    · have hid : id = .lastOrdinary := by
        rw [heq] at he
        cases id with
        | mk raw => exact congrArg LogId.mk (by rw [eq_comm, UInt64.sub_eq_iff_eq_add]; exact he)
      rw [← hid]
      exact hu

instance (h : History config φ) (n : Nat) (id : LogId) : Decidable (h.Used n id) :=
  inferInstanceAs (Decidable (∃ m ≤ n, _))

end History

/-! ## Objects without an id -/

theorem noId_of_idOf {r : Registry} {obj : ObjectHandle} (h : ∀ id, r.idOf obj ≠ .ok id) :
    r.idOfObject.get? obj = none ∧ r.sentinelIdOf? obj = none := by
  rw [← Option.or_eq_none_iff]
  cases ho : (r.idOfObject.get? obj).or (r.sentinelIdOf? obj) with
  | none => rfl
  | some id => exact absurd (by rw [idOf, ho]) (h id)

/-- An object without an id is pinned under the next one, or there is none left. -/
theorem pinById_of_new {pin : Registry → Registry} (hp : ∀ s, SameIds s (pin s)) {r : Registry}
    {obj : ObjectHandle} (hnew : ∀ id, r.idOf obj ≠ .ok id) :
    (r.nextId < LogId.sentinelBase ∧ ∃ s, pinById pin obj r = .ok ⟨r.nextId⟩ s ∧
        s.idOf obj = .ok ⟨r.nextId⟩) ∨
      (LogId.sentinelBase ≤ r.nextId ∧
        pinById pin obj r = .error (.violation .idsExhausted) r) := by
  obtain ⟨hi, hs⟩ := noId_of_idOf hnew
  rcases idOrNext_cases obj r with ⟨id, ho, _⟩ | ⟨_, _, hle, he⟩ | ⟨_, _, hlt, he⟩
  · rw [hi, hs] at ho
    cases ho
  · exact .inr ⟨hle, by rw [pinById, he]⟩
  · refine .inl ⟨hlt, _, pinById_eq_ok_iff.2 ⟨_, he, rfl⟩, ?_⟩
    rw [idOf_eq_ok_iff, (hp _).idOfObject]
    exact .inl (OrderedMap.get?_insert_self _ _ _)

theorem exists_pinById_of_mem {add : ObjectHandle → Action Registry LogId}
    (hadd : add ∈ [addRoot, addLocalRoot]) (obj : ObjectHandle) :
    ∃ pin : Registry → Registry, add obj = pinById pin obj ∧ ∀ s, SameIds s (pin s) := by
  simp only [List.mem_cons, List.not_mem_nil, or_false] at hadd
  rcases hadd with rfl | rfl
  · exact ⟨_, addRoot_eq obj, fun s => sameIds_pinRoot s obj⟩
  · exact ⟨_, addLocalRoot_eq obj, fun s => sameIds_pinLocal s obj⟩

/-- **Ids are never given twice.**  In every history, an object that has no id is given one when it is
pinned, as long as the last ordinary id has not been used: an ordinary id that is at least the first
one of the settings and larger than every ordinary id used before, whether that was handed out or
found in a log, and whether it is still in use.  Once the last ordinary id has been used every such
pin fails and changes nothing. -/
theorem fresh_or_exhausted {config : Config} {φ : Type} (h : History config φ) (n : Nat)
    {add : ObjectHandle → Action Registry LogId} (hadd : add ∈ [addRoot, addLocalRoot])
    {obj : ObjectHandle} (hnew : ∀ id, (h.registry n).idOf obj ≠ .ok id) :
    (¬ h.Used n .lastOrdinary → ∃ id s, add obj (h.registry n) = .ok id s ∧ s.idOf obj = .ok id ∧
        id.isSentinel = false ∧ config.firstLogId ≤ id.raw ∧
        ∀ old, h.Used n old → old.raw < id.raw) ∧
      (h.Used n .lastOrdinary →
        add obj (h.registry n) = .error (.violation .idsExhausted) (h.registry n)) := by
  obtain ⟨pin, hpin, hp⟩ := exists_pinById_of_mem hadd obj
  have hn := h.counted n
  rw [h.used_lastOrdinary_iff, hpin]
  rcases pinById_of_new hp hnew with ⟨hlt, s, he, hid⟩ | ⟨hle, he⟩
  · refine ⟨fun _ => ⟨⟨(h.registry n).nextId⟩, s, he, hid, ?_, hn.first, hn.above⟩, fun hle => ?_⟩
    · exact isSentinel_eq_false_of_lt hlt
    · exact absurd hlt (UInt64.not_lt.2 hle)
  · exact ⟨fun hlt => absurd hle hlt, fun _ => he⟩

/-- An id found in a log is forgotten, and still the next one is larger; it is the last ordinary one,
so that no other follows. -/
theorem fresh_after_clearRoots :
    ∃ h : History {} Unit, h.Used 2 ⟨0x7ffffffffffffffe⟩ ∧
      (h.registry 2).objectOfId.contains ⟨0x7ffffffffffffffe⟩ = false ∧
      (∃ id s, addRoot ⟨7⟩ (h.registry 2) = .ok id s ∧ s.idOf ⟨7⟩ = .ok id ∧
        id.isSentinel = false ∧ ∀ old, h.Used 2 old → old.raw < id.raw) ∧
      addLocalRoot ⟨8⟩ (h.registry 3) = .error (.violation .idsExhausted) (h.registry 3) := by
  let h : History {} Unit := ⟨_, (rfl : create {} = .ok _), (),
    [.addRootWithId ⟨9⟩ ⟨0x7ffffffffffffffe⟩, .clearRoots, .addRoot ⟨7⟩]⟩
  have h7 : ∀ id, (h.registry 2).idOf ⟨7⟩ ≠ .ok id := fun id he => by cases he
  have h8 : ∀ id, (h.registry 3).idOf ⟨8⟩ ≠ .ok id := fun id he => by cases he
  obtain ⟨id, s, he, hid, hord, _, hlt⟩ :=
    (fresh_or_exhausted h 2 List.mem_cons_self h7).1 (by decide)
  exact ⟨h, by decide, by decide, ⟨id, s, he, hid, hord, hlt⟩,
    (fresh_or_exhausted h 3 (by simp) h8).2 (by decide)⟩

end Registry

end Retrace
