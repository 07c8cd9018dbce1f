/-
# Pinned objects keep their ids

While an object stays pinned for the log, its ordinary id stays the same, whatever else is called
(`idOf_of_pinned`).  Of the six steps, three might take it away or change it:

| step | and the id of a pinned object |
| --- | --- |
| `recorded` | a log may not give an object a second id |
| `refreshed` | only objects that are not pinned for the log lose theirs |
| `cleared` | all ids go, but all pins with them |

Nor does a new context take it over, because none is tracked with a sentinel that has an ordinary
id.

The specification has ids dropped of objects that are no longer pinned (section 4.1); that no others
are lost is said here of whole histories.
-/

import Mathlib.Data.Nat.Init
import Retrace.Proofs.Registry.History

namespace Retrace

namespace Registry

/-- **A step leaves the id of an object alone** if the object is pinned for the log before and
after. -/
theorem IdStep.idOfObject_of_pinned {given : Option (PerSlot ObjectHandle)} {r r' : Registry}
    (h : IdStep given r r') {obj : ObjectHandle} {id : LogId}
    (hid : r.idOfObject.get? obj = some id) (hpin : r.roots.contains obj = true)
    (hpin' : r'.roots.contains obj = true) : r'.idOfObject.get? obj = some id := by
  cases h with
  | same hs =>
    rw [hs.idOfObject]
    exact hid
  | @handedOut _ o hnone _ _ hs =>
    have hne : o ≠ obj := by
      rintro rfl
      rw [hid] at hnone
      cases hnone
    rw [hs.idOfObject]
    exact (OrderedMap.get?_insert_of_ne _ _ hne).trans hid
  | @recorded _ o i _ hv hs =>
    rw [hs.idOfObject]
    show (r.idOfObject.insert o i).get? obj = some id
    by_cases ho : o = obj
    · subst ho
      obtain ⟨_, _, hown⟩ := (bindingViolation?_eq_none_iff r o i).1 hv
      rw [OrderedMap.get?_insert_self, hown id hid]
    · rw [OrderedMap.get?_insert_of_ne _ _ ho]
      exact hid
  | tracked => exact hid
  | refreshed => exact (OrderedMap.get?_filter_eq_some_iff _).2 ⟨hid, hpin⟩
  | cleared => cases hpin'

theorem History.idOfObject_of_pinned {config : Config} {φ : Type} (h : History config φ) {j k : Nat}
    (hjk : j ≤ k) {obj : ObjectHandle} {id : LogId}
    (hid : (h.registry j).idOfObject.get? obj = some id)
    (hpin : ∀ n, j ≤ n → n ≤ k → (h.registry n).roots.contains obj = true) :
    (h.registry k).idOfObject.get? obj = some id := by
  induction k, hjk using Nat.le_induction with
  | base => exact hid
  | succ k hjk ih =>
    have hk := ih fun n hj hn => hpin n hj (Nat.le_succ_of_le hn)
    exact (h.idStep k).idOfObject_of_pinned hk (hpin k hjk (Nat.le_succ k))
      (hpin (k + 1) (Nat.le_succ_of_le hjk) (Nat.le_refl _))

/-- **A pinned object keeps its ordinary id.**  In every history, from any time at which an object
has an ordinary id on, the object has that id and the id names it for as long as the object has been
pinned for the log all the while, whatever calls were made, whether they succeeded or failed.
`clearRoots` is no exception: it ends the pin. -/
theorem idOf_of_pinned {config : Config} {φ : Type} (h : History config φ) {j k : Nat} (hjk : j ≤ k)
    {obj : ObjectHandle} {id : LogId} (hid : (h.registry j).idOf obj = .ok id)
    (hord : id.isSentinel = false)
    (hpin : ∀ n, j ≤ n → n ≤ k → (h.registry n).roots.contains obj = true) :
    (h.registry k).idOf obj = .ok id ∧ (h.registry k).lookupObject id = .ok obj := by
  have hj : (h.registry j).idOfObject.get? obj = some id := by
    rcases (idOf_eq_ok_iff _).1 hid with hj | ⟨_, hs⟩
    · exact hj
    · rw [isSentinel_of_sentinelIdOf? hs] at hord
      cases hord
  have hk := h.idOfObject_of_pinned hjk hj hpin
  have hback := ((h.idsInOrder k).inverse id obj).2 hk
  exact ⟨(idOf_eq_ok_iff _).2 (.inl hk), (lookupObject_eq_ok_iff _).2 (.inl ⟨hord, hback⟩)⟩

/-- One of two pins is given back, a context may not have the object as a sentinel, a log may not
give it another id, and a debug step ends: the object keeps its id, and one that was pinned for the
debug step only has lost its own. -/
theorem idOf_of_pinned_throughout :
    ∃ h : History {} Unit, (h.registry 8).idOf ⟨7⟩ = .ok ⟨1⟩ ∧
      (h.registry 8).lookupObject ⟨1⟩ = .ok ⟨7⟩ ∧ (h.registry 8).idOfObject.contains ⟨8⟩ = false := by
  let wrap : WrapContext Unit := fun ctx _ => pure ⟨ctx.index.toUInt64⟩
  let h : History {} Unit := ⟨_, (rfl : create {} = .ok _), (),
    [.addRoot ⟨7⟩, .addRoot ⟨7⟩, .removeRoot ⟨7⟩, .addLocalRoot ⟨8⟩,
      .registerContext wrap .record ⟨⟨7⟩, ⟨1⟩, ⟨2⟩, ⟨3⟩, ⟨4⟩⟩,
      .addRootWithId ⟨7⟩ ⟨5⟩, .refreshLocalRoots, .clearContexts]⟩
  have hid : (h.registry 1).idOf ⟨7⟩ = .ok ⟨1⟩ := rfl
  have hpin : ∀ n, n ≤ 8 → 1 ≤ n → (h.registry n).roots.contains ⟨7⟩ = true := by decide
  obtain ⟨hk, ho⟩ :=
    idOf_of_pinned h (by decide : 1 ≤ 8) hid rfl fun n hj hn => hpin n hn hj
  exact ⟨h, hk, ho, by decide⟩

end Registry

end Retrace
