/-
# What the collector may free

The collector frees what is not marked, and an id that names an object must not name one that has
been freed.

| an id that names the object | and the object is marked |
| --- | --- |
| a sentinel id | as a sentinel of a tracked context |
| an ordinary id, and the object is pinned | as pinned for the log or for the debug step |
| an ordinary id, and the object is not pinned | perhaps not |

The last is so by design: `removeRoot` leaves the id as it is, and the next refresh drops it.  In
between the object is `Released`, and nothing but that leaves an object with an ordinary id and
without a pin (`History.pinned_or_released`).  So it is on the host to refresh before the collector
runs (`marked_or_released`).

The data model asks that what is needed to resolve ids be pinned (specification, section 3), and the
registry lets an id live on past its last pin (section 4.1).
-/

import Retrace.Proofs.Registry.PinSteps

namespace Retrace

theorem Marks.objects_append (a b : Marks) : (a ++ b).objects = a.objects ++ b.objects := rfl

namespace Registry

variable {φ : Type}

/-! ## What is marked -/

theorem mem_marks_of_pinned {r : Registry} {obj : ObjectHandle} (h : r.Pinned obj) :
    obj ∈ r.marks.objects := by
  have hpinned : obj ∈ r.roots.handles ++ r.localRoots.handles ++ r.specialRoots.handles := by
    refine List.mem_append_left _ (List.mem_append.2 ?_)
    rwa [PinSet.mem_handles_iff, PinSet.mem_handles_iff]
  unfold marks
  simp only [Marks.objects_append, List.mem_append]
  exact .inl (.inl (.inl (by simpa only [List.mem_append] using hpinned)))

theorem mem_marks_of_sentinel {r : Registry} {d : TrackedContext} (hd : d ∈ r.contexts)
    (slot : SentinelSlot) : d.sentinels.get slot ∈ r.marks.objects := by
  have hsentinel : d.sentinels.get slot ∈ r.contexts.flatMap fun c => c.sentinels.toList :=
    List.mem_flatMap.2 ⟨d, hd, d.sentinels.mem_toList_iff.2 ⟨slot, rfl⟩⟩
  unfold marks
  simp only [Marks.objects_append, List.mem_append]
  exact .inl (.inl (.inr hsentinel))

/-! ## Objects that are pinned no longer -/

/-- A refresh leaves no object with an ordinary id and without a pin. -/
theorem pinned_of_refreshed {r : Registry} {obj : ObjectHandle}
    (hid : r.refreshLocalRoots.2.idOfObject.contains obj = true) :
    r.refreshLocalRoots.2.Pinned obj := by
  obtain ⟨id, hid⟩ := Option.isSome_iff_exists.1 hid
  exact .inl ((OrderedMap.get?_filter_eq_some_iff _).1 hid).2

/-- A step that leaves an object with an ordinary id and without a pin left it so before, or gives
its last pin back. -/
theorem PinStep.unpinned_cases {c : Call φ} {r r' : Registry} (hs : PinStep c r r')
    {obj : ObjectHandle} (hid : r'.idOfObject.contains obj = true) (hp : ¬ r'.Pinned obj) :
    r.idOfObject.contains obj = true ∧
      (¬ r.Pinned obj ∨ c = .removeRoot obj ∧ r.roots.contains obj = true) := by
  cases hs with
  | kept hs =>
    rw [hs.idOfObject] at hid
    rw [hs.pinned_iff] at hp
    exact ⟨hid, .inl hp⟩
  | @pinned _ new _ _ hpin hids =>
    rw [hpin, not_or] at hp
    rw [OrderedMap.contains, hids obj hp.1] at hid
    exact ⟨hid, .inl hp.2⟩
  | @released removed hc =>
    refine ⟨hid, ?_⟩
    by_cases hr : r.roots.contains obj = true
    · -- Only the object given back can lose a pin.
      by_cases ho : removed = obj
      · subst ho
        exact .inr ⟨hc, hr⟩
      · exact absurd (.inl (PinSet.contains_unpin_of_ne r.roots ho hr)) hp
    · exact .inl fun hpinned => hp (.inr (hpinned.resolve_left hr))
  | refreshed => exact absurd (pinned_of_refreshed hid) hp
  | cleared => cases hid

namespace History

variable {config : Config}

theorem unpinned_cases (h : History config φ) {n : Nat} {obj : ObjectHandle}
    (hid : (h.registry (n + 1)).idOfObject.contains obj = true)
    (hp : ¬ (h.registry (n + 1)).Pinned obj) :
    (h.registry n).idOfObject.contains obj = true ∧ (¬ (h.registry n).Pinned obj ∨
      h.calls[n]? = some (.removeRoot obj) ∧ (h.registry n).roots.contains obj = true) := by
  rcases h.pinStep n with ⟨_, he⟩ | ⟨c, hc, hstep⟩
  · rw [he] at hid hp
    exact ⟨hid, .inl hp⟩
  · rw [hc, Option.some.injEq]
    exact hstep.unpinned_cases hid hp

/-- Whether `removeRoot` has given the last pin on an object back, which has not been pinned again
since, nor has a debug step been ended. -/
def Released (h : History config φ) (n : Nat) (obj : ObjectHandle) : Prop :=
  ∃ m < n, h.calls[m]? = some (.removeRoot obj) ∧ (h.registry m).roots.contains obj = true ∧
    (∀ k, m < k → k ≤ n → ¬ (h.registry k).Pinned obj) ∧
    ∀ k, m < k → k < n → h.calls[k]? ≠ some .refreshLocalRoots

theorem Released.succ {h : History config φ} {n : Nat} {obj : ObjectHandle}
    (hr : h.Released n obj) (hp : ¬ (h.registry (n + 1)).Pinned obj)
    (hc : h.calls[n]? ≠ some .refreshLocalRoots) : h.Released (n + 1) obj := by
  obtain ⟨m, hm, hcall, hroot, hunpinned, hkept⟩ := hr
  refine ⟨m, Nat.lt_succ_of_lt hm, hcall, hroot, fun k hmk hk => ?_, fun k hmk hk => ?_⟩
  · rcases Nat.le_or_eq_of_le_succ hk with hk | rfl
    · exact hunpinned k hmk hk
    · exact hp
  · rcases Nat.lt_succ_iff_lt_or_eq.1 hk with hk | rfl
    · exact hkept k hmk hk
    · exact hc

/-- **An object with an ordinary id is pinned or released**, after any number of calls. -/
theorem pinned_or_released (h : History config φ) (n : Nat) {obj : ObjectHandle}
    (hid : (h.registry n).idOfObject.contains obj = true) :
    (h.registry n).Pinned obj ∨ h.Released n obj := by
  induction n with
  | zero =>
    obtain ⟨_, hstart⟩ := create_eq_ok_iff.1 h.created
    rw [h.registry_zero, hstart] at hid
    cases hid
  | succ n ih =>
    by_cases hp : (h.registry (n + 1)).Pinned obj
    · exact .inl hp
    have hrefresh : h.calls[n]? ≠ some .refreshLocalRoots := by
      intro hc
      have he : h.registry (n + 1) = (h.registry n).refreshLocalRoots.2 :=
        congrArg Prod.fst (h.state_succ_of_some hc)
      rw [he] at hid hp
      exact hp (pinned_of_refreshed hid)
    obtain ⟨hbefore, hcases⟩ := h.unpinned_cases hid hp
    rcases hcases with hnot | ⟨hcall, hroot⟩
    · exact .inr (((ih hbefore).resolve_left hnot).succ hp hrefresh)
    · refine .inr ⟨n, Nat.lt_succ_self n, hcall, hroot, fun k hnk hk => ?_, fun k hnk hk => ?_⟩
      · obtain rfl : k = n + 1 := by omega
        exact hp
      · omega

end History

/-! ## Objects that ids name -/

/-- **What an id names is marked or released.**  After any number of calls of any history, an object
that an id names is among those that the registry keeps alive, unless `removeRoot` has given the last
pin on it back, it has not been pinned again since, and no debug step has been ended since. -/
theorem marked_or_released {config : Config} (h : History config φ) (n : Nat) {id : LogId}
    {obj : ObjectHandle} (ho : (h.registry n).lookupObject id = .ok obj) :
    obj ∈ (h.registry n).marks.objects ∨ h.Released n obj := by
  rcases (lookupObject_eq_ok_iff _).1 ho with ⟨_, hbound⟩ | ⟨ctx, slot, d, _, hd, rfl⟩
  · have hid := ((h.idsInOrder n).inverse id obj).1 hbound
    exact (h.pinned_or_released n (OrderedMap.contains_of_get? hid)).imp_left mem_marks_of_pinned
  · exact .inl (mem_marks_of_sentinel (mem_of_context? hd).1 slot)

/-- Two objects are pinned for the log and one is given back: its id names it still, but it is
released; the other is marked. -/
theorem released_after_removeRoot :
    ∃ h : History {} Unit, (h.registry 3).lookupObject ⟨1⟩ = .ok ⟨7⟩ ∧ h.Released 3 ⟨7⟩ ∧
      (h.registry 3).lookupObject ⟨2⟩ = .ok ⟨8⟩ ∧ ⟨8⟩ ∈ (h.registry 3).marks.objects := by
  let h : History {} Unit := ⟨_, (rfl : create {} = .ok _), (),
    [.addRoot ⟨7⟩, .addRoot ⟨8⟩, .removeRoot ⟨7⟩]⟩
  have hseven : (h.registry 3).lookupObject ⟨1⟩ = .ok ⟨7⟩ := rfl
  have hnot : ⟨7⟩ ∉ (h.registry 3).marks.objects := by decide
  exact ⟨h, hseven, (marked_or_released h 3 hseven).resolve_left hnot, rfl, by decide⟩

/-- The one pin on an object is given back: its id names it still, but nothing keeps it alive. -/
theorem unmarked_after_removeRoot :
    ∃ t : Registry × Unit, Reachable {} t ∧ t.1.lookupObject ⟨1⟩ = .ok ⟨7⟩ ∧
      ⟨7⟩ ∉ t.1.marks.objects := by
  have h : Reachable {} _ := ((Reachable.created (φ := Unit) () (rfl : create {} = .ok _)).called
    (.addRoot ⟨7⟩)).called (.removeRoot ⟨7⟩)
  exact ⟨_, h, rfl, by decide⟩

end Registry

end Retrace
