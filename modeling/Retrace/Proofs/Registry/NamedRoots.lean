/-
# Whether snapshot roots have ids

A snapshot lists all that is pinned, and each of these objects is to have an id by which it is found
again.  An object without an id is given one when it is pinned, and one that is pinned by slot is a
sentinel of a tracked context.  Only one thing can take the id of a pinned object away:

| what takes ids away | and an object that is pinned |
| --- | --- |
| a refresh | keeps its ordinary id if it is pinned for the log, and is unpinned if not |
| `clearRoots` | is unpinned |
| a context that is tracked no longer | loses its id as a sentinel, but only its pins by slot |

So every snapshot root has an id exactly as long as no context has been retired or cleared with a
sentinel that was pinned for the log or for the debug step (`rootsNamed_iff`);
`unnamed_root_after_retirement` shows what happens then.

The specification has a sentinel keep its id through whichever root set it is pinned (section 4.1),
as long as its context is tracked.
-/

import Retrace.Proofs.Registry.ContextsInOrder
import Retrace.Proofs.Registry.PinSteps
import Retrace.Proofs.Registry.UniqueIds

namespace Retrace

namespace Registry

variable {φ : Type}

/-! ## Snapshot roots and their ids -/

/-- The snapshot roots are all that is pinned in one way or another. -/
theorem mem_snapshotRoots_iff (r : Registry) (obj : ObjectHandle) :
    obj ∈ r.snapshotRoots ↔ r.Pinned obj ∨ r.specialRoots.contains obj = true := by
  have hempty : (OrderedMap.empty : OrderedMap ObjectHandle Unit).contains obj = false := rfl
  unfold snapshotRoots
  rw [OrderedMap.mem_keys_iff, OrderedMap.contains_insertAll_iff, hempty]
  simp only [List.map_map, Function.comp_def, List.map_id', List.mem_append,
    PinSet.mem_handles_iff, Bool.false_eq_true, or_false, Pinned]

/-- Listed are the objects with an ordinary id, and the snapshot roots that are sentinels of a tracked
context. -/
theorem contains_rootIds_iff {r : Registry} (hi : IdsInOrder r) (obj : ObjectHandle) :
    r.rootIds.contains obj = true ↔ r.idOfObject.contains obj = true ∨
      obj ∈ r.snapshotRoots ∧ r.isSpecialRoot obj = true := by
  have hempty : (OrderedMap.empty : OrderedMap ObjectHandle LogId).contains obj = false := rfl
  unfold rootIds
  rw [OrderedMap.contains_insertAll_iff, hempty, List.map_append, List.mem_append]
  simp only [Bool.false_eq_true, or_false]
  refine or_congr ?_ ?_
  · -- An ordinary id is entered in both maps.
    rw [OrderedMap.contains, Option.isSome_iff_exists, List.map_map, List.mem_map]
    constructor
    · rintro ⟨⟨id, o⟩, hmem, rfl⟩
      exact ⟨id, (hi.inverse id o).1 ((OrderedMap.get?_eq_some_iff_mem _).2 hmem)⟩
    · rintro ⟨id, hid⟩
      exact ⟨(id, obj), (OrderedMap.get?_eq_some_iff_mem _).1 ((hi.inverse id obj).2 hid), rfl⟩
  · rw [← Bool.not_eq_false, ← sentinelIdOf?_eq_none_iff, ← Ne, Option.ne_none_iff_exists',
      List.mem_map]
    constructor
    · rintro ⟨⟨o, id⟩, hmem, rfl⟩
      obtain ⟨o', hroot, ho'⟩ := List.mem_filterMap.1 hmem
      obtain ⟨id', hs, he⟩ := Option.map_eq_some_iff.1 ho'
      obtain ⟨rfl, rfl⟩ := Prod.mk.inj he
      exact ⟨hroot, id', hs⟩
    · rintro ⟨hroot, id, hs⟩
      exact ⟨(obj, id), List.mem_filterMap.2 ⟨obj, hroot, by rw [hs, Option.map_some]⟩, rfl⟩

/-- An object that is listed and has an id is listed with that id. -/
theorem get?_rootIds {r : Registry} (hi : IdsInOrder r) {obj : ObjectHandle} {id : LogId}
    (hk : r.rootIds.contains obj = true) (hid : r.idOf obj = .ok id) :
    r.rootIds.get? obj = some id := by
  have hown := (idOf_eq_ok_iff r).1 hid
  have hordinary : ∀ {own}, r.objectOfId.get? own = some obj → own = id := by
    intro own ho
    have hget := (hi.inverse own obj).1 ho
    rcases hown with hid | ⟨hnone, _⟩
    · exact Option.some.inj (hget.symm.trans hid)
    · rw [hget] at hnone
      cases hnone
  have hsentinel : ∀ {own}, r.sentinelIdOf? obj = some own → own = id := by
    intro own hs
    rcases hown with hget | ⟨_, hid⟩
    · -- An object with an ordinary id is no sentinel.
      have hnot := hi.unshared id obj ((hi.inverse id obj).2 hget)
      rw [(sentinelIdOf?_eq_none_iff r obj).2 hnot] at hs
      cases hs
    · exact Option.some.inj (hs.symm.trans hid)
  unfold rootIds at hk ⊢
  refine OrderedMap.get?_insertAll_of_forall (fun e he hk => ?_) (.inl ?_)
  · rcases List.mem_append.1 he with he | he
    · obtain ⟨⟨own, o⟩, hmem, rfl⟩ := List.mem_map.1 he
      obtain rfl : o = obj := hk
      exact hordinary ((OrderedMap.get?_eq_some_iff_mem _).2 hmem)
    · obtain ⟨o, _, ho⟩ := List.mem_filterMap.1 he
      obtain ⟨own, hs, rfl⟩ := Option.map_eq_some_iff.1 ho
      obtain rfl : o = obj := hk
      exact hsentinel hs
  · exact ((OrderedMap.contains_insertAll_iff _ _ _).1 hk).resolve_right Bool.false_ne_true

/-- Every snapshot root has an id, and is listed with it in the view from objects to ids. -/
def RootsNamed (r : Registry) : Prop :=
  ∀ obj ∈ r.snapshotRoots, ∃ id, r.rootIds.get? obj = some id ∧ r.idOf obj = .ok id

/-- That comes down to what is pinned for the log or for the debug step: all else that is pinned are
sentinels of tracked contexts. -/
theorem rootsNamed_iff_named {config : Config} {t : Registry × φ} (h : Reachable config t) :
    RootsNamed t.1 ↔ ∀ obj, t.1.Pinned obj → t.1.Named obj := by
  constructor
  · intro hn obj hp
    obtain ⟨id, _, hid⟩ := hn obj ((mem_snapshotRoots_iff _ obj).2 (.inl hp))
    exact ⟨id, hid⟩
  · intro hn obj hobj
    have hnamed : t.1.Named obj := by
      rcases (mem_snapshotRoots_iff _ obj).1 hobj with hp | hs
      · exact hn obj hp
      · exact (named_iff _ obj).2 (.inr (h.contextsInOrder.special obj hs))
    have hlisted : t.1.rootIds.contains obj = true :=
      (contains_rootIds_iff h.idsInOrder obj).2
        (((named_iff _ obj).1 hnamed).imp_right fun hs => ⟨hobj, hs⟩)
    obtain ⟨id, hid⟩ := hnamed
    exact ⟨id, get?_rootIds h.idsInOrder hlisted hid, hid⟩

/-! ## What takes ids away -/

/-- A context is tracked no longer, and one of its sentinels was pinned for the log or for the debug
step. -/
def LosesPinned (r r' : Registry) : Prop :=
  ∃ d ∈ r.contexts, d ∉ r'.contexts ∧ ∃ slot, r.Pinned (d.sentinels.get slot)

/-- **A step that loses no such context** leaves all pinned objects with ids. -/
theorem PinStep.named {c : Call φ} {r r' : Registry} (hs : PinStep c r r')
    (hn : ∀ obj, r.Pinned obj → r.Named obj) (hloss : ¬ LosesPinned r r') :
    ∀ obj, r'.Pinned obj → r'.Named obj := by
  intro obj hp
  cases hs with
  | kept hs =>
    have hp := (hs.pinned_iff obj).1 hp
    rw [named_iff, hs.idOfObject]
    rcases (named_iff r obj).1 (hn obj hp) with hid | hspecial
    · exact .inl hid
    · obtain ⟨d, hd, slot, rfl⟩ := (isSpecialRoot_iff r obj).1 hspecial
      have hd' : d ∈ r'.contexts := by
        by_contra hgone
        exact hloss ⟨d, hd, hgone, slot, hp⟩
      exact .inr ((isSpecialRoot_iff r' _).2 ⟨d, hd', slot, rfl⟩)
  | @pinned _ new hsame hnamed hpin hids =>
    by_cases ho : new = obj
    · rw [← ho]
      exact hnamed
    · have hp := ((hpin obj).1 hp).resolve_left ho
      rw [named_iff, OrderedMap.contains, hids obj ho, hsame.isSpecialRoot]
      exact (named_iff r obj).1 (hn obj hp)
  | released =>
    have hp : r.Pinned obj := hp.imp_left PinSet.contains_of_unpin
    exact hn obj hp
  | refreshed =>
    have hroot : r.roots.contains obj = true := hp.resolve_right Bool.false_ne_true
    rw [named_iff]
    refine ((named_iff r obj).1 (hn obj (.inl hroot))).imp_left fun hid => ?_
    obtain ⟨id, hid⟩ := Option.isSome_iff_exists.1 hid
    exact OrderedMap.contains_of_get? ((OrderedMap.get?_filter_eq_some_iff _).2 ⟨hid, hroot⟩)
  | cleared => exact absurd hp (not_or.2 ⟨Bool.false_ne_true, Bool.false_ne_true⟩)

/-- **A step that loses such a context** leaves a pinned object without an id. -/
theorem PinStep.exists_unnamed {c : Call φ} {given : Option (PerSlot ObjectHandle)}
    {r r' : Registry} (hs : PinStep c r r') (hids : IdStep given r r') (hi : IdsInOrder r)
    (hapart : SentinelsApart r) (hloss : LosesPinned r r') :
    ∃ obj, r'.Pinned obj ∧ ¬ r'.Named obj := by
  obtain ⟨d, hd, hgone, slot, hp⟩ := hloss
  refine ⟨d.sentinels.get slot, ?_⟩
  cases hs with
  | kept hs =>
    refine ⟨(hs.pinned_iff _).2 hp, fun hnamed => ?_⟩
    rcases (named_iff r' _).1 hnamed with hid | hspecial
    · rw [hs.idOfObject, OrderedMap.contains, hi.get?_sentinel hd slot] at hid
      cases hid
    · obtain ⟨e, he, slot', hslot⟩ := (isSpecialRoot_iff r' _).1 hspecial
      -- No context that is still tracked has the object, for none shared it with the one lost.
      rcases hids.contexts_cases with hsub | ⟨sentinels, ctx, mode, wrapper, _, _, rfl⟩
      · obtain rfl := hapart.eq_of_get (hsub.subset he) hd hslot
        exact hgone he
      · exact hgone (List.mem_append_left _ hd)
  | pinned hsame =>
    rw [hsame.contexts] at hgone
    exact absurd hd hgone
  | released | refreshed | cleared => exact absurd hd hgone

/-! ## Histories -/

/-- Whether the next call of a history loses a context with a sentinel that is pinned for the log or
for the debug step. -/
def History.LosesPinned {config : Config} (h : History config φ) (n : Nat) : Prop :=
  Registry.LosesPinned (h.registry n) (h.registry (n + 1))

/-- **Every snapshot root has an id exactly as long as no pinned sentinel is lost.**  After each of
the first calls of a history, all objects that are pinned in one way or another have ids and are
listed with them, exactly if none of these calls has retired or cleared a context while one of its
sentinels was pinned for the log or for the debug step. -/
theorem rootsNamed_iff {config : Config} (h : History config φ) (n : Nat) :
    (∀ k ≤ n, RootsNamed (h.registry k)) ↔ ∀ k < n, ¬ h.LosesPinned k := by
  constructor
  · intro hnamed k hk hloss
    have hlater := (rootsNamed_iff_named (h.reachable (k + 1))).1 (hnamed (k + 1) hk)
    rcases h.pinStep k with ⟨_, he⟩ | ⟨c, _, hstep⟩
    · obtain ⟨d, hd, hgone, _⟩ := hloss
      rw [he] at hgone
      exact hgone hd
    · obtain ⟨obj, hp, hnot⟩ := hstep.exists_unnamed (h.idStep k) (h.idsInOrder k)
        (h.reachable k).sentinelsApart hloss
      exact hnot (hlater obj hp)
  · intro hkeeps k hk
    refine (rootsNamed_iff_named (h.reachable k)).2 ?_
    show ∀ obj, (h.registry k).Pinned obj → (h.registry k).Named obj
    induction k with
    | zero =>
      obtain ⟨_, hstart⟩ := create_eq_ok_iff.1 h.created
      intro obj hp
      rw [h.registry_zero, hstart] at hp
      exact absurd hp (not_or.2 ⟨Bool.false_ne_true, Bool.false_ne_true⟩)
    | succ k ih =>
      have hn := ih (Nat.le_of_succ_le hk)
      rcases h.pinStep k with ⟨_, he⟩ | ⟨c, _, hstep⟩
      · rw [he]
        exact hn
      · exact hstep.named hn (hkeeps k hk)

/-- The global object of a context is pinned for the log and the context is retired: the object is a
snapshot root still, and has no id. -/
theorem unnamed_root_after_retirement :
    ∃ h : History {} Unit, (h.registry 2).idOf ⟨0⟩ = .ok (.sentinel ⟨0⟩ .globalObject) ∧
      (h.registry 3).snapshotRoots = [⟨0⟩] ∧ (h.registry 3).rootIds.get? ⟨0⟩ = none ∧
      ∀ id, (h.registry 3).idOf ⟨0⟩ ≠ .ok id := by
  let wrap : WrapContext Unit := fun ctx _ => pure ⟨ctx.index.toUInt64⟩
  let h : History {} Unit := ⟨_, (rfl : create {} = .ok _), (),
    [.registerContext wrap .record ⟨⟨0⟩, ⟨1⟩, ⟨2⟩, ⟨3⟩, ⟨4⟩⟩, .addRoot ⟨0⟩, .destroyInRecord ⟨0⟩]⟩
  exact ⟨h, rfl, by decide, by decide, fun id hid => by cases hid⟩

end Registry

end Retrace
