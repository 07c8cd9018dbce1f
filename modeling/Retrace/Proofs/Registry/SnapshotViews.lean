/-
# What a snapshot shows

The views that a snapshot is written from are put together from several parts of the registry.

| view | put together from |
| --- | --- |
| `snapshotRoots` | the three sets of pins, which may overlap |
| `rootIds` | the objects by ordinary id, read backwards, and the pinned sentinels |

The roots come in strictly ascending order, as the three sets list them in ascending order: merged,
the lists put equal objects side by side (`snapshotRoots_eq_destutter`).  The ids come from other
parts than those that `idOf` reads; that both say the same (`viewsAgree`) takes that the two id maps
are inverse and that no sentinel of a tracked context has an ordinary id.

These are the views that the snapshot writer reads (specification, sections 4.1 and 6).
-/

import Mathlib.Data.List.Destutter
import Retrace.Proofs.Registry.NamedRoots

namespace Retrace

/-! ## Lists in ascending order -/

section Ascending

variable {α : Type} [Numbered α]

/-- Two lists in ascending order, merged into one; of equal items those of the first come first, and
none is dropped. -/
def mergeAscending (l m : List α) : List α := l.merge m fun a b => number a ≤ number b

theorem mem_mergeAscending_iff {l m : List α} {a : α} : a ∈ mergeAscending l m ↔ a ∈ l ∨ a ∈ m :=
  List.mem_merge

theorem pairwise_mergeAscending {l m : List α} (hl : l.Pairwise fun a b => number a ≤ number b)
    (hm : m.Pairwise fun a b => number a ≤ number b) :
    (mergeAscending l m).Pairwise fun a b => number a ≤ number b := by
  have hmerged : (mergeAscending l m).Pairwise fun a b => decide (number a ≤ number b) = true :=
    List.pairwise_merge (fun a b c hab hbc => by simp only [decide_eq_true_eq] at *; omega)
      (fun a b => by simp only [Bool.or_eq_true, decide_eq_true_eq]; omega) l m
      (hl.imp fun h => decide_eq_true h) (hm.imp fun h => decide_eq_true h)
  exact hmerged.imp fun h => of_decide_eq_true h

/-- An ascending list from which items equal to the one before them are left out has no item
twice. -/
theorem destutter_eq_dedup_of_ascending [DecidableEq α] {l : List α}
    (h : l.Pairwise fun a b => number a ≤ number b) : l.destutter (· ≠ ·) = l.dedup := by
  have : Std.Antisymm fun a b : α => number a ≤ number b :=
    ⟨fun _ _ hab hba => Numbered.number_injective (Nat.le_antisymm hab hba)⟩
  exact h.destutter_eq_dedup

/-- Then it ascends strictly. -/
theorem pairwise_destutter_of_ascending [DecidableEq α] {l : List α}
    (h : l.Pairwise fun a b => number a ≤ number b) :
    (l.destutter (· ≠ ·)).Pairwise fun a b => number a < number b := by
  rw [destutter_eq_dedup_of_ascending h]
  refine ((h.sublist (List.dedup_sublist l)).and (List.nodup_dedup l)).imp fun ⟨hle, hne⟩ => ?_
  exact Nat.lt_of_le_of_ne hle fun he => hne (Numbered.number_injective he)

theorem PinSet.pairwise_handles (s : PinSet α) :
    s.handles.Pairwise fun a b => number a ≤ number b :=
  s.counts.pairwise_keys.imp Nat.le_of_lt

end Ascending

namespace Registry

/-! ## The roots -/

theorem pairwise_snapshotRoots (r : Registry) :
    r.snapshotRoots.Pairwise fun a b => number a < number b :=
  OrderedMap.pairwise_keys _

/-- **The roots are the three sets of pins merged**, without repetitions, in ascending order. -/
theorem snapshotRoots_eq_destutter (r : Registry) : r.snapshotRoots =
    (mergeAscending (mergeAscending r.roots.handles r.localRoots.handles)
      r.specialRoots.handles).destutter (· ≠ ·) := by
  have hmerged := pairwise_mergeAscending
    (pairwise_mergeAscending r.roots.pairwise_handles r.localRoots.pairwise_handles)
    r.specialRoots.pairwise_handles
  refine eq_of_pairwise_of_mem_iff (R := fun a b => number a < number b) (fun _ => Nat.lt_irrefl _)
    Nat.lt_trans r.pairwise_snapshotRoots (pairwise_destutter_of_ascending hmerged) fun obj => ?_
  rw [destutter_eq_dedup_of_ascending hmerged, List.mem_dedup, mem_snapshotRoots_iff]
  simp only [mem_mergeAscending_iff, PinSet.mem_handles_iff, Pinned]

/-! ## The ids -/

/-- Whether an object carries an ordinary id. -/
def HasOrdinaryId (r : Registry) (obj : ObjectHandle) : Prop :=
  ∃ id, r.idOf obj = .ok id ∧ id.isSentinel = false

theorem hasOrdinaryId_iff {r : Registry} (hi : IdsInOrder r) (obj : ObjectHandle) :
    r.HasOrdinaryId obj ↔ r.idOfObject.contains obj = true := by
  rw [OrderedMap.contains, Option.isSome_iff_exists]
  constructor
  · rintro ⟨id, hid, hordinary⟩
    rcases (idOf_eq_ok_iff r).1 hid with hget | ⟨_, hs⟩
    · exact ⟨id, hget⟩
    · rw [isSentinel_of_sentinelIdOf? hs] at hordinary
      cases hordinary
  · rintro ⟨id, hget⟩
    exact ⟨id, (idOf_eq_ok_iff r).2 (.inl hget), hi.ordinary id obj ((hi.inverse id obj).2 hget)⟩

/-- What a snapshot is written from, told by what is pinned and by what `idOf` answers. -/
structure ViewsAgree (r : Registry) : Prop where
  /-- The roots come in strictly ascending order. -/
  ascending : r.snapshotRoots.Pairwise fun a b => a.index < b.index
  /-- They are the objects pinned for the log, for the debug step, or by slot. -/
  roots : ∀ obj, obj ∈ r.snapshotRoots ↔ r.roots.contains obj = true ∨
    r.localRoots.contains obj = true ∨ r.specialRoots.contains obj = true
  /-- They are the three sets of pins merged, without items equal to the one before them. -/
  merged : r.snapshotRoots =
    (mergeAscending (mergeAscending r.roots.handles r.localRoots.handles)
      r.specialRoots.handles).destutter (· ≠ ·)
  /-- Listed with an id are the objects that carry an ordinary one, and the pinned objects that are
  sentinels of a tracked context. -/
  listed : ∀ obj, obj ∈ r.rootIds.keys ↔ r.HasOrdinaryId obj ∨
    obj ∈ r.snapshotRoots ∧ ∃ c ∈ r.contexts, ∃ slot, c.sentinels.get slot = obj
  /-- Each is listed with the id that it has. -/
  ids : ∀ obj ∈ r.rootIds.keys, ∃ id, r.rootIds.get? obj = some id ∧ r.idOf obj = .ok id

/-- **The views of a snapshot agree with look-ups**, in every reachable registry. -/
theorem viewsAgree {φ : Type} {config : Config} {t : Registry × φ} (h : Reachable config t) :
    ViewsAgree t.1 where
  ascending := t.1.pairwise_snapshotRoots.imp UInt32.lt_iff_toNat_lt.2
  roots obj := (mem_snapshotRoots_iff t.1 obj).trans or_assoc
  merged := t.1.snapshotRoots_eq_destutter
  listed obj := by
    rw [OrderedMap.mem_keys_iff, contains_rootIds_iff h.idsInOrder, hasOrdinaryId_iff h.idsInOrder,
      isSpecialRoot_iff]
  ids obj hobj := by
    have hlisted := (OrderedMap.mem_keys_iff _).1 hobj
    have hnamed : t.1.Named obj :=
      (named_iff _ obj).2 (((contains_rootIds_iff h.idsInOrder obj).1 hlisted).imp_right And.right)
    obtain ⟨id, hid⟩ := hnamed
    exact ⟨id, get?_rootIds h.idsInOrder hlisted hid, hid⟩

/-- The sets of pins overlap, a sentinel is pinned in two of them and another one in none, and an
object that is pinned no longer keeps its ordinary id until the next refresh. -/
theorem viewsAgree_of_overlapping_pins :
    ∃ t : Registry × Unit, Reachable {} t ∧ ViewsAgree t.1 ∧
      t.1.roots.handles = [⟨1⟩, ⟨7⟩] ∧ t.1.localRoots.handles = [⟨6⟩, ⟨7⟩] ∧
      t.1.specialRoots.handles = [⟨1⟩, ⟨4⟩] ∧
      t.1.snapshotRoots = [⟨1⟩, ⟨4⟩, ⟨6⟩, ⟨7⟩] ∧
      t.1.rootIds.entries = [(⟨1⟩, .sentinel ⟨0⟩ .undefinedValue), (⟨4⟩, .sentinel ⟨0⟩ .falseValue),
        (⟨6⟩, ⟨2⟩), (⟨7⟩, ⟨1⟩), (⟨9⟩, ⟨3⟩)] := by
  let wrap : WrapContext Unit := fun ctx _ => pure ⟨ctx.index.toUInt64⟩
  have hcreated : Reachable (φ := Unit) {} _ := .created () (rfl : create {} = .ok _)
  have h : Reachable {} _ := ((((((((hcreated.called
    (.registerContext wrap .record ⟨⟨0⟩, ⟨1⟩, ⟨2⟩, ⟨3⟩, ⟨4⟩⟩)).called (.addRoot ⟨7⟩)).called
    (.addLocalRoot ⟨6⟩)).called (.addLocalRoot ⟨7⟩)).called (.addRoot ⟨9⟩)).called
    (.removeRoot ⟨9⟩)).called (.addRoot ⟨1⟩)).called (.addSpecialRoot ⟨0⟩ .undefinedValue)).called
    (.addSpecialRoot ⟨0⟩ .falseValue)
  exact ⟨_, h, viewsAgree h, by decide, by decide, by decide, by decide, by decide⟩

end Registry

end Retrace
