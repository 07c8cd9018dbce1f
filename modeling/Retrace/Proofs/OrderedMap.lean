/-
# Look-ups in maps and pin sets

The laws of `OrderedMap.get?` and of pin sets with keys compared as they are, not by number.  Two
maps with the same keys list them alike (`keys_eq_of_contains`), whatever their values are.

| call | what the pin set holds afterwards |
| --- | --- |
| `pin h` | `h`, and all that it held |
| `unpin h` | all that it held, but perhaps `h` |
| `release` of a list | what it held and the list has not, as often as before |

Orders that do not depend on history are what the specification asks for (section 1), and
`keys_eq_of_contains` is where they come from.
-/

import Retrace.PinSet

namespace Retrace

theorem number_inj {α : Type} [Numbered α] {a b : α} : number a = number b ↔ a = b :=
  ⟨Numbered.number_injective, fun h => h ▸ rfl⟩

namespace OrderedMap

variable {κ ν μ : Type} [Numbered κ]

theorem get?_insert_self (m : OrderedMap κ ν) (k : κ) (v : ν) : (m.insert k v).get? k = some v := by
  rw [get?_insert, if_pos rfl]

theorem get?_insert_of_ne (m : OrderedMap κ ν) {k q : κ} (v : ν) (h : k ≠ q) :
    (m.insert k v).get? q = m.get? q := by
  rw [get?_insert, if_neg fun e => h (number_inj.1 e)]

/-- Setting one key: the entry set, and the others as before.  Every question about what is in a map
after a change comes down to this. -/
theorem get?_insert_eq_some_iff (m : OrderedMap κ ν) {k q : κ} {v x : ν} :
    (m.insert k v).get? q = some x ↔ k = q ∧ v = x ∨ k ≠ q ∧ m.get? q = some x := by
  by_cases h : k = q
  · subst h
    simp [get?_insert_self]
  · simp [get?_insert_of_ne m v h, h]

/-- Setting a key to the value that it has changes nothing. -/
theorem insert_of_get? {m : OrderedMap κ ν} {k : κ} {v : ν} (h : m.get? k = some v) :
    m.insert k v = m := by
  refine ext_get? fun q => ?_
  by_cases e : k = q
  · subst e
    rw [get?_insert_self, h]
  · rw [get?_insert_of_ne m v e]

theorem get?_filter_eq_some_iff (m : OrderedMap κ ν) {p : κ × ν → Bool} {q : κ} {x : ν} :
    (m.filter p).get? q = some x ↔ m.get? q = some x ∧ p (q, x) = true := by
  rw [get?_filter, Option.filter_eq_some_iff]

theorem get?_erase_self (m : OrderedMap κ ν) (k : κ) : (m.erase k).get? k = none := by
  rw [get?_erase, if_pos rfl]

theorem get?_erase_of_ne (m : OrderedMap κ ν) {k q : κ} (h : k ≠ q) :
    (m.erase k).get? q = m.get? q := by
  rw [get?_erase, if_neg fun e => h (number_inj.1 e)]

theorem contains_of_get? {m : OrderedMap κ ν} {k : κ} {v : ν} (h : m.get? k = some v) :
    m.contains k = true := by
  rw [contains, h, Option.isSome_some]

theorem get?_eq_none_iff (m : OrderedMap κ ν) {k : κ} : m.get? k = none ↔ m.contains k = false := by
  rw [contains, Option.isSome_eq_false_iff, Option.isNone_iff_eq_none]

/-- Without a value for a key there is nothing to take out. -/
theorem erase_of_not_contains {m : OrderedMap κ ν} {k : κ} (h : m.contains k = false) :
    m.erase k = m := by
  refine ext_get? fun q => ?_
  by_cases e : k = q
  · subst e
    rw [get?_erase_self, m.get?_eq_none_iff.2 h]
  · rw [get?_erase_of_ne m e]

theorem contains_insert_iff (m : OrderedMap κ ν) (k q : κ) (v : ν) :
    (m.insert k v).contains q = true ↔ k = q ∨ m.contains q = true := by
  rw [contains_insert, Bool.or_eq_true, decide_eq_true_eq, number_inj]

theorem contains_erase_iff (m : OrderedMap κ ν) (k q : κ) :
    (m.erase k).contains q = true ↔ k ≠ q ∧ m.contains q = true := by
  unfold contains
  by_cases h : k = q
  · subst h
    simp [get?_erase_self]
  · simp [get?_erase_of_ne m h, h]

/-- Adding entries adds their keys. -/
theorem contains_insertAll_iff (m : OrderedMap κ ν) (entries : List (κ × ν)) (q : κ) :
    (m.insertAll entries).contains q = true ↔ q ∈ entries.map (·.1) ∨ m.contains q = true := by
  unfold insertAll
  induction entries generalizing m with
  | nil => simp
  | cons e rest ih =>
    rw [List.foldl_cons, ih, contains_insert_iff, List.map_cons, List.mem_cons, @eq_comm _ q,
      or_assoc]
    exact or_left_comm

/-- Where all entries added for a key agree on its value, it has that value. -/
theorem get?_insertAll_of_forall {m : OrderedMap κ ν} {entries : List (κ × ν)} {k : κ} {v : ν}
    (hall : ∀ e ∈ entries, e.1 = k → e.2 = v)
    (h : k ∈ entries.map (·.1) ∨ m.get? k = some v) : (m.insertAll entries).get? k = some v := by
  unfold insertAll
  induction entries generalizing m with
  | nil => simpa using h
  | cons e rest ih =>
    rw [List.foldl_cons]
    refine ih (fun x hx => hall x (List.mem_cons_of_mem e hx)) ?_
    by_cases hk : e.1 = k
    · rw [← hall e List.mem_cons_self hk, hk]
      exact .inr (get?_insert_self _ _ _)
    · rw [get?_insert_of_ne _ _ hk]
      refine h.imp_left fun hm => ?_
      rw [List.map_cons, List.mem_cons] at hm
      exact hm.resolve_left fun he => hk he.symm

/-- Adding entries leaves every key alone that is none of theirs. -/
theorem get?_insertAll_of_notMem {m : OrderedMap κ ν} {entries : List (κ × ν)} {k : κ}
    (h : k ∉ entries.map (·.1)) : (m.insertAll entries).get? k = m.get? k := by
  unfold insertAll
  induction entries generalizing m with
  | nil => rfl
  | cons e rest ih =>
    rw [List.map_cons, List.mem_cons, not_or] at h
    rw [List.foldl_cons, ih h.2, get?_insert_of_ne m e.2 (Ne.symm h.1)]

/-- Adding what a map lists: its values are set, and other keys are left alone. -/
theorem get?_insertAll_entries (m : OrderedMap κ ν) (added : OrderedMap κ μ) (f : μ → ν) (k : κ) :
    (m.insertAll (added.entries.map fun e => (e.1, f e.2))).get? k =
      ((added.get? k).map f).or (m.get? k) := by
  have hkeys : k ∈ (added.entries.map fun e => (e.1, f e.2)).map (·.1) ↔
      added.contains k = true := by
    rw [List.map_map, ← mem_keys_iff]
    rfl
  cases hk : added.get? k with
  | none =>
    refine get?_insertAll_of_notMem fun hm => ?_
    rw [hkeys, contains, hk] at hm
    cases hm
  | some v =>
    refine get?_insertAll_of_forall (fun e he hek => ?_) (.inl (hkeys.2 (contains_of_get? hk)))
    obtain ⟨⟨q, x⟩, hq, rfl⟩ := List.mem_map.1 he
    obtain rfl : q = k := hek
    have hx := (get?_eq_some_iff_mem added).2 hq
    rw [hk] at hx
    rw [Option.some.inj hx]

theorem perm_place {k : κ} {v : ν} {l : List (κ × ν)} (h : find k l = none) :
    (place k v l).Perm ((k, v) :: l) := by
  induction l with
  | nil => exact .refl _
  | cons e rest ih =>
    rw [find] at h
    split at h
    · cases h
    · rename_i hne
      unfold place
      split
      · exact .refl _
      · rw [if_neg fun he => hne he.symm]
        exact ((ih h).cons e).trans (.swap _ _ _)

/-- Setting a key that has no value adds the value to those that are there. -/
theorem perm_values_insert {m : OrderedMap κ ν} {k : κ} (h : m.contains k = false) (v : ν) :
    (m.insert k v).values.Perm (v :: m.values) := by
  rw [← m.get?_eq_none_iff] at h
  exact (perm_place h).map (·.2)

/-- Setting a key that has no value makes the map larger by one. -/
theorem size_insert {m : OrderedMap κ ν} {k : κ} (h : m.contains k = false) (v : ν) :
    (m.insert k v).size = m.size + 1 := by
  simpa [values, size] using (perm_values_insert h v).length_eq

/-- The keys are listed in strictly ascending order of their numbers, whenever they were entered. -/
theorem pairwise_keys (m : OrderedMap κ ν) : m.keys.Pairwise fun a b => number a < number b :=
  List.pairwise_map.2 m.ascending

/-- Maps with the same keys list them alike, whatever values they have and however they came to have
them. -/
theorem keys_eq_of_contains {m : OrderedMap κ ν} {m' : OrderedMap κ μ}
    (h : ∀ k, m'.contains k = m.contains k) : m'.keys = m.keys := by
  have asc : ∀ {ξ : Type} (l : OrderedMap κ ξ),
      (l.keys.map fun k => (k, ())).Pairwise fun a b => number a.1 < number b.1 :=
    fun l => List.pairwise_map.2 l.pairwise_keys
  have hm : ∀ x : κ × Unit, x ∈ m'.keys.map (fun k => (k, ())) ↔ x ∈ m.keys.map fun k => (k, ()) := by
    rintro ⟨k, u⟩
    simp [mem_keys_iff, h]
  have heq := congrArg (List.map Prod.fst) (eq_of_mem_iff (asc m') (asc m) hm)
  simpa [List.map_map, Function.comp_def] using heq

theorem size_eq_of_contains {m : OrderedMap κ ν} {m' : OrderedMap κ μ}
    (h : ∀ k, m'.contains k = m.contains k) : m'.size = m.size := by
  have hl := congrArg List.length (keys_eq_of_contains h)
  simpa [keys, size] using hl

end OrderedMap

namespace PinSet

variable {α : Type} [Numbered α]

theorem contains_pin (s : PinSet α) (h q : α) :
    (s.pin h).2.contains q = true ↔ h = q ∨ s.contains q = true :=
  OrderedMap.contains_insert_iff s.counts h q _

theorem contains_of_unpin {s : PinSet α} {h q : α} (hq : (s.unpin h).2.contains q = true) :
    s.contains q = true := by
  unfold unpin at hq
  cases hc : s.counts.get? h with
  | none =>
    rw [hc] at hq
    exact hq
  | some n =>
    rw [hc] at hq
    dsimp only [contains] at hq
    split at hq
    · exact ((OrderedMap.contains_erase_iff _ _ _).1 hq).2
    · rcases (OrderedMap.contains_insert_iff _ _ _ _).1 hq with rfl | hq
      · exact OrderedMap.contains_of_get? hc
      · exact hq

theorem contains_unpin_of_ne (s : PinSet α) {h q : α} (hne : h ≠ q) (hq : s.contains q = true) :
    (s.unpin h).2.contains q = true := by
  unfold unpin
  cases s.counts.get? h with
  | none => exact hq
  | some n =>
    dsimp only [contains]
    split
    · exact (OrderedMap.contains_erase_iff _ _ _).2 ⟨hne, hq⟩
    · exact (OrderedMap.contains_insert_iff _ _ _ _).2 (.inr hq)

theorem contains_releaseAll (s : PinSet α) (handles : List α) (q : α) :
    (handles.foldl (fun pins h => (pins.release h).2) s).contains q = true ↔
      s.contains q = true ∧ q ∉ handles := by
  induction handles generalizing s with
  | nil => simp
  | cons h rest ih =>
    have herase : (s.release h).2.contains q = true ↔ h ≠ q ∧ s.contains q = true :=
      OrderedMap.contains_erase_iff s.counts h q
    rw [List.foldl_cons, ih, herase, List.mem_cons, not_or, ne_comm]
    exact ⟨fun h => ⟨h.1.2, h.1.1, h.2⟩, fun h => ⟨⟨h.2.1, h.1⟩, h.2.2⟩⟩

theorem count_release_self (s : PinSet α) (h : α) : (s.release h).2.count h = 0 := by
  rw [release, count, OrderedMap.get?_erase_self, Option.getD_none]

theorem count_release_of_ne (s : PinSet α) {h q : α} (hne : h ≠ q) :
    (s.release h).2.count q = s.count q := by
  rw [release, count, OrderedMap.get?_erase_of_ne _ hne, count]

/-- A handle that is not released keeps its count. -/
theorem count_releaseAll_of_notMem (s : PinSet α) {handles : List α} {q : α} (hq : q ∉ handles) :
    (handles.foldl (fun pins h => (pins.release h).2) s).count q = s.count q := by
  induction handles generalizing s with
  | nil => rfl
  | cons h rest ih =>
    rw [List.mem_cons, not_or] at hq
    rw [List.foldl_cons, ih _ hq.2, count_release_of_ne s (Ne.symm hq.1)]

/-- A handle that is released counts nothing, whatever else is released. -/
theorem count_releaseAll_of_mem (s : PinSet α) {handles : List α} {q : α} (hq : q ∈ handles) :
    (handles.foldl (fun pins h => (pins.release h).2) s).count q = 0 := by
  induction handles generalizing s with
  | nil => exact absurd hq List.not_mem_nil
  | cons h rest ih =>
    rw [List.foldl_cons]
    by_cases hr : q ∈ rest
    · exact ih _ hr
    · obtain rfl := (List.mem_cons.1 hq).resolve_right hr
      rw [count_releaseAll_of_notMem _ hr, count_release_self]

end PinSet

end Retrace
