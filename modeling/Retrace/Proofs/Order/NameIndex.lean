/-
# Search in a name index

An index that has been built holds its items in the order of their names, so that halving finds the
first position of every name that is there (`position?_eq_some_iff`).

| position of a name | |
| --- | --- |
| `lowerBound` | every name before it is below the key, and it is the last one or not below |
| `position?` | the first position with the name, or nothing if no item has it |
| `required` | the same, where absence is a violation |

Positions depend on the names alone (`required_build_congr`).

This is what *name-sort-and-search* answers in either mode (specification, section 4.3).
-/

import Retrace.Order.NameIndex
import Retrace.Proofs.Order.ShellSort

namespace Retrace

namespace NameIndex

variable {α : Type} {name : α → String}

/-- The names ascend, where equal ones may stand side by side. -/
def Ordered (x : NameIndex α name) : Prop :=
  ∀ i j, ∀ (hij : i < j) (hj : j < x.items.size), (compare (name x.items[i]) (name x.items[j])).isLE

theorem perm_build (items : List α) : (build name items).toList.Perm items := by
  rw [build, toList, List.toList_toArray]
  exact perm_shellSort _ items

theorem size_build (items : List α) : (build name items).size = items.length := by
  have h : (build name items).toList.Perm items := perm_build items
  rw [← h.length_eq, toList, Array.length_toList, size]

instance transCmp_name : Std.TransCmp fun a b : α => compare (name a) (name b) where
  eq_swap {a b} := Std.OrientedOrd.eq_swap (a := name a) (b := name b)
  isLE_trans {a b c} := Std.TransOrd.isLE_trans (a := name a) (b := name b) (c := name c)

theorem ordered_build (items : List α) : (build name items).Ordered := by
  intro i j hij hj
  have h := pairwise_shellSort (fun a b : α => compare (name a) (name b)) items
  rw [List.pairwise_iff_getElem] at h
  have hj' : j < (shellSort (fun a b : α => compare (name a) (name b)) items).length := by
    simpa [build] using hj
  simpa [build] using h i j (by omega) hj' hij

/-! ## Halving -/

/-- **Every name before the lower bound is below the key**, and the name at it is not, unless it is
the last position searched. -/
theorem lowerBound_spec {x : NameIndex α name} (hx : x.Ordered) (key : String) (lo hi : Nat)
    (hle : lo ≤ hi) (h : hi < x.items.size)
    (below : ∀ j, ∀ (hj : j < lo), compare (name x.items[j]) key = .lt)
    (above : hi + 1 = x.items.size ∨ compare (name x.items[hi]) key ≠ .lt)
    {b : Fin x.items.size} (hb : lowerBound x.items name key lo hi hle h = b) :
    (∀ j, ∀ (hj : j < b.val), compare (name x.items[j]) key = .lt) ∧
      (b.val + 1 = x.items.size ∨ compare (name x.items[b.val]) key ≠ .lt) := by
  induction hm : hi - lo using Nat.strongRecOn generalizing lo hi with
  | ind m ih =>
    unfold lowerBound at hb
    by_cases hlt : lo < hi
    · rw [dif_pos hlt] at hb
      by_cases hc : compare (name x.items[lo + (hi - lo) / 2]) key = .lt
      · rw [if_pos hc] at hb
        refine ih _ (by omega) _ hi (by omega) h (fun j hj => ?_) above hb rfl
        by_cases hj' : j = lo + (hi - lo) / 2
        · subst hj'
          exact hc
        · exact Std.TransCmp.lt_of_isLE_of_lt (hx j _ (by omega) (by omega)) hc
      · rw [if_neg hc] at hb
        exact ih _ (by omega) lo _ (by omega) (by omega) below (.inr hc) hb rfl
    · rw [dif_neg hlt] at hb
      subst hb
      obtain rfl : lo = hi := by omega
      exact ⟨below, above⟩

theorem position?_of_pos {x : NameIndex α name} (hs : 0 < x.items.size) (key : String) :
    ∃ b : Fin x.items.size,
      lowerBound x.items name key 0 (x.items.size - 1) (Nat.zero_le _)
          (Nat.sub_lt hs Nat.one_pos) = b ∧
        x.position? key = if name x.items[b] = key then some b.val else none :=
  ⟨_, rfl, dif_pos hs⟩

/-- **The first position of a name is found, and nothing if no item has the name.** -/
theorem position?_eq_some_iff {x : NameIndex α name} (hx : x.Ordered) {key : String} {p : Nat} :
    x.position? key = some p ↔
      ∃ hp : p < x.items.size, name x.items[p] = key ∧
        ∀ q, ∀ (hq : q < p), name x.items[q] ≠ key := by
  by_cases hs : 0 < x.items.size
  · obtain ⟨⟨b, hb⟩, hb', hpos⟩ := position?_of_pos hs key
    obtain ⟨hbelow, habove⟩ := lowerBound_spec hx key 0 (x.items.size - 1) (by omega) (by omega)
      (fun j hj => absurd hj (Nat.not_lt_zero j)) (.inl (by omega)) hb'
    dsimp only at hbelow habove hpos
    rw [hpos]
    have hne : ∀ q, ∀ (hq : q < b), name x.items[q] ≠ key := fun q hq he => by
      have hlt := hbelow q hq
      rw [he, Std.ReflOrd.compare_self] at hlt
      cases hlt
    -- A later position has the key only if the lower bound has it too.
    have hfirst : ∀ q, ∀ (hq : q < x.items.size), b < q → name x.items[q] = key →
        name x.items[b] = key := fun q hq hbq he => by
      have hle := hx b q hbq hq
      have hge := habove.resolve_left (by omega)
      rw [he] at hle
      refine Std.LawfulEqOrd.eq_of_compare ?_
      exact (Ordering.isLE_iff_eq_lt_or_eq_eq.1 hle).resolve_left hge
    split
    · rename_i hk
      constructor
      · intro h
        cases h
        exact ⟨hb, hk, hne⟩
      · rintro ⟨hp, hpk, hpf⟩
        have hbp : ¬ b < p := fun hlt => hpf b hlt hk
        have hpb : ¬ p < b := fun hlt => hne p hlt hpk
        exact congrArg some (by omega)
    · rename_i hk
      constructor
      · intro h
        cases h
      · rintro ⟨hp, hpk, hpf⟩
        have hpb : ¬ p < b := fun hlt => hne p hlt hpk
        by_cases hbp : b < p
        · exact absurd (hfirst p hp hbp hpk) hk
        · obtain rfl : p = b := by omega
          exact absurd hpk hk
  · rw [position?, dif_neg hs]
    constructor
    · intro h
      cases h
    · rintro ⟨hp, _⟩
      omega

/-! ## Positions of names -/

/-- The names in index order, by which two indices are compared whose items are not of one type. -/
def names (x : NameIndex α name) : List String := x.toList.map name

theorem pairwise_names_build (items : List α) :
    (build name items).names.Pairwise fun a b => (compare a b).isLE := by
  rw [names, List.pairwise_map, build, toList, List.toList_toArray]
  exact pairwise_shellSort _ items

/-- Different names ascend strictly. -/
theorem pairwise_lt_names_build {items : List α} (hn : (items.map name).Nodup) :
    (build name items).names.Pairwise (· < ·) := by
  have hn' : (build name items).names.Nodup := ((perm_build items).map name).nodup_iff.2 hn
  refine ((pairwise_names_build items).and hn').imp fun {a b} h => ?_
  rcases Ordering.isLE_iff_eq_lt_or_eq_eq.1 h.1 with hlt | heq
  · exact compareOfLessAndEq_eq_lt.1 hlt
  · exact absurd (Std.LawfulEqOrd.eq_of_compare heq) h.2

/-- **Items without a name twice are sorted in one way**, in whatever order they come. -/
theorem build_eq_of_perm {items items' : List α} (hp : items.Perm items')
    (hn : (items.map name).Nodup) : build name items = build name items' := by
  have hlt : ∀ l : List α, (l.map name).Nodup →
      (build name l).toList.Pairwise fun a b => name a < name b := fun l hl =>
    List.pairwise_map.1 (pairwise_lt_names_build hl)
  have hperm : (build name items).toList.Perm (build name items').toList :=
    (perm_build items).trans (hp.trans (perm_build items').symm)
  have hlists : (build name items).toList = (build name items').toList :=
    List.Perm.eq_of_pairwise
      (fun a b _ _ hab hba => absurd (String.lt_trans hab hba) (String.lt_irrefl (name a)))
      (hlt _ hn) (hlt _ ((hp.map name).nodup_iff.1 hn)) hperm
  exact congrArg NameIndex.mk (Array.toList_inj.1 hlists)

/-- **Items with the same names, in whatever order, are indexed under the same list of names.** -/
theorem names_build_congr {β : Type} {name' : β → String} {items : List α} {items' : List β}
    (h : (items.map name).Perm (items'.map name')) :
    (build name items).names = (build name' items').names := by
  have hperm : (build name items).names.Perm (build name' items').names :=
    ((perm_build items).map name).trans (h.trans ((perm_build items').map name').symm)
  refine List.Perm.eq_of_pairwise (fun a b _ _ hab hba => ?_) (pairwise_names_build items)
    (pairwise_names_build items') hperm
  exact Std.LawfulEqOrd.eq_of_compare (Std.OrientedCmp.isLE_antisymm hab hba)

theorem getElem?_names (x : NameIndex α name) (p : Nat) :
    x.names[p]? = x.items[p]?.map name := by
  rw [names, List.getElem?_map, toList, Array.getElem?_toList]

theorem position?_eq_some_iff_names {x : NameIndex α name} (hx : x.Ordered) {key : String}
    {p : Nat} : x.position? key = some p ↔
      x.names[p]? = some key ∧ ∀ q, q < p → x.names[q]? ≠ some key := by
  rw [position?_eq_some_iff hx]
  simp only [getElem?_names, ne_eq, Option.map_eq_some_iff, Array.getElem?_eq_some_iff]
  constructor
  · rintro ⟨hp, hk, hf⟩
    refine ⟨⟨x.items[p], ⟨hp, rfl⟩, hk⟩, fun q hq => ?_⟩
    rintro ⟨a, ⟨_, rfl⟩, ha⟩
    exact hf q hq ha
  · rintro ⟨⟨a, ⟨hp, rfl⟩, hk⟩, hf⟩
    exact ⟨hp, hk, fun q hq he => hf q hq ⟨_, ⟨Nat.lt_trans hq hp, rfl⟩, he⟩⟩

/-- **Names have the same positions in indices of the same names**, whatever else the items are. -/
theorem required_build_congr {β : Type} {name' : β → String} {items : List α} {items' : List β}
    (h : (items.map name).Perm (items'.map name')) (key : String) :
    (build name items).required key = (build name' items').required key := by
  have hnames := names_build_congr h
  have hsize : (build name items).items.size = (build name' items').items.size := by
    simpa [names, toList] using congrArg List.length hnames
  have hposition : (build name items).position? key = (build name' items').position? key := by
    refine Option.ext fun p => ?_
    rw [position?_eq_some_iff_names (ordered_build items), hnames,
      position?_eq_some_iff_names (ordered_build items')]
  rw [required, required, hsize, hposition]

/-- Without repeated names, the position of a name is that of the item that has it, as the index
lists its items. -/
theorem position?_eq_some_iff_get? {x : NameIndex α name} (hx : x.Ordered) (hn : x.names.Nodup)
    {key : String} {p : Nat} : x.position? key = some p ↔ ∃ a, x.get? p = some a ∧ name a = key := by
  have hget : x.names[p]? = some key ↔ ∃ a, x.get? p = some a ∧ name a = key := by
    rw [getElem?_names, Option.map_eq_some_iff, get?]
  rw [position?_eq_some_iff_names hx, hget, and_iff_left_iff_imp, ← hget]
  intro hp q hq hk
  obtain ⟨hlt, _⟩ := List.getElem?_eq_some_iff.1 hk
  exact absurd ((List.getElem?_inj hlt hn).1 (hk.trans hp.symm)) (Nat.ne_of_lt hq)

theorem required_eq_ok_iff {x : NameIndex α name} {key : String} {p : Nat} :
    x.required key = .ok p ↔ x.position? key = some p := by
  unfold required
  split
  · rename_i h0
    rw [position?, dif_neg (by omega)]
    simp
  · cases x.position? key <;> simp

/-- **A name that is there is found**, so that the violation is only ever reported of one that is
not. -/
theorem required_build_of_mem {items : List α} {key : String} (h : key ∈ items.map name) :
    ∃ p, (build name items).required key = .ok p := by
  have hmem : key ∈ (build name items).names := ((perm_build items).map name).mem_iff.2 h
  have hlt := List.idxOf_lt_length_of_mem hmem
  have hsize : (build name items).items.size ≠ 0 := by
    intro h0
    rw [names, List.length_map, toList, Array.length_toList, h0] at hlt
    exact absurd hlt (Nat.not_lt_zero _)
  have hposition : (build name items).position? key = some ((build name items).names.idxOf key) := by
    refine (position?_eq_some_iff_names (ordered_build items)).2 ⟨?_, fun q hq => ?_⟩
    · rw [List.getElem?_eq_getElem hlt, List.getElem_idxOf]
    · rw [List.getElem?_eq_getElem (Nat.lt_trans hq hlt)]
      intro he
      have hne := List.not_of_lt_findIdx hq
      rw [Option.some.inj he, beq_self_eq_true] at hne
      cases hne
  exact ⟨_, by rw [required, if_neg hsize, hposition]⟩

end NameIndex

end Retrace
