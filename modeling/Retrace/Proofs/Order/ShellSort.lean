/-
# What the shell sort guarantees

The result is a permutation of the items whatever the comparator does (`perm_shellSort`), and is
ordered if the comparator is a total preorder (`pairwise_shellSort`).  Only the last pass, with a gap
of one, is needed for the order: it is an insertion sort of whatever the passes before it leave.  Where
no two items compare equal, the result does not depend on their first order either
(`shellSort_congr_perm`).

The gaps are fixed by the specification (section 4.3); nothing is used of them but that the last is
one.
-/

import Retrace.Order.ShellSort

namespace Retrace

namespace ShellSort

variable {α : Type} {n : Nat} {cmp : α → α → Ordering}

/-! ## Nothing is lost -/

theorem perm_sink (gap : Nat) (positive : 0 < gap) (p : Progress α n) (j : Nat) (hj : j < n) :
    (sink cmp gap positive p j hj).items.Perm p.items := by
  induction j using Nat.strongRecOn generalizing p with
  | ind j ih =>
    by_cases hgap : gap ≤ j
    · rw [sink, dif_pos hgap]
      split
      · exact (ih (j - gap) (by omega) _ (by omega)).trans (Vector.swap_perm (by omega) hj)
      · exact .refl _
    · rw [sink, dif_neg hgap]

theorem perm_passFrom (gap : Nat) (positive : 0 < gap) (p : Progress α n) (i : Nat) :
    (passFrom cmp gap positive p i).items.Perm p.items := by
  induction h : n - i generalizing p i with
  | zero =>
    rw [passFrom, dif_neg (by omega)]
  | succ k ih =>
    rw [passFrom, dif_pos (by omega)]
    exact (ih _ (i + 1) (by omega)).trans (perm_sink gap positive p i (by omega))

theorem perm_pass (p : Progress α n) (gap : Nat) : (pass cmp p gap).items.Perm p.items := by
  unfold pass
  split
  · rename_i positive
    exact perm_passFrom gap positive p gap
  · exact .refl _

theorem perm_run (items : Vector α n) : (run cmp items).items.Perm items := by
  have h : ∀ (l : List Nat) (p : Progress α n), (l.foldl (pass cmp) p).items.Perm p.items := by
    intro l
    induction l with
    | nil => exact fun p => .refl _
    | cons gap rest ih => exact fun p => (ih (pass cmp p gap)).trans (perm_pass p gap)
  exact h gaps ⟨items, 0⟩

/-! ## The last pass -/

/-- Up to a position, no item is greater than a later one, except perhaps than the one at `j`. -/
def OrderedBut (cmp : α → α → Ordering) (items : Vector α n) (i j : Nat) : Prop :=
  ∀ a b, ∀ (hab : a < b) (hb : b < n), b ≤ i → b ≠ j → (cmp items[a] items[b]).isLE

variable [Std.TransCmp cmp]

/-- After an exchange the greater item stands right, and the other one is still to be placed. -/
theorem OrderedBut.swap {items : Vector α n} {i j : Nat} (h : OrderedBut cmp items i (j + 1))
    (hj : j + 1 < n) (hji : j + 1 ≤ i) (hgt : cmp items[j] items[j + 1] = .gt) :
    OrderedBut cmp (items.swap j (j + 1)) i j := by
  intro a b hab hb hbi hbj
  have hlt : cmp items[j + 1] items[j] = .lt := Std.OrientedCmp.lt_of_gt hgt
  by_cases hb' : b = j + 1
  · subst hb'
    by_cases ha : a = j
    · subst ha
      simp [hlt]
    · have hab' := h a j (by omega) (by omega) (by omega) (by omega)
      rwa [Vector.getElem_swap_right, Vector.getElem_swap_of_ne ha (by omega)]
  · rw [Vector.getElem_swap_of_ne (k := b) hbj hb']
    by_cases ha : a = j
    · subst ha
      rw [Vector.getElem_swap_left]
      exact h (a + 1) b (by omega) hb hbi hb'
    · by_cases ha' : a = j + 1
      · subst ha'
        rw [Vector.getElem_swap_right]
        exact h j b (by omega) hb hbi hb'
      · rw [Vector.getElem_swap_of_ne ha ha']
        exact h a b hab hb hbi hb'

/-- An item that is not smaller than the one before it is in its place. -/
theorem OrderedBut.placed {items : Vector α n} {i j : Nat} (h : OrderedBut cmp items i (j + 1))
    (hj : j + 1 < n) (hle : (cmp items[j] items[j + 1]).isLE) (a b : Nat) (hab : a < b) (hb : b < n)
    (hbi : b ≤ i) : (cmp items[a] items[b]).isLE := by
  by_cases hb' : b = j + 1
  · subst hb'
    by_cases ha : a = j
    · subst ha
      exact hle
    · have haj := h a j (by omega) (by omega) (by omega) (by omega)
      exact Std.TransCmp.isLE_trans haj hle
  · exact h a b hab hb hbi hb'

/-- Sinking an item by steps of one puts it where it belongs among the ordered items before it. -/
theorem ordered_sink (p : Progress α n) (i j : Nat) (hj : j < n) (hji : j ≤ i)
    (h : OrderedBut cmp p.items i j) (a b : Nat) (hab : a < b) (hb : b < n) (hbi : b ≤ i) :
    (cmp (sink cmp 1 Nat.one_pos p j hj).items[a]
      (sink cmp 1 Nat.one_pos p j hj).items[b]).isLE := by
  induction j generalizing p with
  | zero =>
    rw [sink, dif_neg (by omega)]
    exact h a b hab hb hbi (by omega)
  | succ j ih =>
    rw [sink, dif_pos (by omega)]
    by_cases hgt : cmp p.items[j] p.items[j + 1] = .gt
    · simp only [Nat.add_sub_cancel, hgt, if_true]
      exact ih _ (by omega) (by omega) (h.swap hj hji hgt)
    · simp only [Nat.add_sub_cancel, hgt, if_false]
      exact h.placed hj (Ordering.isLE_iff_ne_gt.2 hgt) a b hab hb hbi

theorem ordered_passFrom (p : Progress α n) (i : Nat)
    (h : ∀ a b, ∀ (hab : a < b) (hb : b < n), b < i → (cmp p.items[a] p.items[b]).isLE) :
    ∀ a b, ∀ (hab : a < b) (hb : b < n),
      (cmp (passFrom cmp 1 Nat.one_pos p i).items[a]
        (passFrom cmp 1 Nat.one_pos p i).items[b]).isLE := by
  induction hk : n - i generalizing p i with
  | zero =>
    rw [passFrom, dif_neg (by omega)]
    exact fun a b hab hb => h a b hab hb (by omega)
  | succ k ih =>
    have hi : i < n := by omega
    rw [passFrom, dif_pos hi]
    refine ih _ (i + 1) (fun a b hab hb hbi => ?_) (by omega)
    refine ordered_sink p i i hi (Nat.le_refl i) (fun a b hab hb hbi hne => ?_) a b hab hb (by omega)
    exact h a b hab hb (by omega)

theorem ordered_run (items : Vector α n) (a b : Nat) (hab : a < b) (hb : b < n) :
    (cmp (run cmp items).items[a] (run cmp items).items[b]).isLE := by
  let p := [701, 301, 132, 57, 23, 10, 4].foldl (pass cmp) ⟨items, 0⟩
  have hrun : run cmp items = passFrom cmp 1 Nat.one_pos p 1 := rfl
  rw [hrun]
  exact ordered_passFrom p 1 (fun a b hab hb hb1 => by omega) a b hab hb

end ShellSort

variable {α : Type}

/-- **The shell sort loses and invents nothing**, whatever the comparator does, since all it does is
exchange items. -/
theorem perm_shellSort (cmp : α → α → Ordering) (items : List α) :
    (shellSort cmp items).Perm items := by
  have h : (ShellSort.run cmp items.toArray.toVector).items.Perm _ := ShellSort.perm_run _
  exact h.toList

/-- **The shell sort orders the items** if the comparator is a total preorder. -/
theorem pairwise_shellSort (cmp : α → α → Ordering) [Std.TransCmp cmp] (items : List α) :
    (shellSort cmp items).Pairwise fun a b => (cmp a b).isLE := by
  rw [List.pairwise_iff_getElem]
  intro a b ha hb hab
  have hb' : b < items.toArray.size := by simpa [shellSort] using hb
  have h : (cmp (ShellSort.run cmp items.toArray.toVector).items[a]
      (ShellSort.run cmp items.toArray.toVector).items[b]).isLE :=
    ShellSort.ordered_run _ a b hab hb'
  exact h

/-- **Where no two items compare equal, their first order does not matter.** -/
theorem shellSort_congr_perm (cmp : α → α → Ordering) [Std.TransCmp cmp] {items items' : List α}
    (hp : items.Perm items') (hne : ∀ a ∈ items, ∀ b ∈ items, cmp a b = .eq → a = b) :
    shellSort cmp items = shellSort cmp items' := by
  have hperm := (perm_shellSort cmp items).trans (hp.trans (perm_shellSort cmp items').symm)
  refine List.Perm.eq_of_pairwise ?_ (pairwise_shellSort cmp items) (pairwise_shellSort cmp items')
    hperm
  intro a b ha hb hab hba
  have ha' := (perm_shellSort cmp items).mem_iff.1 ha
  have hb' := hp.mem_iff.2 ((perm_shellSort cmp items').mem_iff.1 hb)
  exact hne a ha' b hb' (Std.OrientedCmp.isLE_antisymm hab hba)

end Retrace
