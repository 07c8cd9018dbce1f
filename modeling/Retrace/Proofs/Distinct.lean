/-
# Lists without repetition

Where no two items of a list have the same key, a key finds its item, and the item erased by its key
is the only one of that key; where a list is strictly in order, its members determine it.
-/

namespace Retrace

/-- In a list without two items of one key, an item is the one found by its key. -/
theorem find?_eq_some_of_nodup {α κ : Type} [DecidableEq κ] {key : α → κ} {l : List α}
    (h : (l.map key).Nodup) {a : α} (ha : a ∈ l) : (l.find? fun x => key x = key a) = some a := by
  induction l with
  | nil => exact absurd ha List.not_mem_nil
  | cons b rest ih =>
    rw [List.map_cons, List.nodup_cons] at h
    rcases List.mem_cons.1 ha with rfl | ha
    · exact List.find?_cons_of_pos (decide_eq_true rfl)
    · have hne : key b ≠ key a := fun he => h.1 (List.mem_map.2 ⟨a, ha, he.symm⟩)
      rw [List.find?_cons_of_neg (by simpa using hne)]
      exact ih h.2 ha

/-- In a list without two items of one key, erasing by a key leaves the items of other keys. -/
theorem eraseP_eq_filter_of_nodup {α κ : Type} [DecidableEq κ] {key : α → κ} {l : List α}
    (h : (l.map key).Nodup) (k : κ) :
    (l.eraseP fun x => key x = k) = l.filter fun x => key x ≠ k := by
  induction l with
  | nil => rfl
  | cons b rest ih =>
    rw [List.map_cons, List.nodup_cons] at h
    by_cases hb : key b = k
    · -- The key is gone with the first item, so the rest is left as it is.
      have hall : ∀ x ∈ rest, key x ≠ k := fun x hx he =>
        h.1 (List.mem_map.2 ⟨x, hx, he.trans hb.symm⟩)
      rw [List.eraseP_cons_of_pos (by simpa using hb), List.filter_cons_of_neg (by simpa using hb)]
      exact (List.filter_eq_self.2 fun x hx => by simpa using hall x hx).symm
    · rw [List.eraseP_cons_of_neg (by simpa using hb), List.filter_cons_of_pos (by simpa using hb),
        ih h.2]

/-- In a list without two items of one key, none of that key is left once it is erased. -/
theorem key_ne_of_mem_eraseP {α κ : Type} [DecidableEq κ] {key : α → κ} {l : List α}
    (h : (l.map key).Nodup) {k : κ} {a : α} (ha : a ∈ l.eraseP fun x => key x = k) :
    key a ≠ k := by
  rw [eraseP_eq_filter_of_nodup h] at ha
  simpa using (List.mem_filter.1 ha).2

/-- In a list without two items of one key, the key determines the item. -/
theorem eq_of_nodup_map {α κ : Type} {key : α → κ} {l : List α} (h : (l.map key).Nodup) {a b : α}
    (ha : a ∈ l) (hb : b ∈ l) (hk : key a = key b) : a = b := by
  classical
  have ha' := find?_eq_some_of_nodup h ha
  have hb' := find?_eq_some_of_nodup h hb
  rw [hk] at ha'
  exact Option.some.inj (ha'.symm.trans hb')

/-- Erasing the item that a search finds keeps all others. -/
theorem mem_eraseP_of_find? {α : Type} {p : α → Bool} {l : List α} {a b : α}
    (ha : l.find? p = some a) (hb : b ∈ l) (hne : b ≠ a) : b ∈ l.eraseP p := by
  induction l with
  | nil => exact absurd hb List.not_mem_nil
  | cons c rest ih =>
    by_cases hc : p c = true
    · rw [List.find?_cons_of_pos hc] at ha
      rw [List.eraseP_cons_of_pos hc]
      exact (List.mem_cons.1 hb).resolve_left fun he => hne (he.trans (Option.some.inj ha))
    · rw [List.find?_cons_of_neg hc] at ha
      rw [List.eraseP_cons_of_neg hc]
      rcases List.mem_cons.1 hb with rfl | hb
      · exact List.mem_cons_self
      · exact List.mem_cons_of_mem c (ih ha hb)

/-- Two lists with the same members, both strictly in one order, are equal. -/
theorem eq_of_pairwise_of_mem_iff {α : Type} {R : α → α → Prop} (irrefl : ∀ a, ¬ R a a)
    (trans : ∀ {a b c}, R a b → R b c → R a c) {l m : List α} (hl : l.Pairwise R)
    (hm : m.Pairwise R) (h : ∀ a, a ∈ l ↔ a ∈ m) : l = m := by
  have nodup : ∀ {k : List α}, k.Pairwise R → k.Nodup := by
    intro k hk
    refine hk.imp ?_
    rintro a b hab rfl
    exact irrefl a hab
  refine List.Perm.eq_of_pairwise (fun a b _ _ hab hba => ?_) hl hm
    ((List.perm_ext_iff_of_nodup (nodup hl) (nodup hm)).2 h)
  exact absurd (trans hab hba) (irrefl a)

end Retrace
