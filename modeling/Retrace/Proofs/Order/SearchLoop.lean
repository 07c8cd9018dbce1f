/-
# The loop of the binary search

`position?` keeps its positions in range by type, and comes to an end by the way it is written.  Here
the search runs one step at a time instead, over plain positions that nothing bounds:

| state | step |
| --- | --- |
| one position is left | it stands still |
| the item in the middle is below the key | what comes after it is left |
| it is not | the item itself is left, and what comes before it |

To read a position that is out of range yields nothing, and of no items there is no last position.
Yet no search goes out of range, however the items are ordered, and `n` steps find among `2 ^ n` items
what `position?` finds (`seek_spec`).  In an index that has been built this is the first position of
the name, and the three look-ups differ in nothing but in how they report a name that no item has
(`looksUpExactly`).

The two modes of the look-up, and what each reports, are those of *name-sort-and-search*
(specification, section 4.3).
-/

import Mathlib.Algebra.Group.Nat.Defs
import Retrace.Proofs.Order.NameIndex

namespace Retrace

namespace NameIndex

variable {α : Type} {name : α → String}

/-- A stretch of positions among which a search still looks, both ends included. -/
structure Stretch where
  /-- The first position. -/
  lo : Nat
  /-- The last position. -/
  hi : Nat

namespace Stretch

/-- All positions of so many items; of none there is no last position. -/
def all? : Nat → Option Stretch
  | 0 => none
  | last + 1 => some ⟨0, last⟩

/-- The position in the middle; of two it is the lower one, and the sum of both ends is never
formed. -/
def middle (s : Stretch) : Nat := s.lo + (s.hi - s.lo) / 2

/-- One step: the item in the middle is read, and one half is left; nothing if it reads a position
that is out of range. -/
def step (x : NameIndex α name) (key : String) (s : Stretch) : Option Stretch :=
  if s.lo < s.hi then do
    let a ← x.items[s.middle]?
    return if compare (name a) key = .lt then ⟨s.middle + 1, s.hi⟩ else ⟨s.lo, s.middle⟩
  else some s

/-- So many steps. -/
def run (x : NameIndex α name) (key : String) : Nat → Stretch → Option Stretch
  | 0, s => some s
  | n + 1, s => (s.step x key).bind (run x key n)

/-- The positions of a stretch are positions of an index, and there is one.  No step of a search
leads out of this. -/
structure InRange (x : NameIndex α name) (s : Stretch) : Prop where
  /-- There is a position. -/
  le : s.lo ≤ s.hi
  /-- The last one is a position of the index. -/
  lt : s.hi < x.items.size

/-- Where the search in a stretch leads, by the search that keeps its positions in range by type. -/
def bound {x : NameIndex α name} {s : Stretch} (h : s.InRange x) (key : String) :
    Fin x.items.size :=
  lowerBound x.items name key s.lo s.hi h.le h.lt

variable {x : NameIndex α name} {s : Stretch}

theorem InRange.middle_lt (h : s.InRange x) : s.middle < x.items.size := by
  have := h.le
  have := h.lt
  unfold middle
  omega

theorem InRange.upper (h : s.InRange x) (hlt : s.lo < s.hi) :
    InRange x ⟨s.middle + 1, s.hi⟩ where
  le := by
    simp only [middle]
    omega
  lt := h.lt

theorem InRange.lower (h : s.InRange x) : InRange x ⟨s.lo, s.middle⟩ where
  le := Nat.le_add_right _ _
  lt := h.middle_lt

theorem bound_of_lt (h : s.InRange x) (hlt : s.lo < s.hi) (hm : s.middle < x.items.size)
    {key : String} (hc : compare (name x.items[s.middle]) key = .lt) :
    bound h key = bound (h.upper hlt) key := by
  rw [bound, lowerBound, dif_pos hlt]
  exact if_pos hc

theorem bound_of_not_lt (h : s.InRange x) (hlt : s.lo < s.hi) (hm : s.middle < x.items.size)
    {key : String} (hc : compare (name x.items[s.middle]) key ≠ .lt) :
    bound h key = bound h.lower key := by
  rw [bound, lowerBound, dif_pos hlt]
  exact if_neg hc

theorem bound_of_eq (h : s.InRange x) (heq : s.lo = s.hi) (key : String) :
    (bound h key).val = s.lo := by
  rw [bound, lowerBound, dif_neg (Nat.not_lt.2 (Nat.le_of_eq heq.symm))]

/-- **A step never reads out of range**; it halves what is left, and leads where the search does. -/
theorem InRange.step (h : s.InRange x) (key : String) :
    ∃ (t : Stretch) (ht : t.InRange x), s.step x key = some t ∧
      t.hi - t.lo ≤ (s.hi - s.lo) / 2 ∧ bound ht key = bound h key := by
  by_cases hlt : s.lo < s.hi
  · have hm := h.middle_lt
    have hstep : s.step x key = some (if compare (name x.items[s.middle]) key = .lt
        then ⟨s.middle + 1, s.hi⟩ else ⟨s.lo, s.middle⟩) := by
      rw [Stretch.step, if_pos hlt, Array.getElem?_eq_getElem hm]
      rfl
    by_cases hc : compare (name x.items[s.middle]) key = .lt
    · rw [if_pos hc] at hstep
      refine ⟨_, h.upper hlt, hstep, ?_, (bound_of_lt h hlt hm hc).symm⟩
      simp only [middle]
      omega
    · rw [if_neg hc] at hstep
      refine ⟨_, h.lower, hstep, ?_, (bound_of_not_lt h hlt hm hc).symm⟩
      simp only [middle]
      omega
  · refine ⟨s, h, ?_, by omega, rfl⟩
    rw [Stretch.step, if_neg hlt]

/-- **No number of steps reads out of range**; each of them halves what is left. -/
theorem InRange.run (h : s.InRange x) (key : String) (n : Nat) :
    ∃ (t : Stretch) (ht : t.InRange x), s.run x key n = some t ∧
      t.hi - t.lo ≤ (s.hi - s.lo) / 2 ^ n ∧ bound ht key = bound h key := by
  induction n generalizing s with
  | zero => exact ⟨s, h, rfl, by simp, rfl⟩
  | succ n ih =>
    obtain ⟨t, ht, hstep, hhalf, hbound⟩ := h.step key
    obtain ⟨u, hu, hrun, hleft, hbound'⟩ := ih ht
    refine ⟨u, hu, by rw [Stretch.run, hstep, Option.bind_some, hrun], ?_, hbound'.trans hbound⟩
    calc u.hi - u.lo ≤ (t.hi - t.lo) / 2 ^ n := hleft
      _ ≤ (s.hi - s.lo) / 2 / 2 ^ n := Nat.div_le_div_right hhalf
      _ = (s.hi - s.lo) / 2 ^ (n + 1) := by
        rw [Nat.div_div_eq_div_mul, Nat.pow_succ, Nat.mul_comm]

end Stretch

/-! ## The whole search -/

/-- Looks a name up in so many steps; nothing if a position out of range is read, be it by a step or
at the end. -/
def seek (x : NameIndex α name) (key : String) (n : Nat) : Option (Option Nat) :=
  if x.items.size = 0 then some none
  else do
    let s ← Stretch.all? x.items.size
    let t ← s.run x key n
    let a ← x.items[t.lo]?
    return if name a = key then some t.lo else none

/-- **A search never goes out of range**, and `n` steps find among `2 ^ n` items what `position?`
finds, however the items are ordered. -/
theorem seek_spec (x : NameIndex α name) (key : String) (n : Nat) :
    ∃ answer, x.seek key n = some answer ∧
      (x.items.size ≤ 2 ^ n → answer = x.position? key) := by
  by_cases h0 : x.items.size = 0
  · have hpos : ¬ 0 < x.items.size := by omega
    exact ⟨none, if_pos h0, fun _ => by rw [position?, dif_neg hpos]⟩
  obtain ⟨last, hlast⟩ := Nat.exists_eq_succ_of_ne_zero h0
  have hlt : last < x.items.size := by omega
  have hall : Stretch.InRange x ⟨0, last⟩ := ⟨Nat.zero_le _, hlt⟩
  obtain ⟨t, ht, hrun, hleft, hbound⟩ := hall.run key n
  have hlo : t.lo < x.items.size := Nat.lt_of_le_of_lt ht.le ht.lt
  refine ⟨if name x.items[t.lo] = key then some t.lo else none, ?_, fun hn => ?_⟩
  · have hwhole : Stretch.all? x.items.size = some ⟨0, last⟩ := by rw [hlast]; rfl
    rw [seek, if_neg h0, hwhole]
    simp only [Option.bind_eq_bind, Option.bind_some, hrun, Array.getElem?_eq_getElem hlo]
    rfl
  · -- With less than `2 ^ n` positions beside the first, one position is left.
    have hone : t.lo = t.hi := by
      have hle := ht.le
      have hzero : (last - 0) / 2 ^ n = 0 := Nat.div_eq_of_lt (by omega)
      rw [hzero] at hleft
      omega
    have hval : (Stretch.bound hall key).val = t.lo := by
      rw [← hbound, Stretch.bound_of_eq ht hone]
    have hpos : 0 < x.items.size := by omega
    obtain ⟨b, hb, hposition⟩ := position?_of_pos hpos key
    have hbt : b.val = t.lo := by
      rw [← hval, ← hb]
      simp only [Stretch.bound, hlast, Nat.succ_sub_one]
    rw [hposition]
    simp only [Fin.getElem_fin, hbt]

/-! ## Exact look-ups -/

/-- A position is found exactly if some item has the name. -/
theorem exists_position?_build_iff {items : List α} {key : String} :
    (∃ p, (build name items).position? key = some p) ↔ ∃ a ∈ items, name a = key := by
  constructor
  · rintro ⟨p, hp⟩
    obtain ⟨hlt, hkey, _⟩ := (position?_eq_some_iff (ordered_build items)).1 hp
    have hmem : (build name items).items[p] ∈ (build name items).toList :=
      Array.mem_toList_iff.2 (Array.getElem_mem hlt)
    exact ⟨_, (perm_build items).mem_iff.1 hmem, hkey⟩
  · intro h
    obtain ⟨p, hp⟩ := required_build_of_mem (List.mem_map.2 h)
    exact ⟨p, required_eq_ok_iff.1 hp⟩

theorem position?_build_eq_none_iff {items : List α} {key : String} :
    (build name items).position? key = none ↔ ∀ a ∈ items, name a ≠ key := by
  rw [← Option.not_isSome_iff_eq_none, Option.isSome_iff_exists, exists_position?_build_iff]
  exact ⟨fun h a ha he => h ⟨a, ha, he⟩, fun h ⟨a, ha, he⟩ => h a ha he⟩

theorem lookup_eq_ok_iff {x : NameIndex α name} {key : String} {p : Nat} :
    x.lookup key = .ok p ↔ x.position? key = some p := by
  unfold lookup
  cases x.position? key <;> simp

theorem lookup_eq_notFound_iff {x : NameIndex α name} {key : String} :
    x.lookup key = .error (.notFound .name key) ↔ x.position? key = none := by
  unfold lookup
  cases x.position? key <;> simp

/-- A name that must be there is reported missing if no item has it, or not a single item is there. -/
theorem required_build_eq_violation_iff {items : List α} {key : String} :
    (build name items).required key =
        .error (.violation (if items.isEmpty then .emptyIndex key else .missingName key)) ↔
      (build name items).position? key = none := by
  have hsize : (build name items).items.size = items.length := size_build items
  unfold required
  rw [hsize]
  cases items with
  | nil => simp [position?, hsize]
  | cons a rest =>
    rw [if_neg (by simp)]
    cases (build name (a :: rest)).position? key <;> simp

/-- A name is looked up exactly in the index of a list of items: the required look-up, the optional
one and the loop all tell the first position of the name, or that there is none. -/
structure LooksUpExactly (name : α → String) (items : List α) (key : String) : Prop where
  /-- The index holds the items, each as often as the list. -/
  perm : (build name items).toList.Perm items
  /-- A position is found exactly if some item has the name. -/
  found_iff : (∃ p, (build name items).position? key = some p) ↔ ∃ a ∈ items, name a = key
  /-- It is the first position that holds the name. -/
  first_iff : ∀ p, (build name items).position? key = some p ↔
    ((build name items).get? p).map name = some key ∧
      ∀ q < p, ((build name items).get? q).map name ≠ some key
  /-- A name that must be there is found where it is. -/
  required_iff : ∀ p, (build name items).required key = .ok p ↔
    (build name items).position? key = some p
  /-- A name that may be missing is found where it is. -/
  lookup_iff : ∀ p, (build name items).lookup key = .ok p ↔
    (build name items).position? key = some p
  /-- A name that must be there is a violation if no item has it; no items are told from others. -/
  violation_iff : (build name items).required key =
      .error (.violation (if items.isEmpty then .emptyIndex key else .missingName key)) ↔
    ∀ a ∈ items, name a ≠ key
  /-- A name that may be missing is not found if no item has it. -/
  notFound_iff : (build name items).lookup key = .error (.notFound .name key) ↔
    ∀ a ∈ items, name a ≠ key
  /-- The search goes nowhere out of range, and ends after that many steps. -/
  safe : ∀ n, ∃ answer, (build name items).seek key n = some answer ∧
    (items.length ≤ 2 ^ n → answer = (build name items).position? key)

/-- **Every name is looked up exactly in every index**, be it the name of many items, of one, or of
none. -/
theorem looksUpExactly (name : α → String) (items : List α) (key : String) :
    LooksUpExactly name items key where
  perm := perm_build items
  found_iff := exists_position?_build_iff
  first_iff p := by
    rw [position?_eq_some_iff_names (ordered_build items)]
    simp only [getElem?_names, get?]
  required_iff _ := required_eq_ok_iff
  lookup_iff _ := lookup_eq_ok_iff
  violation_iff := required_build_eq_violation_iff.trans position?_build_eq_none_iff
  notFound_iff := lookup_eq_notFound_iff.trans position?_build_eq_none_iff
  safe n := by
    have hsize : (build name items).items.size = items.length := size_build items
    rw [← hsize]
    exact seek_spec (build name items) key n

/-- Of equal names the first is found, and a name beyond all others is not. -/
example : (build id ["b", "c", "a", "b"]).position? "b" = some 1 ∧
    (build id ["b", "c", "a", "b"]).position? "d" = none := by decide +kernel

end NameIndex

end Retrace
