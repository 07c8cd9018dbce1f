/-
# Maps in key order

A finite map over `Numbered` keys, kept as the list of its entries with strictly ascending keys.
The order shown to a caller is the order of the keys, and two maps that answer every look-up alike
are equal (`ext_get?`).

| operation | what `get?` then answers |
| --- | --- |
| `insert k v` | `v` at `k`, and as before elsewhere (`get?_insert`) |
| `erase k` | nothing at `k`, and as before elsewhere (`get?_erase`) |
| `filter p` | as before where `p` holds of key and value, else nothing (`get?_filter`) |

The specification of the identity core asks for the same order in every run (section 1), and so for
maps that do not list their keys by chance.
-/

import Retrace.Handle

namespace Retrace

/-- A finite map whose entries are listed by strictly ascending key, so that no key is listed twice.
The order is part of the type, and whoever lists the entries need not sort them. -/
structure OrderedMap (κ ν : Type) [Numbered κ] where
  /-- The entries, smallest key first. -/
  entries : List (κ × ν)
  /-- Keys ascend strictly, so no key is listed twice. -/
  ascending : entries.Pairwise fun a b => number a.1 < number b.1

namespace OrderedMap

variable {κ ν : Type} [Numbered κ]

/-- The map without entries, with which every registry and every journal begins. -/
def empty : OrderedMap κ ν := ⟨[], .nil⟩

instance : EmptyCollection (OrderedMap κ ν) := ⟨empty⟩

/-- The value listed for a key, found by going through the entries from the smallest key on. -/
def find (k : κ) : List (κ × ν) → Option ν
  | [] => none
  | e :: rest => if number e.1 = number k then some e.2 else find k rest

/-- An entry list with one entry set: in place if the key is there, else where the order wants it. -/
def place (k : κ) (v : ν) : List (κ × ν) → List (κ × ν)
  | [] => [(k, v)]
  | e :: rest =>
    if number k < number e.1 then (k, v) :: e :: rest
    else if number k = number e.1 then (k, v) :: rest
    else e :: place k v rest

theorem mem_place {k : κ} {v : ν} {l : List (κ × ν)} {x : κ × ν} (h : x ∈ place k v l) :
    x = (k, v) ∨ x ∈ l := by
  induction l with
  | nil => simpa [place] using h
  | cons e rest ih =>
    unfold place at h
    split at h
    · simpa using h
    split at h
    · rcases List.mem_cons.1 h with h | h <;> simp [h]
    · rcases List.mem_cons.1 h with h | h
      · simp [h]
      · rcases ih h with h | h <;> simp [h]

theorem pairwise_place {l : List (κ × ν)} (k : κ) (v : ν)
    (h : l.Pairwise fun a b => number a.1 < number b.1) :
    (place k v l).Pairwise fun a b => number a.1 < number b.1 := by
  induction l with
  | nil => simp [place]
  | cons e rest ih =>
    obtain ⟨he, hr⟩ := List.pairwise_cons.1 h
    unfold place
    split
    · rename_i hlt
      refine List.pairwise_cons.2 ⟨fun x hx => ?_, h⟩
      rcases List.mem_cons.1 hx with rfl | hx
      · exact hlt
      · exact Nat.lt_trans hlt (he x hx)
    split
    · rename_i heq
      exact List.pairwise_cons.2 ⟨fun x hx => by simpa [heq] using he x hx, hr⟩
    · refine List.pairwise_cons.2 ⟨fun x hx => ?_, ih hr⟩
      rcases mem_place hx with rfl | hx
      · simp only; omega
      · exact he x hx

theorem find_eq_none_of_lt {k : κ} {l : List (κ × ν)} (h : ∀ e ∈ l, number k < number e.1) :
    find k l = none := by
  induction l with
  | nil => rfl
  | cons e rest ih =>
    have := h e (by simp)
    rw [find, if_neg (by omega), ih fun e he => h e (by simp [he])]

theorem find_place (k : κ) (v : ν) (l : List (κ × ν)) (q : κ) :
    find q (place k v l) = if number k = number q then some v else find q l := by
  induction l with
  | nil => simp [place, find]
  | cons e rest ih =>
    unfold place
    split
    · simp [find]
    split
    · rename_i heq
      by_cases h : number e.1 = number q <;> simp [find, h, heq]
    · by_cases h : number e.1 = number q
      · have : number k ≠ number q := by omega
        simp [find, h, this]
      · simp [find, h, ih]

theorem find_filter {p : κ × ν → Bool} {l : List (κ × ν)}
    (h : l.Pairwise fun a b => number a.1 < number b.1) (q : κ) :
    find q (l.filter p) = (find q l).filter fun v => p (q, v) := by
  induction l with
  | nil => rfl
  | cons e rest ih =>
    obtain ⟨he, hr⟩ := List.pairwise_cons.1 h
    by_cases hq : number e.1 = number q
    · obtain ⟨k, v⟩ := e
      obtain rfl := Numbered.number_injective hq
      have hnone : find k rest = none := find_eq_none_of_lt he
      cases hp : p (k, v) <;> simp [find, hp, ih hr, hnone, Option.filter]
    · cases hp : p e <;> simp [find, hp, hq, ih hr]

/-- The value of a key, if it has one.  Two maps that agree on this for all keys are the same map
(`ext_get?`). -/
def get? (m : OrderedMap κ ν) (k : κ) : Option ν := find k m.entries

/-- Whether a key has a value, whatever the value is. -/
def contains (m : OrderedMap κ ν) (k : κ) : Bool := (m.get? k).isSome

/-- The map with the value of one key set, where a value that the key had before is replaced and all
other keys keep theirs. -/
def insert (m : OrderedMap κ ν) (k : κ) (v : ν) : OrderedMap κ ν :=
  ⟨place k v m.entries, pairwise_place k v m.ascending⟩

/-- The entries of which a test holds, in the same order.  The test sees the value as well as the
key. -/
def filter (m : OrderedMap κ ν) (p : κ × ν → Bool) : OrderedMap κ ν :=
  ⟨m.entries.filter p, m.ascending.filter p⟩

/-- The map without one key; the same map if the key has no value. -/
def erase (m : OrderedMap κ ν) (k : κ) : OrderedMap κ ν :=
  m.filter fun e => number e.1 != number k

/-- The map with entries added one after another; a later one replaces an earlier one. -/
def insertAll (m : OrderedMap κ ν) (entries : List (κ × ν)) : OrderedMap κ ν :=
  entries.foldl (fun m e => m.insert e.1 e.2) m

/-- The keys in ascending order, each of them once. -/
def keys (m : OrderedMap κ ν) : List κ := m.entries.map (·.1)

/-- The values in the order of their keys; a value that several keys have comes as often. -/
def values (m : OrderedMap κ ν) : List ν := m.entries.map (·.2)

/-- The number of entries, which is the number of keys that have a value. -/
def size (m : OrderedMap κ ν) : Nat := m.entries.length

@[simp] theorem get?_empty (k : κ) : (empty : OrderedMap κ ν).get? k = none := rfl

theorem get?_insert (m : OrderedMap κ ν) (k q : κ) (v : ν) :
    (m.insert k v).get? q = if number k = number q then some v else m.get? q :=
  find_place k v m.entries q

theorem get?_filter (m : OrderedMap κ ν) (p : κ × ν → Bool) (q : κ) :
    (m.filter p).get? q = (m.get? q).filter fun v => p (q, v) :=
  find_filter m.ascending q

theorem get?_erase (m : OrderedMap κ ν) (k q : κ) :
    (m.erase k).get? q = if number k = number q then none else m.get? q := by
  rw [erase, get?_filter]
  by_cases h : number k = number q
  · simp [h]
  · have h' : number q ≠ number k := fun e => h e.symm
    cases m.get? q <;> simp [h, h', Option.filter]

theorem contains_insert (m : OrderedMap κ ν) (k q : κ) (v : ν) :
    (m.insert k v).contains q = (decide (number k = number q) || m.contains q) := by
  unfold contains
  rw [get?_insert]
  by_cases h : number k = number q <;> simp [h]

theorem find_eq_some_iff_mem {l : List (κ × ν)}
    (h : l.Pairwise fun a b => number a.1 < number b.1) {k : κ} {v : ν} :
    find k l = some v ↔ (k, v) ∈ l := by
  induction l with
  | nil => simp [find]
  | cons e rest ih =>
    obtain ⟨he, hr⟩ := List.pairwise_cons.1 h
    rw [find]
    split
    · rename_i hk
      have hx : e.1 = k := Numbered.number_injective hk
      constructor
      · rintro ⟨⟩
        exact List.mem_cons.2 (.inl (by rw [← hx]))
      · intro hm
        rcases List.mem_cons.1 hm with hm | hm
        · rw [← hm]
        · exact absurd (he _ hm) (by simp only; omega)
    · rename_i hk
      rw [ih hr]
      constructor
      · exact fun hm => List.mem_cons_of_mem _ hm
      · intro hm
        rcases List.mem_cons.1 hm with hm | hm
        · exact absurd (by rw [← hm]) hk
        · exact hm

/-- A key has a value exactly when the pair is listed, so that looking up and going through the
entries come to the same. -/
theorem get?_eq_some_iff_mem (m : OrderedMap κ ν) {k : κ} {v : ν} :
    m.get? k = some v ↔ (k, v) ∈ m.entries :=
  find_eq_some_iff_mem m.ascending

theorem mem_keys_iff (m : OrderedMap κ ν) {k : κ} : k ∈ m.keys ↔ m.contains k = true := by
  unfold keys contains
  rw [Option.isSome_iff_exists, List.mem_map]
  constructor
  · rintro ⟨⟨k', v⟩, hm, rfl⟩
    exact ⟨v, m.get?_eq_some_iff_mem.2 hm⟩
  · rintro ⟨v, hv⟩
    exact ⟨(k, v), m.get?_eq_some_iff_mem.1 hv, rfl⟩

theorem eq_of_mem_iff {l l' : List (κ × ν)} (h : l.Pairwise fun a b => number a.1 < number b.1)
    (h' : l'.Pairwise fun a b => number a.1 < number b.1) (hm : ∀ x, x ∈ l ↔ x ∈ l') : l = l' := by
  induction l generalizing l' with
  | nil => cases l' with
    | nil => rfl
    | cons e _ => exact absurd ((hm e).2 (by simp)) (by simp)
  | cons a l ih =>
    cases l' with
    | nil => exact absurd ((hm a).1 (by simp)) (by simp)
    | cons b l' =>
      obtain ⟨ha, hl⟩ := List.pairwise_cons.1 h
      obtain ⟨hb, hl'⟩ := List.pairwise_cons.1 h'
      have hab : a = b := by
        rcases List.mem_cons.1 ((hm a).1 (by simp)) with e | hin
        · exact e
        rcases List.mem_cons.1 ((hm b).2 (by simp)) with e | hin'
        · exact e.symm
        · have := hb a hin
          have := ha b hin'
          omega
      subst hab
      congr 1
      refine ih hl hl' fun x => ⟨fun hx => ?_, fun hx => ?_⟩
      · rcases List.mem_cons.1 ((hm x).1 (by simp [hx])) with rfl | hin
        · exact absurd (ha x hx) (by omega)
        · exact hin
      · rcases List.mem_cons.1 ((hm x).2 (by simp [hx])) with rfl | hin
        · exact absurd (hb x hx) (by omega)
        · exact hin

/-- Maps that answer every look-up alike are equal, since the order of the entries leaves no other
choice. -/
theorem ext_get? {m m' : OrderedMap κ ν} (h : ∀ k, m.get? k = m'.get? k) : m = m' := by
  have he : m.entries = m'.entries := eq_of_mem_iff m.ascending m'.ascending fun ⟨k, v⟩ => by
    rw [← get?_eq_some_iff_mem, ← get?_eq_some_iff_mem, h]
  cases m
  cases m'
  cases he
  rfl

end OrderedMap

end Retrace
