/-
# Pin sets

A pin set holds counted strong references to handles.  A handle stays pinned while its count is
positive; the handles are listed in ascending order.

| call | answer | count of the handle afterwards |
| --- | --- | --- |
| `pin` | the new count | one more |
| `unpin` | what remains, or nothing if it was not pinned | one less |
| `release` | whether it was pinned | zero |

This is the explicit count of strong references by which the data model of the specification
(section 3) describes its root sets, and the journal what it pins.
-/

import Retrace.OrderedMap

namespace Retrace

/-- Counted references to handles.  What is pinned several times stays pinned until the last
reference is given back, so that independent users need not know of each other. -/
structure PinSet (α : Type) [Numbered α] where
  /-- The count of every pinned handle. -/
  counts : OrderedMap α Nat

namespace PinSet

variable {α : Type} [Numbered α]

/-- The pin set that holds nothing, as it is before the first pin and after a bulk clear. -/
def empty : PinSet α := ⟨.empty⟩

/-- How many references to a handle are held; zero if it is not pinned. -/
def count (s : PinSet α) (h : α) : Nat := (s.counts.get? h).getD 0

/-- Whether a handle is pinned, by at least one reference. -/
def contains (s : PinSet α) (h : α) : Bool := s.counts.contains h

/-- Takes one more reference to a handle and tells how many there are now.  A handle that was not
pinned is pinned from now on. -/
def pin (s : PinSet α) (h : α) : Nat × PinSet α :=
  (s.count h + 1, ⟨s.counts.insert h (s.count h + 1)⟩)

/-- Gives one reference back and tells how many remain.  With the last one the handle is no longer
pinned.  A handle that is not pinned is left alone, which the caller is told. -/
def unpin (s : PinSet α) (h : α) : Option Nat × PinSet α :=
  match s.counts.get? h with
  | none => (none, s)
  | some n => (some (n - 1), ⟨if n ≤ 1 then s.counts.erase h else s.counts.insert h (n - 1)⟩)

/-- Gives every reference to a handle back at once, however many there are, and tells whether there
was one. -/
def release (s : PinSet α) (h : α) : Bool × PinSet α := (s.contains h, ⟨s.counts.erase h⟩)

/-- The pinned handles in ascending order, each once, whatever its count and whenever it was
pinned. -/
def handles (s : PinSet α) : List α := s.counts.keys

/-- The number of pinned handles; how often each of them is pinned does not matter. -/
def size (s : PinSet α) : Nat := s.counts.size

/-- Whether nothing is pinned. -/
def isEmpty (s : PinSet α) : Bool := s.counts.entries.isEmpty

theorem mem_handles_iff (s : PinSet α) {h : α} : h ∈ s.handles ↔ s.contains h = true :=
  s.counts.mem_keys_iff

theorem count_pin (s : PinSet α) (h q : α) :
    (s.pin h).2.count q = s.count q + if number h = number q then 1 else 0 := by
  unfold pin count
  rw [OrderedMap.get?_insert]
  by_cases e : number h = number q
  · obtain rfl := Numbered.number_injective e
    simp
  · simp [e]

end PinSet

end Retrace
