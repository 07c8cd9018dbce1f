/-
# Name indices

A name index holds items in the order of their names (bytewise, which is the order of code points)
and finds the first position of a name by binary search.  A name that an invariant guarantees is
sought with `required`, where absence is a violation; a name that comes from outside with
`position?` or `lookup`, where it is not.

This is the search half of *name-sort-and-search* (specification, section 4.3), in its two modes.
-/

import Retrace.Error
import Retrace.Order.ShellSort

namespace Retrace

/-- Items sorted by the names that `name` gives them.  The position of an item depends on the names
alone, so that two runs of one program number the same things alike. -/
structure NameIndex (α : Type) (name : α → String) where
  /-- The items in index order. -/
  items : Array α

namespace NameIndex

variable {α : Type} {name : α → String}

/-- Sorts items by name, byte by byte.  Items of one name stay next to each other, in an order of
which nothing is promised. -/
def build (name : α → String) (items : List α) : NameIndex α name :=
  ⟨(shellSort (fun a b => compare (name a) (name b)) items).toArray⟩

/-- The number of items, of which several may have one name. -/
def size (x : NameIndex α name) : Nat := x.items.size

/-- The items in the order of the index, from the smallest name on. -/
def toList (x : NameIndex α name) : List α := x.items.toList

/-- The item at a position; nothing beyond the end. -/
def get? (x : NameIndex α name) (position : Nat) : Option α := x.items[position]?

/-- Halves the range `lo … hi` down to the first position whose name is not below the key, or to
`hi` if every name before it is below. -/
def lowerBound (items : Array α) (name : α → String) (key : String) (lo hi : Nat) (hle : lo ≤ hi)
    (h : hi < items.size) : Fin items.size :=
  if hlt : lo < hi then
    if compare (name items[lo + (hi - lo) / 2]) key = .lt then
      lowerBound items name key (lo + (hi - lo) / 2 + 1) hi (by omega) h
    else lowerBound items name key lo (lo + (hi - lo) / 2) (by omega) (by omega)
  else ⟨lo, by omega⟩
termination_by hi - lo

/-- The first position of a name, if an item has it.  The search is clamped to the last item, and
looks there in the end whether the name was found. -/
def position? (x : NameIndex α name) (key : String) : Option Nat :=
  if h : 0 < x.items.size then
    let p := lowerBound x.items name key 0 (x.items.size - 1) (by omega) (by omega)
    if name x.items[p] = key then some p.val else none
  else none

/-- The first position of a name that must be there.  An empty index, or one without the name, is a
violation, for the caller has relied on it. -/
def required (x : NameIndex α name) (key : String) : Except Error Nat :=
  if x.items.size = 0 then .error (.violation (.emptyIndex key))
  else match x.position? key with
    | some p => .ok p
    | none => .error (.violation (.missingName key))

/-- The first position of a name that may be missing, as a name that comes from a log or from a user
may. -/
def lookup (x : NameIndex α name) (key : String) : Except Error Nat :=
  match x.position? key with
  | some p => .ok p
  | none => .error (.notFound .name key)

end NameIndex

end Retrace
