/-
# Shell sort

A shell sort over the fixed gaps `701, 301, 132, 57, 23, 10, 4, 1`: for each gap in turn, every item
from that position on is exchanged with the item a gap before it for as long as that one compares
greater.  The order reached depends on the items, their first order and the comparator alone, and so
does the number of comparisons, which is counted.

The positions compared and exchanged are in range by type.

This is the sort half of *name-sort-and-search* (specification, section 4.3), gap for gap.
-/

namespace Retrace

namespace ShellSort

/-- The distances over which items are compared, in the order of the passes.  They are fixed, and
the last of them is one, which alone would put any items in order. -/
def gaps : List Nat := [701, 301, 132, 57, 23, 10, 4, 1]

/-- The items of a sort under way, and how often two of them have been compared.  Counting makes the
order of comparisons part of what is computed. -/
structure Progress (α : Type) (n : Nat) where
  /-- The items in their present order. -/
  items : Vector α n
  /-- The comparisons made so far. -/
  comparisons : Nat

variable {α : Type} {n : Nat}

/-- Moves the item at position `j` down by steps of a gap while the item before it is greater.  Items
that compare as equal are never exchanged. -/
def sink (cmp : α → α → Ordering) (gap : Nat) (positive : 0 < gap) (p : Progress α n) (j : Nat)
    (hj : j < n) : Progress α n :=
  if h : gap ≤ j then
    if cmp (p.items[j - gap]) p.items[j] = .gt then
      sink cmp gap positive ⟨p.items.swap (j - gap) j, p.comparisons + 1⟩ (j - gap) (by omega)
    else ⟨p.items, p.comparisons + 1⟩
  else p
termination_by j

/-- Sinks the items at position `i` and after, one by one, until there is no item left. -/
def passFrom (cmp : α → α → Ordering) (gap : Nat) (positive : 0 < gap) (p : Progress α n) (i : Nat) :
    Progress α n :=
  if h : i < n then passFrom cmp gap positive (sink cmp gap positive p i h) (i + 1) else p
termination_by n - i

/-- One pass: sinks every item that has another one a gap before it.  Where the gap is as long as
the items, nothing is compared. -/
def pass (cmp : α → α → Ordering) (p : Progress α n) (gap : Nat) : Progress α n :=
  if positive : 0 < gap then passFrom cmp gap positive p gap else p

/-- All passes over the given items, each beginning with what the one before it has left. -/
def run (cmp : α → α → Ordering) (items : Vector α n) : Progress α n :=
  gaps.foldl (pass cmp) ⟨items, 0⟩

end ShellSort

/-- The items in the order that the shell sort gives them.  It is not stable: items that compare as
equal may change places over a longer gap. -/
def shellSort {α : Type} (cmp : α → α → Ordering) (items : List α) : List α :=
  (ShellSort.run cmp items.toArray.toVector).items.toList

/-- How many comparisons the shell sort makes, which depends on the order that the items come in and
on what the comparison answers. -/
def shellSortComparisons {α : Type} (cmp : α → α → Ordering) (items : List α) : Nat :=
  (ShellSort.run cmp items.toArray.toVector).comparisons

end Retrace
