/-
# Ranges of code points

A property of characters is given as a list of closed ranges, in ascending order and apart.
-/

namespace Retrace

/-- A closed range of code points: the first and the last. -/
abbrev CodeRange := Nat × Nat

namespace CodeRange

/-- Whether a character is in a range. -/
def contains (r : CodeRange) (c : Char) : Bool := r.1 ≤ c.toNat && c.toNat ≤ r.2

/-- Whether a character is in one of some ranges, which need not be in order. -/
def anyContains (ranges : List CodeRange) (c : Char) : Bool := ranges.any fun r => r.contains c

theorem anyContains_iff {ranges : List CodeRange} {c : Char} :
    anyContains ranges c = true ↔ ∃ r ∈ ranges, r.1 ≤ c.toNat ∧ c.toNat ≤ r.2 := by
  simp [anyContains, contains]

end CodeRange

end Retrace
