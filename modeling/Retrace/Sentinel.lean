/-
# Sentinels

Every execution context owns five singletons, each in a slot of its own:

| slot | position | named |
| --- | ---: | --- |
| the global object | 0 | `global` |
| the undefined value | 1 | `undefined` |
| the null value | 2 | `null` |
| the true value | 3 | `true` |
| the false value | 4 | `false` |

`PerSlot α` gives each slot something of type `α`: the live objects of a context, or their ids.

The five singletons of a context, and their names, are those of the data model (specification,
section 3).
-/

import Retrace.Handle

namespace Retrace

/-- A slot for one of the five singletons of a context: the global object, undefined, null, true and
false.  Every context has its own five, which a log names by context and slot. -/
inductive SentinelSlot where
  /-- The global object. -/
  | globalObject
  /-- The undefined value. -/
  | undefinedValue
  /-- The null value. -/
  | nullValue
  /-- The true value. -/
  | trueValue
  /-- The false value. -/
  | falseValue
deriving DecidableEq

namespace SentinelSlot

/-- The slots in the order of their positions, in which records of five values list them. -/
def all : List SentinelSlot := [globalObject, undefinedValue, nullValue, trueValue, falseValue]

/-- The position of a slot, from zero to four; the low bits of a sentinel id hold it. -/
def position : SentinelSlot → Nat
  | globalObject => 0
  | undefinedValue => 1
  | nullValue => 2
  | trueValue => 3
  | falseValue => 4

/-- The slot at a position, if there is one: the positions five and up are nobody's. -/
def ofPosition? (n : Nat) : Option SentinelSlot := all[n]?

/-- The name of a slot, as it is written for people. -/
def name : SentinelSlot → String
  | globalObject => "global"
  | undefinedValue => "undefined"
  | nullValue => "null"
  | trueValue => "true"
  | falseValue => "false"

instance : ToString SentinelSlot := ⟨name⟩

theorem position_lt (s : SentinelSlot) : s.position < 5 := by cases s <;> decide

theorem ofPosition?_position (s : SentinelSlot) : ofPosition? s.position = some s := by
  cases s <;> rfl

theorem ofPosition?_eq_some_iff {n : Nat} {s : SentinelSlot} :
    ofPosition? n = some s ↔ n = s.position := by
  constructor
  · intro h
    match n with
    | 0 | 1 | 2 | 3 | 4 => cases h; rfl
    | n + 5 => simp [ofPosition?, all] at h
  · rintro rfl
    exact ofPosition?_position s

end SentinelSlot

/-- One `α` for each of the five slots: the sentinels of a context are five objects, and their ids
five ids. -/
structure PerSlot (α : Type) where
  /-- For the global object. -/
  globalObject : α
  /-- For the undefined value. -/
  undefinedValue : α
  /-- For the null value. -/
  nullValue : α
  /-- For the true value. -/
  trueValue : α
  /-- For the false value. -/
  falseValue : α
deriving DecidableEq

namespace PerSlot

variable {α : Type}

/-- What a slot holds.  Two records that hold the same in each slot are equal. -/
def get (p : PerSlot α) : SentinelSlot → α
  | .globalObject => p.globalObject
  | .undefinedValue => p.undefinedValue
  | .nullValue => p.nullValue
  | .trueValue => p.trueValue
  | .falseValue => p.falseValue

/-- Fills each slot by a rule, as the ids of sentinels follow from the slots. -/
def ofFn (f : SentinelSlot → α) : PerSlot α :=
  ⟨f .globalObject, f .undefinedValue, f .nullValue, f .trueValue, f .falseValue⟩

/-- What the slots hold, in the order of their positions; the same thing twice if two slots hold
it. -/
def toList (p : PerSlot α) : List α := SentinelSlot.all.map p.get

/-- Fills the slots from exactly five values in the order of positions; fewer or more make no
record. -/
def ofList? : List α → Option (PerSlot α)
  | [g, u, n, t, f] => some ⟨g, u, n, t, f⟩
  | _ => none

/-- The first slot that holds a value.  Where one object was given for several slots, the others are
passed over. -/
def slotOf? [DecidableEq α] (p : PerSlot α) (a : α) : Option SentinelSlot :=
  SentinelSlot.all.find? fun s => p.get s = a

@[simp] theorem get_ofFn (f : SentinelSlot → α) (s : SentinelSlot) : (ofFn f).get s = f s := by
  cases s <;> rfl

theorem get_of_slotOf? [DecidableEq α] {p : PerSlot α} {a : α} {s : SentinelSlot}
    (h : p.slotOf? a = some s) : p.get s = a := by
  simpa using List.find?_some h

theorem slotOf?_isSome_iff [DecidableEq α] (p : PerSlot α) (a : α) :
    (p.slotOf? a).isSome ↔ ∃ s, p.get s = a := by
  rw [slotOf?, List.find?_isSome]
  constructor
  · rintro ⟨s, _, h⟩
    exact ⟨s, by simpa using h⟩
  · rintro ⟨s, h⟩
    exact ⟨s, by cases s <;> simp [SentinelSlot.all], by simpa using h⟩

end PerSlot

end Retrace
