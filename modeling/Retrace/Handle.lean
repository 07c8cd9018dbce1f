/-
# Handles

The engine names its entities by 32-bit numbers, and every kind of entity has a type of its own:

| type | names | written |
| --- | --- | --- |
| `ObjectHandle` | an object | `obj3` |
| `BodyHandle` | a function body | `body3` |
| `ScopeHandle` | a debugger scope | `scope3` |
| `ContextId` | an execution context | `ctx3` |

A `CoreTarget` is an object, a body or a scope.  Whatever is told apart by a number is `Numbered`;
the number is also the order in which maps and pin sets list their keys.

These are the handles of the data model in the specification of the identity core (section 3), where
they stand in place of addresses.  The modules that follow that specification cite it by section.
-/

namespace Retrace

/-- Types whose values are told apart, and ordered, by a number.  Maps and pin sets list their keys
in the order of these numbers, so that what a caller sees never depends on when something was
entered. -/
class Numbered (α : Type) where
  /-- The number of a value. -/
  number : α → Nat
  /-- Two values with one number are the same. -/
  number_injective : ∀ {a b : α}, number a = number b → a = b

export Numbered (number)

instance : Numbered UInt32 := ⟨UInt32.toNat, UInt32.toNat_inj.1⟩

instance : Numbered UInt64 := ⟨UInt64.toNat, UInt64.toNat_inj.1⟩

/-- Handle of an object of the engine.  It stands for the object as long as the engine lives, but
means nothing to another run, which is why logs name objects by ids and paths instead. -/
structure ObjectHandle where
  /-- The object's number. -/
  index : UInt32
deriving DecidableEq

/-- Handle of a function body.  Several functions may share a body, as do the closures that come
from one place in the code. -/
structure BodyHandle where
  /-- The body's number. -/
  index : UInt32
deriving DecidableEq

/-- Handle of a debugger scope.  The scopes of a body are known by their slots. -/
structure ScopeHandle where
  /-- The scope's number. -/
  index : UInt32
deriving DecidableEq

/-- Number of an execution context.  A new context gets the next number, whether or not others have
been retired, so that a log may go on naming a context that is gone. -/
structure ContextId where
  /-- The context's number. -/
  index : UInt32
deriving DecidableEq

instance : ToString ObjectHandle := ⟨fun h => s!"obj{h.index}"⟩

instance : ToString BodyHandle := ⟨fun h => s!"body{h.index}"⟩

instance : ToString ScopeHandle := ⟨fun h => s!"scope{h.index}"⟩

instance : ToString ContextId := ⟨fun c => s!"ctx{c.index}"⟩

instance : Numbered ObjectHandle where
  number h := h.index.toNat
  number_injective {a b} h := by cases a; cases b; simpa using UInt32.toNat_inj.1 h

instance : Numbered BodyHandle where
  number h := h.index.toNat
  number_injective {a b} h := by cases a; cases b; simpa using UInt32.toNat_inj.1 h

instance : Numbered ScopeHandle where
  number h := h.index.toNat
  number_injective {a b} h := by cases a; cases b; simpa using UInt32.toNat_inj.1 h

instance : Numbered ContextId where
  number c := c.index.toNat
  number_injective {a b} h := by cases a; cases b; simpa using UInt32.toNat_inj.1 h

/-- Anything a core path can name: an object of the core image, the body of one that can be called,
or a scope of such a body. -/
inductive CoreTarget where
  /-- A built-in object. -/
  | object (handle : ObjectHandle)
  /-- The function body of a built-in callable. -/
  | body (handle : BodyHandle)
  /-- A debugger scope of such a body. -/
  | scope (handle : ScopeHandle)
deriving DecidableEq

/-- The full spelling of a target, with its kind and the type of its handle.  It stands in the
message about two targets that would share one path. -/
def CoreTarget.spelledOut : CoreTarget → String
  | .object h => s!"Object(ObjectHandle({h.index}))"
  | .body h => s!"Body(FunctionBodyHandle({h.index}))"
  | .scope h => s!"Scope(DebuggerScopeHandle({h.index}))"

/-- How many 32-bit numbers a test leaves out.  A walk that never takes up a handle twice has no
more steps left than this, since each step sees at least one more of them. -/
@[irreducible] def absentCount (seen : UInt32 → Bool) : Nat :=
  (List.range UInt32.size).countP fun n => !seen (UInt32.ofNat n)

theorem countP_lt_countP {α : Type} {p q : α → Bool} {l : List α} (h : ∀ x ∈ l, p x → q x) {a : α}
    (ha : a ∈ l) (hp : p a = false) (hq : q a = true) : l.countP p < l.countP q := by
  induction l with
  | nil => simp at ha
  | cons x xs ih =>
    have hle : xs.countP p ≤ xs.countP q := List.countP_mono_left fun y hy => h y (by simp [hy])
    rw [List.countP_cons, List.countP_cons]
    rcases List.mem_cons.1 ha with rfl | hm
    · rw [if_neg (by simp [hp]), if_pos hq]
      omega
    · have hlt := ih (fun y hy => h y (by simp [hy])) hm
      have hx : (if p x = true then 1 else 0) ≤ (if q x = true then 1 else 0) := by
        cases hpx : p x with
        | false => exact Nat.zero_le _
        | true => rw [if_pos (h x (by simp) hpx)]; exact Nat.le_refl 1
      omega

/-- Seeing more numbers leaves no more of them out: the count can only go down as a walk goes on. -/
theorem absentCount_le {seen later : UInt32 → Bool} (h : ∀ n, seen n → later n) :
    absentCount later ≤ absentCount seen := by
  unfold absentCount
  refine List.countP_mono_left fun k _ => ?_
  have := h (UInt32.ofNat k)
  cases hs : seen (UInt32.ofNat k) <;> simp_all

/-- Seeing one more number leaves fewer out: the measure by which walks over handles end. -/
theorem absentCount_lt {seen later : UInt32 → Bool} (h : ∀ n, seen n → later n) {n : UInt32}
    (hn : seen n = false) (hl : later n = true) : absentCount later < absentCount seen := by
  have hof : UInt32.ofNat n.toNat = n := by simp
  unfold absentCount
  refine countP_lt_countP (a := n.toNat) (fun k _ => ?_) (List.mem_range.2 n.toNat_lt) ?_ ?_
  · have := h (UInt32.ofNat k)
    cases hs : seen (UInt32.ofNat k) <;> simp_all
  · simp [hof, hl]
  · simp [hof, hn]

end Retrace
