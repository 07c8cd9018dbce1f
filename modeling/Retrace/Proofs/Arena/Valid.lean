/-
# Valid arenas

An arena is validated in one pass over what it keeps.  It passes exactly if every handle in it leads
into it (`validate_eq_ok_iff`):

| kept in | handles |
| --- | --- |
| an object | the values, getters and setters of its properties, and its body |
| a body | the bodies that it nests, and its scopes |
| a root | its object |

Parsing a body changes no handle, so an arena that is well formed remains so whatever is parsed of
it.

The specification has arenas read from files (section 6), and so from anyone; nothing but validation
stands between.
-/

import Retrace.Arena
import Retrace.Proofs.Registry.Run

namespace Retrace

namespace Arena

variable {a a' : Arena}

/-- Whether a target is in the arena: its number is below the count of its kind. -/
def Has (a : Arena) : CoreTarget → Prop
  | .object obj => obj.index.toNat < a.objects.size
  | .body body => body.index.toNat < a.bodies.size
  | .scope scope => scope.index < a.scopeCount

instance (a : Arena) (t : CoreTarget) : Decidable (a.Has t) :=
  match t with
  | .object obj => inferInstanceAs (Decidable (obj.index.toNat < a.objects.size))
  | .body body => inferInstanceAs (Decidable (body.index.toNat < a.bodies.size))
  | .scope scope => inferInstanceAs (Decidable (scope.index < a.scopeCount))

/-- What an object leads to is in the arena: what its properties hold, and its body. -/
structure HoldsObject (a : Arena) (o : ArenaObject) : Prop where
  /-- What its properties lead to is. -/
  targets : ∀ p ∈ o.properties, ∀ t ∈ p.value.targets, a.Has (.object t)
  /-- Its body is. -/
  body : ∀ b ∈ o.body, a.Has (.body b)

/-- What a body leads to is in the arena: the bodies that it nests, and its scopes. -/
structure HoldsBody (a : Arena) (b : ArenaBody) : Prop where
  /-- The bodies that it nests are. -/
  nested : ∀ n ∈ b.nested, a.Has (.body n)
  /-- Its scopes are. -/
  scopes : ∀ s ∈ b.scopes, a.Has (.scope s)

/-- Every handle of the arena leads into it, whether it is in an object, in a body or in a root. -/
structure WellFormed (a : Arena) : Prop where
  /-- Those of its objects do. -/
  objects : ∀ o ∈ a.objects, a.HoldsObject o
  /-- Those of its bodies do. -/
  bodies : ∀ b ∈ a.bodies, a.HoldsBody b
  /-- Those of its roots do. -/
  roots : ∀ r ∈ a.roots, a.Has (.object r.object)

/-! ## Validation -/

theorem objectViolation?_eq_none_iff (a : Arena) (owner : Nat) (o : ArenaObject) :
    a.objectViolation? owner o = none ↔ a.HoldsObject o := by
  rw [objectViolation?, Option.or_eq_none_iff, List.findSome?_eq_none_iff, Option.map_eq_none_iff,
    Option.filter_eq_none_iff]
  constructor
  · rintro ⟨ht, hb⟩
    refine ⟨fun p hp t hmem => ?_, fun b hmem => by simpa [Has] using hb b hmem⟩
    have hnone := List.find?_eq_none.1 (Option.map_eq_none_iff.1 (ht p hp)) t hmem
    simpa [Has] using hnone
  · rintro ⟨ht, hb⟩
    refine ⟨fun p hp => ?_, fun b hmem => by simpa [Has] using hb b hmem⟩
    refine Option.map_eq_none_iff.2 (List.find?_eq_none.2 fun t hmem => ?_)
    simpa [Has] using ht p hp t hmem

theorem bodyViolation?_eq_none_iff (a : Arena) (owner : Nat) (b : ArenaBody) :
    a.bodyViolation? owner b = none ↔ a.HoldsBody b := by
  rw [bodyViolation?, Option.or_eq_none_iff, Option.map_eq_none_iff, Option.map_eq_none_iff,
    List.find?_eq_none, List.find?_eq_none]
  simp only [decide_eq_true_eq, Nat.not_le, UInt32.not_le]
  exact ⟨fun h => ⟨h.1, h.2⟩, fun h => ⟨h.nested, h.scopes⟩⟩

/-- No numbered item of a list is objected to exactly if no item is, under whatever number. -/
theorem findSome?_zipIdx_eq_none_iff {α β : Type} {l : List α} {f : Nat → α → Option β}
    {p : α → Prop} (h : ∀ i x, f i x = none ↔ p x) :
    (l.zipIdx.findSome? fun x => f x.2 x.1) = none ↔ ∀ x ∈ l, p x := by
  rw [List.findSome?_eq_none_iff]
  constructor
  · intro hall x hx
    obtain ⟨i, hi⟩ := List.mem_iff_getElem?.1 hx
    exact (h i x).1 (hall (x, i) (List.mem_zipIdx_iff_getElem?.2 hi))
  · intro hall x hx
    exact (h x.2 x.1).2 (hall x.1 (List.fst_mem_of_mem_zipIdx hx))

theorem violation?_eq_none_iff (a : Arena) : a.violation? = none ↔ a.WellFormed := by
  have hroots : ((a.roots.find? fun r => a.objects.size ≤ r.object.index.toNat).map fun r =>
      Violation.danglingRoot r.name r.object) = none ↔ ∀ r ∈ a.roots, a.Has (.object r.object) := by
    rw [Option.map_eq_none_iff, List.find?_eq_none]
    simp only [decide_eq_true_eq, Nat.not_le, Has]
  rw [violation?, Option.or_eq_none_iff, Option.or_eq_none_iff, hroots,
    findSome?_zipIdx_eq_none_iff a.objectViolation?_eq_none_iff,
    findSome?_zipIdx_eq_none_iff a.bodyViolation?_eq_none_iff]
  simp only [Array.mem_toList_iff]
  exact ⟨fun ⟨ho, hb, hr⟩ => ⟨ho, hb, hr⟩, fun h => ⟨h.objects, h.bodies, h.roots⟩⟩

/-- **An arena passes validation exactly if every handle of it leads into it.** -/
theorem validate_eq_ok_iff (a : Arena) : a.validate = .ok () ↔ a.WellFormed := by
  rw [← violation?_eq_none_iff, validate]
  cases a.violation? <;> simp

/-! ## Parsing -/

theorem HoldsObject.mono (hsub : ∀ t, a.Has t → a'.Has t) {o : ArenaObject}
    (h : a.HoldsObject o) : a'.HoldsObject o :=
  ⟨fun p hp t ht => hsub _ (h.targets p hp t ht), fun b hb => hsub _ (h.body b hb)⟩

theorem HoldsBody.mono (hsub : ∀ t, a.Has t → a'.Has t) {b : ArenaBody} (h : a.HoldsBody b) :
    a'.HoldsBody b :=
  ⟨fun n hn => hsub _ (h.nested n hn), fun s hs => hsub _ (h.scopes s hs)⟩

/-- Replacing a body neither adds targets nor takes any away. -/
@[simp] theorem has_setBody (a : Arena) (body : BodyHandle) (b : ArenaBody) (t : CoreTarget) :
    (a.setBody body b).Has t ↔ a.Has t := by
  cases t <;> simp [Has, setBody]

/-- A body may be replaced by one that leads into the arena. -/
theorem WellFormed.setBody (h : a.WellFormed) {b : ArenaBody} (hb : a.HoldsBody b)
    (body : BodyHandle) : (a.setBody body b).WellFormed where
  objects o ho := (h.objects o ho).mono fun t => (a.has_setBody body b t).2
  bodies c hc := by
    refine HoldsBody.mono (fun t => (a.has_setBody body b t).2) ?_
    rcases Array.mem_or_eq_of_mem_setIfInBounds hc with hc | rfl
    · exact h.bodies c hc
    · exact hb
  roots r hr := (a.has_setBody body b _).2 (h.roots r hr)

/-- How an arena comes out of a parse: as it was, or with a body that leads where it led before,
whatever the parse answers. -/
theorem after_forceParse_cases (body : BodyHandle) (a : Arena) :
    (forceParse body).after a = a ∨ ∃ b ∈ a.bodies, (forceParse body).after a =
      { a.setBody body { b with deferred := false } with parseCount := a.parseCount + 1 } := by
  unfold Action.after forceParse
  cases hb : a.body? body with
  | none => exact .inl rfl
  | some b =>
    dsimp only
    cases hd : b.deferred with
    | false => exact .inl rfl
    | true => exact .inr ⟨b, Array.mem_of_getElem? hb, rfl⟩

/-- Parsing neither adds targets nor takes any away. -/
theorem has_forceParse (body : BodyHandle) (a : Arena) (t : CoreTarget) :
    ((forceParse body).after a).Has t ↔ a.Has t := by
  rcases after_forceParse_cases body a with he | ⟨b, _, he⟩
  · rw [he]
  · rw [he]
    exact a.has_setBody body { b with deferred := false } t

/-- **An arena remains well formed whatever is parsed of it**, and whether or not the parse
succeeds. -/
theorem WellFormed.forceParse (h : a.WellFormed) (body : BodyHandle) :
    ((forceParse body).after a).WellFormed := by
  rcases after_forceParse_cases body a with he | ⟨b, hb, he⟩
  · rw [he]
    exact h
  · have hsame : a.HoldsBody { b with deferred := false } :=
      ⟨(h.bodies b hb).nested, (h.bodies b hb).scopes⟩
    have hset := (validate_eq_ok_iff _).2 (h.setBody hsame body)
    rw [he]
    -- Validation does not look at how often has been parsed.
    exact (validate_eq_ok_iff _).1 hset

end Arena

end Retrace
