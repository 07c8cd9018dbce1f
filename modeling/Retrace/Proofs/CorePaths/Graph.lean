/-
# The graph of the core image

What a path stands for, said without the walk that finds it.  A step leads from an object to one that
a property of it holds; a route is a root followed by steps.

| route | order |
| --- | --- |
| of fewer steps | before every longer one |
| of as many steps from an earlier root | before those from later roots |
| of as many steps from the same root | by the first step that differs: name, then access |

Names are compared by their bytes, and a getter comes before a setter.

Tokens, and the names by which properties are sorted, are those of the path resolver (specification,
section 4.3).
-/

import Retrace.CorePaths.Walk
import Retrace.Proofs.Order.Bytes

namespace Retrace

/-! ## Steps -/

/-- What of a property leads on: its value if it is a data property, else its getter or its
setter. -/
inductive Access where
  /-- The plain value. -/
  | value
  /-- The getter. -/
  | getter
  /-- The setter. -/
  | setter
deriving DecidableEq

/-- The mark in a path of what is reached by an access. -/
def Access.tag : Access → Option String
  | value => none
  | getter => some getterTag
  | setter => some setterTag

/-- The place of an access among those to one property. -/
def Access.rank : Access → Nat
  | value => 0
  | getter => 1
  | setter => 2

/-- The object that an access to a property gives. -/
def PropertyValue.reached : PropertyValue → Access → Option ObjectHandle
  | data value, .value => value
  | accessor getter _, .getter => getter
  | accessor _ setter, .setter => setter
  | _, _ => none

/-- One step from an object to another: the property taken, and what of it leads on. -/
structure Step where
  /-- The name of the property. -/
  name : String
  /-- What of it leads on. -/
  access : Access
deriving DecidableEq

/-- The path of what a step from the object of a path leads to. -/
def Step.path (parent : String) (s : Step) : String := childPath parent s.name s.access.tag

/-- A step comes before another one by the bytes of the name, and by access if the names are the
same. -/
def Step.Before (s t : Step) : Prop :=
  bytes s.name < bytes t.name ∨ s.name = t.name ∧ s.access.rank < t.access.rank

theorem Step.Before.irrefl (s : Step) : ¬ s.Before s := by
  rintro (h | ⟨_, h⟩)
  · exact String.lt_irrefl _ ((lt_iff_bytes_lt _ _).2 h)
  · exact Nat.lt_irrefl _ h

theorem Step.Before.trans {s t u : Step} (h : s.Before t) (h' : t.Before u) : s.Before u := by
  rcases h with h | ⟨he, h⟩
  · rcases h' with h' | ⟨he', _⟩
    · refine .inl ((lt_iff_bytes_lt _ _).1 ?_)
      exact String.lt_trans ((lt_iff_bytes_lt _ _).2 h) ((lt_iff_bytes_lt _ _).2 h')
    · exact .inl (he' ▸ h)
  · rcases h' with h' | ⟨he', h'⟩
    · exact .inl (he ▸ h')
    · exact .inr ⟨he.trans he', Nat.lt_trans h h'⟩

/-- A step leads from an object to what the access gives of an own property with the name.  Of two
such properties either may be meant. -/
def CoreImage.Leads (image : CoreImage) (obj : ObjectHandle) (s : Step) (target : ObjectHandle) :
    Prop :=
  ∃ p ∈ image.ownProperties obj, p.name = s.name ∧ p.value.reached s.access = some target

/-- A step with what it leads to, if there is anything; a value that is no object leads nowhere. -/
def Step.edge (s : Step) (target : Option ObjectHandle) : List (Step × ObjectHandle) :=
  target.toList.map fun obj => (s, obj)

theorem Step.mem_edge_iff {s t : Step} {value : Option ObjectHandle} {target : ObjectHandle} :
    (t, target) ∈ s.edge value ↔ s = t ∧ value = some target := by
  cases value <;> simp [edge, eq_comm]

/-- The steps that a property has, each with what it leads to, a getter before its setter. -/
def Property.edges (p : Property) : List (Step × ObjectHandle) :=
  match p.value with
  | .data value => Step.edge ⟨p.name, .value⟩ value
  | .accessor getter setter =>
    Step.edge ⟨p.name, .getter⟩ getter ++ Step.edge ⟨p.name, .setter⟩ setter

theorem Property.mem_edges_iff (p : Property) (s : Step) (target : ObjectHandle) :
    (s, target) ∈ p.edges ↔ p.name = s.name ∧ p.value.reached s.access = some target := by
  obtain ⟨name, access⟩ := s
  unfold edges
  cases p.value with
  | data value => cases access <;> simp [PropertyValue.reached, Step.mem_edge_iff]
  | accessor getter setter => cases access <;> simp [PropertyValue.reached, Step.mem_edge_iff]

theorem Property.pairwise_edges (p : Property) :
    p.edges.Pairwise fun a b => a.1.Before b.1 := by
  unfold edges
  cases p.value with
  | data value => cases value <;> simp [Step.edge]
  | accessor getter setter =>
    cases getter <;> cases setter <;> simp [Step.edge, Step.Before, Access.rank]

/-- No two own properties of an object have the same name.  In an arena that has been read there may
be such properties, though. -/
def CoreImage.DistinctNames (image : CoreImage) : Prop :=
  ∀ obj, ((image.ownProperties obj).map (·.name)).Nodup

/-- What can be reached from the roots: objects by steps, the bodies of these objects, and the scopes
of these bodies. -/
inductive CoreImage.Reaches (image : CoreImage) (roots : List NamedRoot) : CoreTarget → Prop where
  /-- A root is reached. -/
  | root {r : NamedRoot} : r ∈ roots → image.Reaches roots (.object r.object)
  /-- What a step leads to is reached. -/
  | step {obj target : ObjectHandle} {s : Step} : image.Reaches roots (.object obj) →
      image.Leads obj s target → image.Reaches roots (.object target)
  /-- The body of an object that is reached. -/
  | body {obj : ObjectHandle} {body : BodyHandle} : image.Reaches roots (.object obj) →
      image.functionBody obj = some body → image.Reaches roots (.body body)
  /-- A scope of a body that is reached. -/
  | scope {body : BodyHandle} {scope : ScopeHandle} : image.Reaches roots (.body body) →
      scope ∈ image.debuggerScopes body → image.Reaches roots (.scope scope)

/-! ## Routes -/

/-- A root, by its position among the roots, and the steps taken from it. -/
structure Route where
  /-- The position of the root. -/
  root : Nat
  /-- The steps, first one first. -/
  steps : List Step
deriving DecidableEq

namespace Route

/-- A route with one step more. -/
def extend (r : Route) (s : Step) : Route := ⟨r.root, r.steps ++ [s]⟩

/-- The path that a route spells: the name of its root, and then a token for each step.  Two routes
may spell one path. -/
def path (roots : List NamedRoot) (r : Route) : String :=
  r.steps.foldl Step.path ((roots[r.root]?.map (·.name)).getD "")

/-- A route leads to the object at which its last step arrives, or to its root if it has no
steps. -/
inductive LeadsTo (image : CoreImage) (roots : List NamedRoot) : Route → ObjectHandle → Prop where
  /-- A route without steps leads to its root. -/
  | root {i : Nat} {r : NamedRoot} : roots[i]? = some r → LeadsTo image roots ⟨i, []⟩ r.object
  /-- A route with one step more leads on from where it led before. -/
  | step {r : Route} {obj target : ObjectHandle} {s : Step} : LeadsTo image roots r obj →
      image.Leads obj s target → LeadsTo image roots (r.extend s) target

/-- A route comes before another one if it has fewer steps, or as many and an earlier root, or the
same root and at the first step that differs one that comes before. -/
def Before (r q : Route) : Prop :=
  r.steps.length < q.steps.length ∨ r.steps.length = q.steps.length ∧
    (r.root < q.root ∨ r.root = q.root ∧ List.Lex Step.Before r.steps q.steps)

/-- A route is the least one to an object if it leads there and every other one that does comes
later. -/
def IsLeast (image : CoreImage) (roots : List NamedRoot) (r : Route) (obj : ObjectHandle) : Prop :=
  r.LeadsTo image roots obj ∧ ∀ q : Route, q.LeadsTo image roots obj → r = q ∨ r.Before q

theorem path_extend (roots : List NamedRoot) (r : Route) (s : Step) :
    (r.extend s).path roots = s.path (r.path roots) := by
  rw [path, path, extend, List.foldl_append]
  rfl

theorem LeadsTo.reaches {image : CoreImage} {roots : List NamedRoot} {r : Route}
    {obj : ObjectHandle} (h : r.LeadsTo image roots obj) : image.Reaches roots (.object obj) := by
  induction h with
  | root hr => exact .root (List.mem_of_getElem? hr)
  | step _ hs ih => exact ih.step hs

/-- **The objects that can be reached are those to which a route leads.** -/
theorem reaches_iff {image : CoreImage} {roots : List NamedRoot} {obj : ObjectHandle} :
    image.Reaches roots (.object obj) ↔ ∃ r : Route, r.LeadsTo image roots obj := by
  constructor
  · intro h
    generalize ht : CoreTarget.object obj = t at h
    induction h generalizing obj with
    | root hr =>
      obtain rfl := CoreTarget.object.inj ht
      obtain ⟨i, hi⟩ := List.mem_iff_getElem?.1 hr
      exact ⟨⟨i, []⟩, .root hi⟩
    | step _ hl ih =>
      obtain rfl := CoreTarget.object.inj ht
      obtain ⟨r, hr⟩ := ih rfl
      exact ⟨_, hr.step hl⟩
    | body => cases ht
    | scope => cases ht
  · rintro ⟨r, hr⟩
    exact hr.reaches

/-! ## The order of routes -/

/-- Lists of one length differ before what is appended to them, so that appending does not change
their order. -/
theorem lex_append {l m : List Step} (h : List.Lex Step.Before l m) (hl : l.length = m.length)
    (x y : List Step) : List.Lex Step.Before (l ++ x) (m ++ y) := by
  induction h with
  | nil => simp at hl
  | rel h => exact .rel h
  | cons _ ih => exact .cons (ih (by simpa using hl))

theorem lex_append_left (l : List Step) {x y : List Step} (h : List.Lex Step.Before x y) :
    List.Lex Step.Before (l ++ x) (l ++ y) := by
  induction l with
  | nil => exact h
  | cons _ _ ih => exact .cons ih

theorem Before.irrefl (r : Route) : ¬ r.Before r := by
  rintro (h | ⟨_, h | ⟨_, h⟩⟩)
  · exact Nat.lt_irrefl _ h
  · exact Nat.lt_irrefl _ h
  · exact List.lex_irrefl Step.Before.irrefl _ h

theorem Before.trans {r q p : Route} (h : r.Before q) (h' : q.Before p) : r.Before p := by
  unfold Before at h h' ⊢
  rcases h with h | ⟨hl, h⟩
  · exact .inl (by omega)
  rcases h' with h' | ⟨hl', h'⟩
  · exact .inl (by omega)
  refine .inr ⟨hl.trans hl', ?_⟩
  rcases h with h | ⟨he, h⟩
  · exact .inl (by omega)
  rcases h' with h' | ⟨he', h'⟩
  · exact .inl (by omega)
  · exact .inr ⟨he.trans he', List.lex_trans (fun h h' => Step.Before.trans h h') h h'⟩

theorem length_extend (r : Route) (s : Step) : (r.extend s).steps.length = r.steps.length + 1 := by
  simp [extend]

/-- A route comes before those that go on from it, as it has fewer steps. -/
theorem before_extend (r : Route) (s : Step) : r.Before (r.extend s) :=
  .inl (by rw [length_extend]; omega)

/-- Routes keep their order whatever step is added to each, as they do not get the same by it. -/
theorem Before.extend {r q : Route} (h : r.Before q) (s t : Step) :
    (r.extend s).Before (q.extend t) := by
  unfold Before at h ⊢
  rw [length_extend, length_extend]
  rcases h with h | ⟨hl, h | ⟨he, h⟩⟩
  · exact .inl (by omega)
  · exact .inr ⟨by omega, .inl h⟩
  · exact .inr ⟨by omega, .inr ⟨he, lex_append h hl _ _⟩⟩

/-- Routes that go on from one by different steps are in the order of these steps. -/
theorem extend_before_extend (r : Route) {s t : Step} (h : s.Before t) :
    (r.extend s).Before (r.extend t) := by
  refine .inr ⟨by rw [length_extend, length_extend], .inr ⟨rfl, ?_⟩⟩
  exact lex_append_left _ (.rel h)

theorem IsLeast.eq {image : CoreImage} {roots : List NamedRoot} {r q : Route} {obj : ObjectHandle}
    (h : r.IsLeast image roots obj) (h' : q.IsLeast image roots obj) : r = q := by
  rcases h.2 q h'.1 with he | hb
  · exact he
  · rcases h'.2 r h.1 with he | hb'
    · exact he.symm
    · exact absurd (hb.trans hb') (Before.irrefl r)

end Route

end Retrace
