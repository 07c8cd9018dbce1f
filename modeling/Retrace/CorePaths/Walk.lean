/-
# The walk over the core image

Everything reachable from the named roots gets a path, by a walk in breadth that takes the own
properties of each object in the order of their names:

| target | path |
| --- | --- |
| root | its name |
| data property | `parent.name` |
| getter, setter | `parent.name!get`, `parent.name!set` |
| body of a callable | `owner!body` |
| scope in a slot of a body | `body!scope[slot]` |

What is named first keeps its path, and a path that is taken is an error.  The walk ends because
each object is queued at most once and there are finitely many handles (`Walk.todo`).

This is the algorithm of the path resolver (specification, section 4.3), with its tokens.
-/

import Retrace.Image
import Retrace.Order.ShellSort

namespace Retrace

/-- A path and what it names.  The walk lists them in the order of naming, and the indices in the
order of the paths. -/
structure CorePath where
  /-- The path. -/
  path : String
  /-- What it names. -/
  target : CoreTarget
deriving DecidableEq

/-- The path of a property, marked if it is reached through a getter or setter.  Names are taken as
they are, so that two routes may spell one path. -/
def childPath (parent name : String) (tag : Option String) : String :=
  parent ++ "." ++ name ++ tag.getD ""

/-- The mark of what is reached through a getter, which keeps its path apart from that of the
setter. -/
def getterTag : String := "!get"

/-- The mark of what is reached through a setter, which keeps its path apart from that of the
getter. -/
def setterTag : String := "!set"

/-- The path of the body of a callable: that of the object by which the body was reached first,
marked. -/
def bodyPath (owner : String) : String := owner ++ "!body"

/-- The path of the scope in a slot of a body.  Slots are counted from zero, and a slot whose scope
has a path already is counted too. -/
def scopePath (body : String) (slot : Nat) : String := s!"{body}!scope[{slot}]"

/-- The path token of an array element, for those who write the contents of arrays to a log. -/
def arrayToken (index : UInt32) : String := s!"[{index}]"

/-- The path token of a closure environment, for those who write captured variables to a log. -/
def environmentToken (environment : UInt32) : String := s!"!env[{environment}]"

/-- The path token of a slot of a closure environment, which begins as that of the environment
does. -/
def environmentSlotToken (environment slot : UInt32) : String :=
  s!"!env[{environment}].slot[{slot}]"

/-- What has been done in two parts has been done in the first, and then in the second. -/
theorem exists_of_bind_eq_ok {α β : Type} {x : Except Error α} {f : α → Except Error β} {b : β}
    (h : (x >>= f) = .ok b) : ∃ a, x = .ok a ∧ f a = .ok b := by
  cases x with
  | error e => cases h
  | ok a => exact ⟨a, rfl, h⟩

/-- Where no step makes a measure larger, no sequence of them does. -/
theorem le_of_foldlM_eq_ok {σ α : Type} (measure : σ → Nat) {step : σ → α → Except Error σ}
    (hstep : ∀ {s s' a}, step s a = .ok s' → measure s' ≤ measure s) {l : List α} {s s' : σ}
    (h : l.foldlM step s = .ok s') : measure s' ≤ measure s := by
  induction l generalizing s with
  | nil =>
    cases h
    exact Nat.le_refl _
  | cons a l ih =>
    rw [List.foldlM_cons] at h
    obtain ⟨u, hu, h⟩ := exists_of_bind_eq_ok h
    exact Nat.le_trans (ih h) (hstep hu)

/-- A walk under way.  It begins with nothing named and nothing queued, and is over when nothing is
queued any more. -/
structure Walk where
  /-- What has been named so far, in that order. -/
  named : List CorePath := []
  /-- The named objects whose properties are still to be taken, with their paths. -/
  queue : List (String × ObjectHandle) := []

namespace Walk

/-- Whether a target has a path by now.  No target gets a second one. -/
def isNamed (w : Walk) (t : CoreTarget) : Bool := w.named.any fun e => e.target = t

/-- Gives a path to a target.  A path that another target has, of whatever kind, is a violation, and
the walk is over. -/
def claim (w : Walk) (path : String) (target : CoreTarget) : Except Error Walk :=
  match w.named.find? fun e => e.path = path with
  | some e => .error (.violation (.pathClash path e.target target))
  | none => .ok { w with named := w.named ++ [⟨path, target⟩] }

/-- Names an object and queues it, unless it has a path.  It is queued with that path, under which
its properties are named in turn. -/
def reach (path : String) (obj : ObjectHandle) (w : Walk) : Except Error Walk :=
  if w.isNamed (.object obj) then .ok w
  else match w.claim path (.object obj) with
    | .ok w => .ok { w with queue := w.queue ++ [(path, obj)] }
    | .error e => .error e

/-- Reaches the object that a property holds under the path of that property, if it holds one. -/
def reachChild (parent name : String) (tag : Option String) (value : Option ObjectHandle)
    (w : Walk) : Except Error Walk :=
  match value with
  | some obj => w.reach (childPath parent name tag) obj
  | none => .ok w

/-- Reaches what a property of an object leads to, a getter before its setter, each under a path
that is marked for it. -/
def takeProperty (parent : String) (w : Walk) (p : Property) : Except Error Walk :=
  match p.value with
  | .data value => w.reachChild parent p.name none value
  | .accessor getter setter => do
    let w ← w.reachChild parent p.name (some getterTag) getter
    w.reachChild parent p.name (some setterTag) setter

/-- Names a scope by its slot, unless it has a path, as it does if bodies share it or if it stands
in an earlier slot. -/
def takeScope (body : String) (w : Walk) (scope : ScopeHandle × Nat) : Except Error Walk :=
  if w.isNamed (.scope scope.1) then .ok w
  else w.claim (scopePath body scope.2) (.scope scope.1)

/-- Names a body and then its scopes by slot, unless the body has a path.  Then its scopes have been
named along with it. -/
def takeBody (image : CoreImage) (owner : String) (body : BodyHandle) (w : Walk) :
    Except Error Walk :=
  if w.isNamed (.body body) then .ok w
  else do
    let w ← w.claim (bodyPath owner) (.body body)
    (image.debuggerScopes body).zipIdx.foldlM (takeScope (bodyPath owner)) w

/-- The own properties of an object in the order of their names, which does not depend on the order
of the engine if no two have one name. -/
def sortedProperties (image : CoreImage) (obj : ObjectHandle) : List Property :=
  shellSort (fun a b => compare a.name b.name) (image.ownProperties obj)

/-- Takes the properties of an object in the order of their names, and then its body, if it can be
called. -/
def visit (image : CoreImage) (path : String) (obj : ObjectHandle) (w : Walk) :
    Except Error Walk := do
  let w ← (sortedProperties image obj).foldlM (takeProperty path) w
  match image.functionBody obj with
  | some body => w.takeBody image path body
  | none => .ok w

/-- How many steps a walk has left at most: objects without a path, and objects in the queue.  A
visit may queue an object, but only by giving it a path. -/
def todo (w : Walk) : Nat := absentCount (fun n => w.isNamed (.object ⟨n⟩)) + w.queue.length

theorem named_of_claim {w w' : Walk} {path : String} {target : CoreTarget}
    (h : w.claim path target = .ok w') : w' = { w with named := w.named ++ [⟨path, target⟩] } := by
  unfold claim at h
  split at h
  · cases h
  · exact (Except.ok.inj h).symm

theorem isNamed_claim {w w' : Walk} {path : String} {target : CoreTarget}
    (h : w.claim path target = .ok w') (t : CoreTarget) :
    w'.isNamed t = (w.isNamed t || decide (target = t)) := by
  rw [named_of_claim h]
  simp [isNamed]

theorem todo_claim_le {w w' : Walk} {path : String} {target : CoreTarget}
    (h : w.claim path target = .ok w') : w'.todo ≤ w.todo := by
  have hq : w'.queue = w.queue := by rw [named_of_claim h]
  unfold todo
  rw [hq]
  refine Nat.add_le_add_right (absentCount_le fun n hn => ?_) _
  rw [isNamed_claim h, hn]
  rfl

theorem todo_reach_le {w w' : Walk} {path : String} {obj : ObjectHandle}
    (h : w.reach path obj = .ok w') : w'.todo ≤ w.todo := by
  unfold reach at h
  split at h
  · cases h
    exact Nat.le_refl _
  rename_i hn
  split at h
  · rename_i v hv
    cases h
    have hlt : absentCount (fun n => v.isNamed (.object ⟨n⟩)) <
        absentCount (fun n => w.isNamed (.object ⟨n⟩)) := by
      refine absentCount_lt (n := obj.index) (fun n hn => ?_) (by simpa using hn) ?_
      · simp only [isNamed_claim hv, hn, Bool.true_or]
      · simp [isNamed_claim hv]
    have hq : v.queue = w.queue := by rw [named_of_claim hv]
    simp only [todo, isNamed, List.length_append, List.length_singleton, hq] at hlt ⊢
    omega
  · cases h

theorem todo_reachChild_le {w w' : Walk} {parent name : String} {tag : Option String}
    {value : Option ObjectHandle} (h : w.reachChild parent name tag value = .ok w') :
    w'.todo ≤ w.todo := by
  unfold reachChild at h
  split at h
  · exact todo_reach_le h
  · cases h
    exact Nat.le_refl _

theorem todo_takeProperty_le {w w' : Walk} {parent : String} {p : Property}
    (h : w.takeProperty parent p = .ok w') : w'.todo ≤ w.todo := by
  unfold takeProperty at h
  split at h
  · exact todo_reachChild_le h
  · obtain ⟨v, hv, h⟩ := exists_of_bind_eq_ok h
    exact Nat.le_trans (todo_reachChild_le h) (todo_reachChild_le hv)

theorem todo_takeScope_le {w w' : Walk} {body : String} {scope : ScopeHandle × Nat}
    (h : w.takeScope body scope = .ok w') : w'.todo ≤ w.todo := by
  unfold takeScope at h
  split at h
  · cases h
    exact Nat.le_refl _
  · exact todo_claim_le h

theorem todo_takeBody_le {image : CoreImage} {owner : String} {body : BodyHandle} {w w' : Walk}
    (h : w.takeBody image owner body = .ok w') : w'.todo ≤ w.todo := by
  unfold takeBody at h
  split at h
  · cases h
    exact Nat.le_refl _
  · obtain ⟨v, hv, h⟩ := exists_of_bind_eq_ok h
    exact Nat.le_trans (le_of_foldlM_eq_ok todo todo_takeScope_le h)
      (todo_claim_le hv)

theorem todo_visit_le {image : CoreImage} {path : String} {obj : ObjectHandle} {w w' : Walk}
    (h : w.visit image path obj = .ok w') : w'.todo ≤ w.todo := by
  unfold visit at h
  obtain ⟨v, hv, h⟩ := exists_of_bind_eq_ok h
  refine Nat.le_trans ?_ (le_of_foldlM_eq_ok todo todo_takeProperty_le hv)
  split at h
  · exact todo_takeBody_le h
  · cases h
    exact Nat.le_refl _

/-- Visits the queued objects, first come first served, until none is left.  The first path that is
taken ends it. -/
def run (image : CoreImage) : Walk → Except Error Walk
  | ⟨named, []⟩ => .ok ⟨named, []⟩
  | ⟨named, (path, obj) :: rest⟩ =>
    match _ : visit image path obj ⟨named, rest⟩ with
    | .ok w => run image w
    | .error e => .error e
termination_by w => w.todo
decreasing_by
  have := todo_visit_le (by assumption)
  simp only [todo, isNamed, List.length_cons] at this ⊢
  omega

/-- Names the roots in the order given, and then all that can be reached from them.  A root that is
another one's object keeps the name that it had first. -/
def ofRoots (image : CoreImage) (roots : List NamedRoot) : Except Error Walk := do
  let w ← roots.foldlM (fun (w : Walk) r => w.reach r.name r.object) {}
  run image w

end Walk

end Retrace
