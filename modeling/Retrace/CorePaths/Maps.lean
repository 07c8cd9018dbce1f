/-
# Core paths in maps of their own

`Walk` keeps what it has named in one list, and every question about it goes through that list.  The
specification of the identity core (section 4.3) has maps instead, so that no question has to go
through all the paths:

| map | leads from | to |
| --- | --- | --- |
| `objectPaths`, `bodyPaths`, `scopePaths` | an object, a body, a scope | its path |
| `pathTargets` | a path | what it names |

with the paths in the order of naming beside them.  A walk that fills them claims a path first, for the
last map and the order, and notes it for the target afterwards: for an object or a scope at once, but for
a body only when its scopes have been named.  Its queue holds objects alone, whose paths it looks up when
their turn comes.
-/

import Mathlib.Tactic.Linarith
import Retrace.CorePaths

namespace Retrace

open Std (HashMap)

instance : Hashable ObjectHandle := ⟨fun h => hash h.index⟩

instance : Hashable BodyHandle := ⟨fun h => hash h.index⟩

instance : Hashable ScopeHandle := ⟨fun h => hash h.index⟩

/-- The paths of a core image, with a map for each kind of question, so that no answer takes longer
than a look-up.  The maps list their entries in no particular order. -/
structure PathMaps where
  /-- The path of each object. -/
  objectPaths : HashMap ObjectHandle String := ∅
  /-- The path of each body. -/
  bodyPaths : HashMap BodyHandle String := ∅
  /-- The path of each scope. -/
  scopePaths : HashMap ScopeHandle String := ∅
  /-- What each path names. -/
  pathTargets : HashMap String CoreTarget := ∅
  /-- The paths in the order of naming. -/
  traversalOrder : List String := []

/-- A walk under way that fills the maps.  It begins with empty maps and nothing queued. -/
structure MapWalk extends PathMaps where
  /-- The named objects whose properties are still to be taken. -/
  queue : List ObjectHandle := []

namespace MapWalk

/-- Claims a path for a target, in the map of paths and in the order of naming.  A path that is
taken is a violation, and the walk is over. -/
def claim (m : MapWalk) (path : String) (target : CoreTarget) : Except Error MapWalk :=
  match m.pathTargets[path]? with
  | some holder => .error (.violation (.pathClash path holder target))
  | none => .ok { m with
      pathTargets := m.pathTargets.insert path target
      traversalOrder := m.traversalOrder ++ [path] }

/-- Names an object and queues it, unless it has a path.  The path is noted as soon as it has been
claimed. -/
def reach (path : String) (obj : ObjectHandle) (m : MapWalk) : Except Error MapWalk :=
  if m.objectPaths.contains obj then .ok m
  else match m.claim path (.object obj) with
    | .ok m => .ok { m with
        objectPaths := m.objectPaths.insert obj path
        queue := m.queue ++ [obj] }
    | .error e => .error e

/-- Reaches the object that a property holds, if it holds one that has no path yet.  That is asked
here, and once more when the object is reached. -/
def reachChild (parent name : String) (tag : Option String) (value : Option ObjectHandle)
    (m : MapWalk) : Except Error MapWalk :=
  match value with
  | some obj =>
    if m.objectPaths.contains obj then .ok m else m.reach (childPath parent name tag) obj
  | none => .ok m

/-- Reaches what a property of an object leads to, a getter before its setter. -/
def takeProperty (parent : String) (m : MapWalk) (p : Property) : Except Error MapWalk :=
  match p.value with
  | .data value => m.reachChild parent p.name none value
  | .accessor getter setter => do
    let m ← m.reachChild parent p.name (some getterTag) getter
    m.reachChild parent p.name (some setterTag) setter

/-- Names a scope by its slot, unless it has a path.  The path is noted as soon as it has been
claimed. -/
def takeScope (body : String) (m : MapWalk) (scope : ScopeHandle × Nat) : Except Error MapWalk :=
  if m.scopePaths.contains scope.1 then .ok m
  else match m.claim (scopePath body scope.2) (.scope scope.1) with
    | .ok m => .ok { m with
        scopePaths := m.scopePaths.insert scope.1 (scopePath body scope.2) }
    | .error e => .error e

/-- Notes the path of a body, after which the body counts as named. -/
def noteBody (body : BodyHandle) (path : String) (m : MapWalk) : MapWalk :=
  { m with bodyPaths := m.bodyPaths.insert body path }

/-- Claims the path of a body and names its scopes by slot, and only then notes the path, unless the
body has one. -/
def takeBody (image : CoreImage) (owner : String) (body : BodyHandle) (m : MapWalk) :
    Except Error MapWalk :=
  if m.bodyPaths.contains body then .ok m
  else do
    let m ← m.claim (bodyPath owner) (.body body)
    let m ← (image.debuggerScopes body).zipIdx.foldlM (takeScope (bodyPath owner)) m
    return m.noteBody body (bodyPath owner)

/-- Takes the properties of an object in the order of their names, and then its body.  The path of
the object is looked up, for an object that is queued has one. -/
def visit (image : CoreImage) (obj : ObjectHandle) (m : MapWalk) : Except Error MapWalk := do
  let path := m.objectPaths[obj]!
  let m ← (Walk.sortedProperties image obj).foldlM (takeProperty path) m
  match image.functionBody obj with
  | some body => m.takeBody image path body
  | none => .ok m

/-! ## Visits come to an end -/

/-- How many steps a walk has left at most: objects whose path is not noted, and objects in the
queue. -/
def todo (m : MapWalk) : Nat := absentCount (fun n => m.objectPaths.contains ⟨n⟩) + m.queue.length

variable {m m' : MapWalk}

theorem claim_eq_ok {path : String} {target : CoreTarget} (h : m.claim path target = .ok m') :
    m' = { m with
      pathTargets := m.pathTargets.insert path target
      traversalOrder := m.traversalOrder ++ [path] } := by
  unfold claim at h
  split at h
  · cases h
  · exact (Except.ok.inj h).symm

theorem todo_reach_le {path : String} {obj : ObjectHandle} (h : m.reach path obj = .ok m') :
    m'.todo ≤ m.todo := by
  unfold reach at h
  split at h
  · cases h
    exact Nat.le_refl _
  rename_i hnew
  split at h
  · rename_i v hv
    obtain rfl := claim_eq_ok hv
    cases h
    have hlt : absentCount (fun n => (m.objectPaths.insert obj path).contains ⟨n⟩) <
        absentCount (fun n => m.objectPaths.contains ⟨n⟩) := by
      refine absentCount_lt (n := obj.index) (fun n hn => ?_) (by simpa using hnew) ?_
      · rw [Std.HashMap.contains_insert, hn, Bool.or_true]
      · rw [Std.HashMap.contains_insert, BEq.rfl, Bool.true_or]
    simp only [todo, List.length_append, List.length_singleton]
    omega
  · cases h

theorem todo_reachChild_le {parent name : String} {tag : Option String}
    {value : Option ObjectHandle} (h : m.reachChild parent name tag value = .ok m') :
    m'.todo ≤ m.todo := by
  unfold reachChild at h
  split at h
  · split at h
    · cases h
      exact Nat.le_refl _
    · exact todo_reach_le h
  · cases h
    exact Nat.le_refl _

theorem todo_takeProperty_le {parent : String} {p : Property}
    (h : m.takeProperty parent p = .ok m') : m'.todo ≤ m.todo := by
  unfold takeProperty at h
  split at h
  · exact todo_reachChild_le h
  · obtain ⟨v, hv, h⟩ := exists_of_bind_eq_ok h
    exact Nat.le_trans (todo_reachChild_le h) (todo_reachChild_le hv)

theorem todo_takeScope_le {body : String} {scope : ScopeHandle × Nat}
    (h : m.takeScope body scope = .ok m') : m'.todo ≤ m.todo := by
  unfold takeScope at h
  split at h
  · cases h
    exact Nat.le_refl _
  split at h
  · rename_i v hv
    obtain rfl := claim_eq_ok hv
    cases h
    exact Nat.le_refl _
  · cases h

theorem todo_takeBody_le {image : CoreImage} {owner : String} {body : BodyHandle}
    (h : m.takeBody image owner body = .ok m') : m'.todo ≤ m.todo := by
  unfold takeBody at h
  split at h
  · cases h
    exact Nat.le_refl _
  · obtain ⟨u, hu, h⟩ := exists_of_bind_eq_ok h
    obtain ⟨v, hv, h⟩ := exists_of_bind_eq_ok h
    cases h
    obtain rfl := claim_eq_ok hu
    have hle := le_of_foldlM_eq_ok todo todo_takeScope_le hv
    exact hle

theorem todo_visit_le {image : CoreImage} {obj : ObjectHandle}
    (h : m.visit image obj = .ok m') : m'.todo ≤ m.todo := by
  unfold visit at h
  obtain ⟨v, hv, h⟩ := exists_of_bind_eq_ok h
  refine Nat.le_trans ?_ (le_of_foldlM_eq_ok todo todo_takeProperty_le hv)
  split at h
  · exact todo_takeBody_le h
  · cases h
    exact Nat.le_refl _

/-- Visits the queued objects, first come first served, until none is left.  The first path that is
taken ends it. -/
def run (image : CoreImage) : MapWalk → Except Error MapWalk
  | ⟨maps, []⟩ => .ok ⟨maps, []⟩
  | ⟨maps, obj :: rest⟩ =>
    match _ : visit image obj ⟨maps, rest⟩ with
    | .ok m => run image m
    | .error e => .error e
termination_by m => m.todo
decreasing_by
  have := todo_visit_le (by assumption)
  simp only [todo, List.length_cons] at this ⊢
  omega

end MapWalk

namespace PathMaps

/-- Names the roots in the order given, and then all that can be reached from them.  What is queued
is not kept, as nothing is when the walk is over. -/
def build (image : CoreImage) (roots : List NamedRoot) : Except Error PathMaps := do
  let m ← roots.foldlM (fun (m : MapWalk) r => m.reach r.name r.object) {}
  return (← MapWalk.run image m).toPathMaps

/-- The entries of a map from targets of one kind to their paths, in whatever order they come. -/
def entries {κ : Type} [BEq κ] [Hashable κ] (make : κ → CoreTarget) (paths : HashMap κ String) :
    List CorePath :=
  paths.toList.map fun e => ⟨e.2, make e.1⟩

/-- The paths of objects, sorted.  Whatever order the map lists its entries in, the index is the
same, as no two paths are. -/
def objects (m : PathMaps) : NameIndex CorePath (·.path) := .build _ (entries .object m.objectPaths)

/-- The paths of bodies, sorted from the entries of the map as they come. -/
def bodies (m : PathMaps) : NameIndex CorePath (·.path) := .build _ (entries .body m.bodyPaths)

/-- The paths of scopes, sorted from the entries of the map as they come. -/
def scopes (m : PathMaps) : NameIndex CorePath (·.path) := .build _ (entries .scope m.scopePaths)

end PathMaps

end Retrace
