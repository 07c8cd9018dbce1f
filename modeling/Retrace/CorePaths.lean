/-
# Core paths

The outcome of a walk over the core image: which path names what, in the order of naming, and for
each kind of target an index sorted by path.  A position in an index identifies an object or a body
in a log.

These are the look-ups of the path resolver (specification, section 4.3), with the tokens that it
has for array elements and for environments, which no walk uses.
-/

import Retrace.Config
import Retrace.CorePaths.Walk
import Retrace.Order.NameIndex

namespace Retrace

/-- The paths of a core image, as a walk has named them.  They are worked out once and never change,
so positions in the indices can be written to a log. -/
structure CorePaths where
  /-- Every path with its target, in the order of naming. -/
  named : List CorePath
  /-- The paths of objects, sorted. -/
  objects : NameIndex CorePath (·.path)
  /-- The paths of bodies, sorted. -/
  bodies : NameIndex CorePath (·.path)
  /-- The paths of scopes, sorted. -/
  scopes : NameIndex CorePath (·.path)

/-- Whether a target is an object; the index of objects holds the paths of these. -/
def CoreTarget.isObject : CoreTarget → Bool
  | object _ => true
  | _ => false

/-- Whether a target is a body; the index of bodies holds the paths of these. -/
def CoreTarget.isBody : CoreTarget → Bool
  | body _ => true
  | _ => false

/-- Whether a target is a scope; the index of scopes holds the paths of these. -/
def CoreTarget.isScope : CoreTarget → Bool
  | scope _ => true
  | _ => false

namespace CorePaths

/-- Sorts what a walk has named into three indices, one for each kind of target, and keeps the order
of naming beside them. -/
def ofNamed (named : List CorePath) : CorePaths where
  named := named
  objects := .build _ (named.filter (·.target.isObject))
  bodies := .build _ (named.filter (·.target.isBody))
  scopes := .build _ (named.filter (·.target.isScope))

/-- Walks an image from its roots, and sorts what has been named.  It fails just as the walk does,
if two targets would share a path. -/
def build (image : CoreImage) (roots : List NamedRoot) : Except Error CorePaths :=
  (Walk.ofRoots image roots).map fun w => ofNamed w.named

/-- The room that is set aside for the core objects and bodies that are expected: for the paths of
each, for what the paths name, and for the paths in the order of naming. -/
def rooms (config : Config) : List Room :=
  let objects := config.coreObjectCapacity.toNat
  let bodies := config.coreBodyCapacity.toNat
  [.table objects 32, .table bodies 32, .table (objects + bodies) 32, .list (objects + bodies) 24]

/-- Walks an image from its roots, with room set aside for what it is expected to hold.  The walk
may find more, or less; what it names does not depend on the room. -/
def buildFor (config : Config) (image : CoreImage) (roots : List NamedRoot) :
    Except Error CorePaths := do
  setAside (rooms config)
  build image roots

/-- Where there can be room for what is expected, the room makes no difference. -/
theorem buildFor_of_fits {config : Config} (h : ∀ room ∈ rooms config, room.Fits)
    (image : CoreImage) (roots : List NamedRoot) :
    buildFor config image roots = build image roots := by
  rw [buildFor, setAside_eq_ok_iff.2 h]
  rfl

/-- There can be room for what is expected by default. -/
example (image : CoreImage) (roots : List NamedRoot) :
    buildFor {} image roots = build image roots := rfl

/-- The paths in the order of naming: the roots first, and what is farther from them later. -/
def traversalOrder (p : CorePaths) : List String := p.named.map (·.path)

/-- The path of a target; nothing if the walk has not come by it. -/
def pathOf? (p : CorePaths) (t : CoreTarget) : Option String :=
  (p.named.find? fun e => e.target = t).map (·.path)

/-- What a path names, of whatever kind; nothing if it is no path of the image. -/
def target? (p : CorePaths) (path : String) : Option CoreTarget :=
  (p.named.find? fun e => e.path = path).map (·.target)

/-- How many objects have a path, which is also how many the index of objects holds. -/
def objectCount (p : CorePaths) : Nat := p.named.countP (·.target.isObject)

/-- How many bodies have a path, which is also how many the index of bodies holds. -/
def bodyCount (p : CorePaths) : Nat := p.named.countP (·.target.isBody)

/-- How many scopes have a path, which is also how many the index of scopes holds. -/
def scopeCount (p : CorePaths) : Nat := p.named.countP (·.target.isScope)

/-- Whether an object belongs to the core image, that is, whether it has a path. -/
def isCoreObject (p : CorePaths) (obj : ObjectHandle) : Bool := (p.pathOf? (.object obj)).isSome

/-- The path of a core object.  For any other object the path is missing, which is an error that
need not be fatal. -/
def objectPath (p : CorePaths) (obj : ObjectHandle) : Except Error String :=
  match p.pathOf? (.object obj) with
  | some path => .ok path
  | none => .error (.notFound .corePath (toString obj))

/-- The path of a core body.  For any other body the path is missing, which is an error that need
not be fatal. -/
def bodyPath (p : CorePaths) (body : BodyHandle) : Except Error String :=
  match p.pathOf? (.body body) with
  | some path => .ok path
  | none => .error (.notFound .corePath (toString body))

/-- The path of a scope.  Most scopes of user code have none, so that is no error. -/
def scopePath? (p : CorePaths) (scope : ScopeHandle) : Option String := p.pathOf? (.scope scope)

/-- What a path names, where a path that names nothing is an error. -/
def lookupTarget (p : CorePaths) (path : String) : Except Error CoreTarget :=
  match p.target? path with
  | some t => .ok t
  | none => .error (.notFound .corePath path)

/-- The object that a path names.  A path of a body or of a scope is as good as none. -/
def lookupObject (p : CorePaths) (path : String) : Except Error ObjectHandle :=
  match p.target? path with
  | some (.object obj) => .ok obj
  | _ => .error (.notFound .corePath path)

/-- The body that a path names.  A path of an object or of a scope is as good as none. -/
def lookupBody (p : CorePaths) (path : String) : Except Error BodyHandle :=
  match p.target? path with
  | some (.body body) => .ok body
  | _ => .error (.notFound .corePath path)

/-- The scope that a path names.  A path of an object or of a body is as good as none. -/
def lookupScope (p : CorePaths) (path : String) : Except Error ScopeHandle :=
  match p.target? path with
  | some (.scope scope) => .ok scope
  | _ => .error (.notFound .corePath path)

/-- The position of a core object among the sorted objects.  Since the object has a path, not
finding it would be a violation. -/
def objectPosition (p : CorePaths) (obj : ObjectHandle) : Except Error Nat := do
  p.objects.required (← p.objectPath obj)

/-- The position of an object path that comes from outside, as from a log; nothing if no object has
that path. -/
def positionOfPath? (p : CorePaths) (path : String) : Option Nat := p.objects.position? path

/-- The position of a core body among the sorted bodies.  Since the body has a path, not finding it
would be a violation. -/
def bodyPosition (p : CorePaths) (body : BodyHandle) : Except Error Nat := do
  p.bodies.required (← p.bodyPath body)

/-- The object at a position among the sorted objects, where a position beyond the end is an
error. -/
def objectAt (p : CorePaths) (position : Nat) : Except Error ObjectHandle :=
  match (p.objects.get? position).map CorePath.target with
  | some (.object obj) => .ok obj
  | _ => .error (.notFound .corePath s!"position {position}")

/-- All paths with their targets: objects, then bodies, then scopes, each sorted by path.  The
inspector prints them in this order. -/
def sorted (p : CorePaths) : List CorePath :=
  p.objects.toList ++ p.bodies.toList ++ p.scopes.toList

/-- The mark of a target, of the kind that the target has and of no other. -/
def mark : CoreTarget → Marks
  | .object obj => { objects := [obj] }
  | .body body => { bodies := [body] }
  | .scope scope => { scopes := [scope] }

/-- Every target, marked in sorted order, so that the collector keeps the whole core image. -/
def marks (p : CorePaths) : Marks := p.sorted.foldl (fun m e => m ++ mark e.target) {}

end CorePaths

end Retrace
