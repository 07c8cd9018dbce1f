/-
# The arena

An arena keeps a whole image: objects, bodies, scopes and named roots, each named by its position.
It serves as a `CoreImage` and as a `CodeLoader`, and is the in-memory image that the specification
of the identity core gives to tests and to the inspector (section 6).

| builder | gives | breaks off when |
| --- | --- | --- |
| `allocObject` | a new object | its handle is beyond 32 bits |
| `allocBody` | a new body | its handle is beyond 32 bits |
| `allocFunction` | a new body and a new object that has it | either handle is beyond 32 bits |
| `defineProperty` | | there is no such object |
| `addNestedBody` | | there is no such parent |
| `addScope` | a new scope of a body | there is no such body, or the counter of scopes is at its end |
| `addRoot` | | |

A call that breaks off yields nothing.  Whether a number that leaves its range makes a call break off
depends on how the program is built (`Overflow`): without checks the number wraps around, and the
call goes on with it.  Handles given to a builder may lead out of the arena; `validate` finds the
first one that does.
-/

import Retrace.Image

namespace Retrace

/-- What becomes of a 32-bit number that leaves its range.  A program is built in one of the two ways,
and all of its arithmetic then goes that way. -/
inductive Overflow where
  /-- The call that needs the number breaks off. -/
  | checked
  /-- The number wraps around, and the call goes on with it. -/
  | wrapping
deriving DecidableEq

namespace Overflow

/-- The number after another one; nothing if the call breaks off, as it does after the last number
in a program that checks. -/
def succ? (o : Overflow) (n : UInt32) : Option UInt32 :=
  if o = .checked ∧ n = 0xffffffff then none else some (n + 1)

/-- The number before another one; nothing if the call breaks off, as it does before zero in a
program that checks. -/
def pred? (o : Overflow) (n : UInt32) : Option UInt32 :=
  if o = .checked ∧ n = 0 then none else some (n - 1)

end Overflow

/-- An object of an arena, with all that an image shows of it. -/
structure ArenaObject where
  /-- Its own properties, oldest first. -/
  properties : List Property := []
  /-- Its body, if it can be called. -/
  body : Option BodyHandle := none
deriving DecidableEq

/-- A function body of an arena, with all that a loader and an image show of it. -/
structure ArenaBody where
  /-- Its source name. -/
  sourceName : Option String := none
  /-- Whether parsing it was put off; what it nests stays hidden until then. -/
  deferred : Bool := false
  /-- The bodies that it nests directly. -/
  nested : List BodyHandle := []
  /-- Its debugger scopes, by slot. -/
  scopes : List ScopeHandle := []
deriving DecidableEq

/-- Objects, bodies and scopes that are named by their positions.  Nothing is ever taken out, so a
handle that leads into an arena goes on doing so.  Of scopes nothing is kept but how many there
are. -/
structure Arena where
  /-- The objects. -/
  objects : Array ArenaObject := #[]
  /-- The bodies. -/
  bodies : Array ArenaBody := #[]
  /-- How many scopes there are. -/
  scopeCount : UInt32 := 0
  /-- The named roots, oldest first. -/
  roots : List NamedRoot := []
  /-- How many parses have been forced. -/
  parseCount : Nat := 0
deriving DecidableEq

namespace Arena

/-- The object of a handle; nothing if the handle leads out of the arena. -/
def object? (a : Arena) (obj : ObjectHandle) : Option ArenaObject := a.objects[obj.index.toNat]?

/-- The body of a handle; nothing if the handle leads out of the arena. -/
def body? (a : Arena) (body : BodyHandle) : Option ArenaBody := a.bodies[body.index.toNat]?

/-- Adds an object without properties.  Its handle is the number of objects there are then, in 32
bits, less one; nobody asks before whether that is a handle of its own. -/
def allocObject (o : Overflow) (a : Arena) : Option (ObjectHandle × Arena) :=
  let objects := a.objects.push {}
  (o.pred? objects.size.toUInt32).map fun index => (⟨index⟩, { a with objects })

/-- Adds a body with a source name, if it has one, and with parsing put off or not.  It has its
handle as objects have theirs. -/
def allocBody (o : Overflow) (a : Arena) (sourceName : Option String) (deferred : Bool) :
    Option (BodyHandle × Arena) :=
  let bodies := a.bodies.push { sourceName, deferred }
  (o.pred? bodies.size.toUInt32).map fun index => (⟨index⟩, { a with bodies })

/-- Adds a body, which is parsed and has no source name, and an object that has it. -/
def allocFunction (o : Overflow) (a : Arena) : Option ((ObjectHandle × BodyHandle) × Arena) := do
  let (body, a) ← a.allocBody o none false
  let (obj, a) ← a.allocObject o
  let objects := a.objects.modify obj.index.toNat fun e => { e with body := some body }
  return ((obj, body), { a with objects })

/-- Own properties with one defined: in place of the first one of its name, else as the last.  So no
name is defined twice, unless it was before. -/
def redefine (p : Property) : List Property → List Property
  | [] => [p]
  | q :: rest => if q.name = p.name then p :: rest else q :: redefine p rest

/-- Defines an own property of an object, which has to be there.  What the property leads to is not
looked at. -/
def defineProperty (a : Arena) (obj : ObjectHandle) (p : Property) : Option Arena :=
  (a.object? obj).map fun o =>
    let o := { o with properties := redefine p o.properties }
    { a with objects := a.objects.setIfInBounds obj.index.toNat o }

/-- Replaces the body of a handle; an arena without it stays as it is. -/
def setBody (a : Arena) (body : BodyHandle) (b : ArenaBody) : Arena :=
  { a with bodies := a.bodies.setIfInBounds body.index.toNat b }

/-- Declares a body as nested directly in another, which has to be there, after those that it nests
already. -/
def addNestedBody (a : Arena) (parent child : BodyHandle) : Option Arena :=
  (a.body? parent).map fun b => a.setBody parent { b with nested := b.nested ++ [child] }

/-- Gives a body a further scope, numbered by a 32-bit counter that is counted up first. -/
def addScope (o : Overflow) (a : Arena) (body : BodyHandle) : Option (ScopeHandle × Arena) := do
  let scopeCount ← o.succ? a.scopeCount
  let b ← a.body? body
  let scope : ScopeHandle := ⟨a.scopeCount⟩
  let a := a.setBody body { b with scopes := b.scopes ++ [scope] }
  return (scope, { a with scopeCount })

/-- Adds a named root, after those there are.  Neither the name nor the object is looked at. -/
def addRoot (a : Arena) (name : String) (object : ObjectHandle) : Arena :=
  { a with roots := a.roots ++ [⟨name, object⟩] }

/-- Whether a body is there and fully parsed; a body whose parsing was put off is not. -/
def isParsed (a : Arena) (body : BodyHandle) : Bool := (a.body? body).any fun b => !b.deferred

/-- The own properties of an object, oldest first; none for a handle that leads nowhere. -/
def ownProperties (a : Arena) (obj : ObjectHandle) : List Property :=
  ((a.object? obj).map (·.properties)).getD []

/-- The body of an object, if it is there and can be called. -/
def functionBody (a : Arena) (obj : ObjectHandle) : Option BodyHandle :=
  (a.object? obj).bind (·.body)

/-- The debugger scopes of a body, by slot; none for a handle that leads nowhere. -/
def debuggerScopes (a : Arena) (body : BodyHandle) : List ScopeHandle :=
  ((a.body? body).map (·.scopes)).getD []

/-- The source name of a body, if it is there and has one. -/
def sourceName (a : Arena) (body : BodyHandle) : Option String := (a.body? body).bind (·.sourceName)

/-- What a body nests directly, in the order declared; nothing as long as it is not parsed, and
nothing for a handle that leads nowhere. -/
def nestedBodies (a : Arena) (body : BodyHandle) : List BodyHandle :=
  match a.body? body with
  | some b => if b.deferred then [] else b.nested
  | none => []

/-- Parses a body fully, counting the parse if it had been put off.  What is parsed already is not
parsed again, and a handle that leads nowhere is an error. -/
def forceParse (body : BodyHandle) : Action Arena Unit := fun a =>
  match a.body? body with
  | none => .error (.notFound .functionBody (toString body)) a
  | some b =>
    if b.deferred then
      let a := a.setBody body { b with deferred := false }
      .ok () { a with parseCount := a.parseCount + 1 }
    else .ok () a

/-- The arena as a graph of built-in objects, which shows all objects in it and not only those that
roots lead to. -/
def image (a : Arena) : CoreImage := ⟨a.ownProperties, a.functionBody, a.debuggerScopes⟩

/-- The arena as a parser.  Its state is the arena itself, since a parse that had been put off is
remembered there. -/
def loader : CodeLoader Arena := ⟨forceParse, nestedBodies, sourceName⟩

/-- The first violation of an object: a property target or the body that is not in the arena.
Properties are gone through from the oldest on. -/
def objectViolation? (a : Arena) (owner : Nat) (o : ArenaObject) : Option Violation :=
  (o.properties.findSome? fun p =>
      (p.value.targets.find? fun t => a.objects.size ≤ t.index.toNat).map fun t =>
        Violation.danglingProperty p.name owner t).or
    ((o.body.filter fun b => a.bodies.size ≤ b.index.toNat).map fun b => .danglingBody owner b)

/-- The first violation of a body: a nested body or a scope that is not in the arena.  A scope is in
the arena if its number is below the counter. -/
def bodyViolation? (a : Arena) (owner : Nat) (b : ArenaBody) : Option Violation :=
  ((b.nested.find? fun n => a.bodies.size ≤ n.index.toNat).map fun n =>
      Violation.danglingNested owner n).or
    ((b.scopes.find? fun s => a.scopeCount ≤ s.index).map fun s => .danglingScope owner s)

/-- The first violation of the arena: objects come first, then bodies, then roots, each in the order
of their positions. -/
def violation? (a : Arena) : Option Violation :=
  (a.objects.toList.zipIdx.findSome? fun o => a.objectViolation? o.2 o.1).or <|
    (a.bodies.toList.zipIdx.findSome? fun b => a.bodyViolation? b.2 b.1).or <|
      (a.roots.find? fun r => a.objects.size ≤ r.object.index.toNat).map fun r =>
        Violation.danglingRoot r.name r.object

/-- Checks that every handle in the arena leads into it.  An arena that is read from a file has to
pass, and one that is built never asks (`Construction.soundFor_iff`). -/
def validate (a : Arena) : Except Error Unit :=
  match a.violation? with
  | some v => .error (.violation v)
  | none => .ok ()

end Arena

end Retrace
