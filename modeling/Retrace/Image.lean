/-
# What the engine shows

Objects, bodies and scopes belong to the engine.  It shows them in three narrow views:

| view | shows |
| --- | --- |
| `CoreImage` | the own properties of an object, its body, the scopes of a body |
| `CodeLoader` | forced parsing of a body, what it then nests, its source name |
| `Marks` | what the collector is told to keep, in the order told |

The views are the interfaces `CoreImage`, `CodeLoader` and `MarkVisitor` of the specification
(section 6).
-/

import Retrace.Error

namespace Retrace

/-- What an own property holds: a plain value, or a pair of functions that are called instead.  Only
objects matter here, and a primitive value is none. -/
inductive PropertyValue where
  /-- A plain value; nothing for a primitive one. -/
  | data (value : Option ObjectHandle)
  /-- A getter and a setter, of which either may be missing. -/
  | accessor (getter setter : Option ObjectHandle)
deriving DecidableEq

/-- The objects that a property leads to: the value, or the getter and then the setter.  The walk
over the image takes them in this order. -/
def PropertyValue.targets : PropertyValue → List ObjectHandle
  | data value => value.toList
  | accessor getter setter => getter.toList ++ setter.toList

/-- An own property of an object, as the engine enumerates it.  Names need not be unique, as far as
an image says. -/
structure Property where
  /-- Its name. -/
  name : String
  /-- What it holds. -/
  value : PropertyValue
deriving DecidableEq

/-- An object under a name, where a walk over the image begins.  The name is the first part of every
path below it. -/
structure NamedRoot where
  /-- The first part of every path below it. -/
  name : String
  /-- The root object. -/
  object : ObjectHandle
deriving DecidableEq

/-- Read access to the graph of built-in objects.  What it answers for a handle that leads nowhere
is up to the engine. -/
structure CoreImage where
  /-- The own properties of an object, in the order of the engine. -/
  ownProperties : ObjectHandle → List Property
  /-- The body of an object that can be called. -/
  functionBody : ObjectHandle → Option BodyHandle
  /-- The debugger scopes of a body, by slot. -/
  debuggerScopes : BodyHandle → List ScopeHandle

/-- Access to a parser whose state is a `σ`.  Parsing may fail, and may change what the parser shows
of other bodies too. -/
structure CodeLoader (σ : Type) where
  /-- Parses a body fully, if that was put off. -/
  forceParse : BodyHandle → Action σ Unit
  /-- The bodies declared directly in a body; complete once it is parsed. -/
  nestedBodies : σ → BodyHandle → List BodyHandle
  /-- The source name of a body, if it has one. -/
  sourceName : σ → BodyHandle → Option String

/-- A loader that refuses to parse certain bodies and is otherwise as before.  It stands for an
engine whose parser fails, whatever the reason. -/
def CodeLoader.refusing {σ : Type} (loader : CodeLoader σ) (refused : List BodyHandle) :
    CodeLoader σ where
  forceParse body s :=
    if body ∈ refused then .error (.violation (.reported s!"cannot parse {body}")) s
    else loader.forceParse body s
  nestedBodies := loader.nestedBodies
  sourceName := loader.sourceName

/-- What the collector is told to keep, each kind in the order told and with repetitions.  It takes
no harm from being told something twice. -/
structure Marks where
  /-- Marked objects. -/
  objects : List ObjectHandle := []
  /-- Marked bodies. -/
  bodies : List BodyHandle := []
  /-- Marked scopes. -/
  scopes : List ScopeHandle := []
deriving DecidableEq

/-- First the marks of the one, then those of the other. -/
instance : Append Marks where
  append a b := ⟨a.objects ++ b.objects, a.bodies ++ b.bodies, a.scopes ++ b.scopes⟩

end Retrace
