/-
# The journal of a context

A journal remembers what a replay needs and cannot observe:

| part | holds |
| --- | --- |
| `pending` | asynchronous buffer writes that have not landed |
| `lists`, `topLevelBodies` | the top-level code that was loaded: listed by origin, and its bodies |
| `parents` | the lexical parent of every body seen in that code |
| `pinnedBodies`, `weakPins` | what the collector is to keep for this context |

A call that fails leaves the journal as it was; a loader keeps what it has parsed by then.

The calls are those of the context journal (specification, section 4.2), one for one.
-/

import Retrace.PinSet
import Retrace.Journal.Nesting

namespace Retrace

/-- An asynchronous write into a buffer that has been scheduled.  How much it will write shows only
when it has landed. -/
structure AsyncWrite where
  /-- The buffer. -/
  buffer : ObjectHandle
  /-- The offset at which the write starts. -/
  start : UInt64
deriving DecidableEq

/-- An asynchronous write that has landed: the record of its scheduling, and where it ended. -/
structure CompletedWrite where
  /-- The buffer. -/
  buffer : ObjectHandle
  /-- The offset at which the write started. -/
  start : UInt64
  /-- The position at which it ended. -/
  final : UInt64
deriving DecidableEq

/-- How top-level code came about: as a script, by the dynamic function constructor, or by an
evaluation. -/
inductive CodeOrigin where
  /-- Loaded by the host as a script. -/
  | script
  /-- Made by the dynamic function constructor. -/
  | newFunction
  /-- Compiled by an eval. -/
  | eval
deriving DecidableEq

/-- The word for an origin, as it is written for people. -/
def CodeOrigin.name : CodeOrigin → String
  | .script => "script"
  | .newFunction => "new-function"
  | .eval => "eval"

instance : ToString CodeOrigin := ⟨CodeOrigin.name⟩

/-- Top-level code that has been loaded, with what a replay needs to load the same code at the same
point. -/
structure LoadedCode where
  /-- Its body. -/
  body : BodyHandle
  /-- How it came about. -/
  origin : CodeOrigin
  /-- The body counter of the host at that time. -/
  counter : UInt64
  /-- Its source name, if it has one. -/
  sourceName : Option String
deriving DecidableEq

/-- Top-level code in three independent lists, to which code is only ever appended; each origin has
a list of its own. -/
structure CodeLists where
  /-- Scripts that the host has loaded, oldest first. -/
  scripts : List LoadedCode := []
  /-- What the dynamic function constructor has made, oldest first. -/
  newFunctions : List LoadedCode := []
  /-- What evals have compiled, oldest first. -/
  evals : List LoadedCode := []

namespace CodeLists

/-- The list of one origin, oldest first.  What another origin has is not in it. -/
def of (l : CodeLists) : CodeOrigin → List LoadedCode
  | .script => l.scripts
  | .newFunction => l.newFunctions
  | .eval => l.evals

/-- All code: scripts, then dynamic functions, then evals, each oldest first.  Between origins the
order of loading is lost. -/
def all (l : CodeLists) : List LoadedCode := l.scripts ++ l.newFunctions ++ l.evals

/-- Appends code to the list of its origin; the two other lists stay as they are. -/
def add (l : CodeLists) (code : LoadedCode) : CodeLists :=
  match code.origin with
  | .script => { l with scripts := l.scripts ++ [code] }
  | .newFunction => { l with newFunctions := l.newFunctions ++ [code] }
  | .eval => { l with evals := l.evals ++ [code] }

end CodeLists

/-- The journal of one execution context.  It is made with the context and goes with it; a context
that is made again begins with an empty one. -/
structure Journal where
  /-- The context. -/
  context : ContextId
  /-- Writes that have not landed, oldest first. -/
  pending : List AsyncWrite := []
  /-- Top-level code by origin. -/
  lists : CodeLists := {}
  /-- The bodies of top-level code of any origin. -/
  topLevelBodies : OrderedMap BodyHandle Unit := .empty
  /-- The lexical parent of every body seen; top-level code has none. -/
  parents : OrderedMap BodyHandle (Option BodyHandle) := .empty
  /-- Bodies pinned for this context. -/
  pinnedBodies : PinSet BodyHandle := .empty
  /-- Objects pinned for weak collections of this context. -/
  weakPins : PinSet ObjectHandle := .empty

namespace Journal

/-! ## Asynchronous writes -/

/-- Remembers a write that has been scheduled, after those that have been before.  The same write
may be scheduled twice. -/
def scheduleWrite (j : Journal) (buffer : ObjectHandle) (start : UInt64) : Journal :=
  { j with pending := j.pending ++ [⟨buffer, start⟩] }

/-- Where the writes into a buffer start that may have ended at a position: at the position or
before it. -/
def candidateStarts (j : Journal) (buffer : ObjectHandle) (final : UInt64) : List UInt64 :=
  (j.pending.filter fun w => w.buffer = buffer ∧ w.start ≤ final).map (·.start)

/-- Takes out the write into a buffer that ended at a position: of those that start at or before it
the one that starts closest, and of several such the oldest. -/
def completeWrite (buffer : ObjectHandle) (final : UInt64) : Action Journal CompletedWrite :=
  fun j =>
    match (j.candidateStarts buffer final).max? with
    | none => .error (.notFound .asyncWrite s!"{buffer}@{final}") j
    | some start =>
      .ok ⟨buffer, start, final⟩ { j with pending := j.pending.erase ⟨buffer, start⟩ }

/-- Forgets the writes that have not landed, as after a snapshot has been restored. -/
def clearPending (j : Journal) : Journal := { j with pending := [] }

/-! ## Loaded code -/

/-- The top-level code of one origin, oldest first, as the snapshot writer reads it. -/
def loadsOf (j : Journal) (origin : CodeOrigin) : List LoadedCode := j.lists.of origin

/-- All top-level code: scripts, then dynamic functions, then evals, as the look-up by source name
goes through it. -/
def loadedCode (j : Journal) : List LoadedCode := j.lists.all

/-- Whether a body has been registered as top-level code, under whatever origin.  This is a set of
its own and not read off the lists. -/
def isTopLevel (j : Journal) (body : BodyHandle) : Bool := j.topLevelBodies.contains body

/-- Adds lexical parents that have been found.  A body that had a parent before is given the new
one, so whoever calls this leaves known bodies out. -/
def adopt (j : Journal) (found : OrderedMap BodyHandle BodyHandle) : Journal :=
  { j with parents := j.parents.insertAll (found.entries.map fun e => (e.1, some e.2)) }

/-- Adds top-level code: it is listed by its origin, its body has no parent, and is pinned. -/
def addLoad (j : Journal) (code : LoadedCode) : Journal :=
  { j with
    lists := j.lists.add code
    topLevelBodies := j.topLevelBodies.insert code.body ()
    parents := j.parents.insert code.body none
    pinnedBodies := (j.pinnedBodies.pin code.body).2 }

/-- Registers top-level code and all that it nests.  If the body is registered already nothing is
done, not even a parse, and the answer is no.  If a parse fails the journal stays as it was. -/
def registerCode {σ : Type} (loader : CodeLoader σ) (origin : CodeOrigin) (body : BodyHandle)
    (counter : UInt64) : Action (Journal × σ) Bool := fun (j, st) =>
  if j.isTopLevel body then .ok false (j, st)
  else
    let code : LoadedCode := ⟨body, origin, counter, loader.sourceName st body⟩
    match nestedParents loader j.parents.contains body st with
    | .error e st => .error e (j, st)
    | .ok found st => .ok true ((j.adopt found).addLoad code, st)

/-- Parses a body and all that it nests, and remembers the parents.  The body itself gets no parent
by this, since it need not be top-level code. -/
def forceLoad {σ : Type} (loader : CodeLoader σ) (body : BodyHandle) : Action (Journal × σ) Unit :=
  fun (j, st) =>
    match nestedParents loader j.parents.contains body st with
    | .error e st => .error e (j, st)
    | .ok found st => .ok () (j.adopt found, st)

/-- The lexical parent of a body, where top-level code has none.  A body that the journal has never
seen is an error, which need not be fatal. -/
def parent (j : Journal) (body : BodyHandle) : Except Error (Option BodyHandle) :=
  match j.parents.get? body with
  | some p => .ok p
  | none => .error (.notFound .functionBody (toString body))

/-- The first top-level body with a source name, in the order of `loadedCode`.  Code with one name
cannot be told apart, so the answer is the best guess and no more. -/
def bodyOfSource? (j : Journal) (sourceName : String) : Option BodyHandle :=
  (j.loadedCode.find? fun c => c.sourceName = some sourceName).map (·.body)

/-- Forgets all loaded code, the parents and the pins of bodies at once, as before a snapshot is
restored.  Writes and weak pins stay. -/
def clearLoads (j : Journal) : Journal :=
  { j with
    lists := {}
    topLevelBodies := .empty
    parents := .empty
    pinnedBodies := .empty }

/-! ## Pins -/

/-- Keeps an object that a weak collection holds, for as long as the context lives or until the pin
is given back. -/
def pinWeak (j : Journal) (obj : ObjectHandle) : Journal :=
  { j with weakPins := (j.weakPins.pin obj).2 }

/-- Gives one such pin back and tells whether there was one to be given back. -/
def unpinWeak (j : Journal) (obj : ObjectHandle) : Bool × Journal :=
  let (remaining, pins) := j.weakPins.unpin obj
  (remaining.isSome, { j with weakPins := pins })

/-- What the collector is to keep for this context: the bodies of loaded code, and the objects that
weak collections hold. -/
def marks (j : Journal) : Marks :=
  { bodies := j.pinnedBodies.handles, objects := j.weakPins.handles }

end Journal

end Retrace
