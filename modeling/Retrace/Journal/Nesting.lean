/-
# Nested code

Before a body is known, everything nested in it, directly or not, has to be parsed and given its
lexical parent.  The search keeps a stack of bodies to open; a body that is known already, or found
earlier in the same search, keeps the parent that it has.  The search ends because each body is
stacked at most once and there are finitely many handles (`Search.todo`).

This is *force-load for tracking* of the context journal (specification, section 4.2), up to where
the parents found are added.
-/

import Retrace.OrderedMap
import Retrace.Image

namespace Retrace

/-- A search for nested bodies under way.  Nothing of it is in the journal yet, so that a parser
that fails halfway leaves no trace there. -/
structure Search where
  /-- The bodies still to be opened; the one on top is next. -/
  stack : List BodyHandle
  /-- The bodies found so far, with the body that nests each. -/
  found : OrderedMap BodyHandle BodyHandle := .empty

namespace Search

/-- Notes a body as nested in another and stacks it, unless it is known or was found before.  So the
first body that is found to nest it is its parent. -/
def note (known : BodyHandle → Bool) (parent : BodyHandle) (s : Search) (child : BodyHandle) :
    Search :=
  if known child || s.found.contains child then s
  else ⟨child :: s.stack, s.found.insert child parent⟩

/-- Notes all bodies that a body nests, in the order in which the parser lists them. -/
def noteAll (known : BodyHandle → Bool) (parent : BodyHandle) (children : List BodyHandle)
    (s : Search) : Search :=
  children.foldl (note known parent) s

/-- How many steps a search has left at most: bodies not found, and bodies on the stack.  A body is
stacked only when it is found. -/
def todo (s : Search) : Nat := absentCount (fun n => s.found.contains ⟨n⟩) + s.stack.length

theorem todo_note_le (known : BodyHandle → Bool) (parent : BodyHandle) (s : Search)
    (child : BodyHandle) : (note known parent s child).todo ≤ s.todo := by
  unfold note
  split
  · exact Nat.le_refl _
  rename_i h
  simp only [Bool.or_eq_true, not_or, Bool.not_eq_true] at h
  have hlt : absentCount (fun n => (s.found.insert child parent).contains ⟨n⟩) <
      absentCount (fun n => s.found.contains ⟨n⟩) := by
    refine absentCount_lt (n := child.index) (fun n hn => ?_) h.2 ?_
    · simp only [OrderedMap.contains_insert, hn, Bool.or_true]
    · simp [OrderedMap.contains_insert]
  simp only [todo, List.length_cons]
  omega

theorem todo_noteAll_le (known : BodyHandle → Bool) (parent : BodyHandle)
    (children : List BodyHandle) (s : Search) : (noteAll known parent children s).todo ≤ s.todo := by
  unfold noteAll
  induction children generalizing s with
  | nil => exact Nat.le_refl _
  | cons c cs ih => exact Nat.le_trans (ih _) (todo_note_le known parent s c)

/-- Opens the stacked bodies, parsing each and noting what it nests, until none is left.  The body
stacked last is opened first. -/
def run {σ : Type} (loader : CodeLoader σ) (known : BodyHandle → Bool) :
    Search → Action σ (OrderedMap BodyHandle BodyHandle)
  | ⟨[], found⟩ => fun st => .ok found st
  | ⟨body :: stack, found⟩ => fun st =>
    match loader.forceParse body st with
    | .error e st => .error e st
    | .ok _ st =>
      run loader known (noteAll known body (loader.nestedBodies st body) ⟨stack, found⟩) st
termination_by s => s.todo
decreasing_by
  have := todo_noteAll_le known body (loader.nestedBodies st body) ⟨stack, found⟩
  simp only [todo, List.length_cons] at this ⊢
  omega

end Search

/-- The lexical parents of all bodies nested in a body that are not known yet.  The body itself is
parsed too, and its own parent is not asked for. -/
def nestedParents {σ : Type} (loader : CodeLoader σ) (known : BodyHandle → Bool)
    (body : BodyHandle) : Action σ (OrderedMap BodyHandle BodyHandle) :=
  Search.run loader known ⟨[body], .empty⟩

end Retrace
