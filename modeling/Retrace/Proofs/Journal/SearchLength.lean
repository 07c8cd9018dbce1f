/-
# How long a search is

A search for nested bodies opens each body that it finds once, and the one that it began with once
more if that is found as well.  So it ends after as many bodies as may be nested in that one, directly
or not, and one (`search_ends`), however often bodies are shared and whichever of them nest each other,
and whatever the number of handles is.

What a body nests may come to light only when it is parsed, so that what may be nested is told by what
the parser may show from the start of the search on (`CodeLoader.MayNest`).

The specification has every nested body found, transitively (section 4.2), and takes for granted
that the search ends.
-/

import Mathlib.Data.Finset.Card
import Retrace.Proofs.Journal.SteadyCode

namespace Retrace

namespace CodeLoader

variable {σ : Type}

/-- A parser may come from one state to the other by parsing bodies with success, one after
another. -/
def Parses (loader : CodeLoader σ) : σ → σ → Prop :=
  Relation.ReflTransGen fun st st' => ∃ body, loader.forceParse body st = .ok () st'

/-- When a body has been parsed, in a certain state or later on, the other one may be shown nested
directly in it. -/
def MayNest (loader : CodeLoader σ) (st : σ) (outer inner : BodyHandle) : Prop :=
  ∃ st₁ st₂, loader.Parses st st₁ ∧ loader.forceParse outer st₁ = .ok () st₂ ∧
    inner ∈ loader.nestedBodies st₂ outer

/-- What may be shown of steady code is what that nests. -/
theorem Shows.nests_of_mayNest {loader : CodeLoader σ} {code : NestedCode} {good : σ → Prop}
    (hl : loader.Shows code good) {st : σ} (hg : good st) {outer inner : BodyHandle}
    (h : loader.MayNest st outer inner) : code.Nests outer inner := by
  obtain ⟨st₁, st₂, hparses, hp, hi⟩ := h
  have hg₁ : good st₁ := by
    clear hp
    induction hparses with
    | refl => exact hg
    | tail _ hstep ih =>
      obtain ⟨body, hp⟩ := hstep
      exact (hl.of_ok ih hp).2.2
  rwa [(hl.of_ok hg₁ hp).2.1] at hi

end CodeLoader

namespace Search

variable {σ : Type} {loader : CodeLoader σ} {known : BodyHandle → Bool}
  {bodies : Finset BodyHandle}

/-- How many of certain bodies a search has not found, and how many bodies it has stacked: what it
has left to do, as long as it finds no others. -/
def todoAmong (bodies : Finset BodyHandle) (s : Search) : Nat :=
  (bodies.filter fun b => s.found.contains b = false).card + s.stack.length

/-- What is stacked has just been found. -/
theorem todoAmong_note_le (known : BodyHandle → Bool) (parent : BodyHandle) {child : BodyHandle}
    (hc : child ∈ bodies) (s : Search) :
    (note known parent s child).todoAmong bodies ≤ s.todoAmong bodies := by
  by_cases hseen : known child = true ∨ s.found.contains child = true
  · rw [note_of_seen hseen]
  · obtain ⟨hk, hf⟩ := not_or.1 hseen
    rw [Bool.not_eq_true] at hk hf
    rw [note_of_new hk hf]
    have hmem : child ∈ bodies.filter fun b => s.found.contains b = false :=
      Finset.mem_filter.2 ⟨hc, hf⟩
    have hsub : (bodies.filter fun b => (s.found.insert child parent).contains b = false) ⊆
        (bodies.filter fun b => s.found.contains b = false).erase child := by
      intro b hb
      obtain ⟨hb, hnew⟩ := Finset.mem_filter.1 hb
      rw [← Bool.not_eq_true, OrderedMap.contains_insert_iff, not_or, Bool.not_eq_true] at hnew
      exact Finset.mem_erase.2 ⟨Ne.symm hnew.1, Finset.mem_filter.2 ⟨hb, hnew.2⟩⟩
    have hle := Finset.card_le_card hsub
    have hpos := Finset.card_pos.2 ⟨child, hmem⟩
    rw [Finset.card_erase_of_mem hmem] at hle
    simp only [todoAmong, List.length_cons]
    omega

theorem todoAmong_noteAll_le (known : BodyHandle → Bool) (parent : BodyHandle)
    {children : List BodyHandle} (hc : ∀ b ∈ children, b ∈ bodies) (s : Search) :
    (noteAll known parent children s).todoAmong bodies ≤ s.todoAmong bodies := by
  induction children generalizing s with
  | nil => exact Nat.le_refl _
  | cons child rest ih =>
    exact Nat.le_trans (ih (fun b hb => hc b (List.mem_cons_of_mem child hb)) _)
      (todoAmong_note_le known parent (hc child List.mem_cons_self) s)

/-- What is stacked when a body has been opened was stacked before, or is nested in it. -/
theorem mem_stack_noteAll {parent b : BodyHandle} {children : List BodyHandle} {s : Search}
    (h : b ∈ (noteAll known parent children s).stack) : b ∈ s.stack ∨ b ∈ children := by
  induction children generalizing s with
  | nil => exact .inl h
  | cons child rest ih =>
    rcases ih (s := note known parent s child) h with hb | hb
    · unfold note at hb
      split at hb
      · exact .inl hb
      · rcases List.mem_cons.1 hb with rfl | hb
        · exact .inr List.mem_cons_self
        · exact .inl hb
    · exact .inr (List.mem_cons_of_mem child hb)

/-- A run ends, or is refused, after as many bodies as it has to do. -/
theorem runUpTo_of_todoAmong_le {root : BodyHandle} {st₀ : σ}
    (hbodies : ∀ b, Relation.TransGen (loader.MayNest st₀) root b → b ∈ bodies) (n : Nat)
    {s : Search} {st : σ} (hst : loader.Parses st₀ st)
    (hstack : ∀ b ∈ s.stack, Relation.ReflTransGen (loader.MayNest st₀) root b)
    (hn : s.todoAmong bodies ≤ n) :
    (∃ found st', runUpTo loader known n s st = .ok ⟨[], found⟩ st') ∨
      ∃ e st', runUpTo loader known n s st = .error e st' := by
  induction n generalizing s st with
  | zero =>
    obtain ⟨stack, found⟩ := s
    obtain rfl : stack = [] := List.length_eq_zero_iff.1 (Nat.le_zero.1 (Nat.le_trans
      (Nat.le_add_left _ _) hn))
    exact .inl ⟨found, st, rfl⟩
  | succ n ih =>
    obtain ⟨stack, found⟩ := s
    cases stack with
    | nil => exact .inl ⟨found, st, runUpTo_nil loader known _ found st⟩
    | cons body stack =>
      cases hp : loader.forceParse body st with
      | error e st₁ => exact .inr ⟨e, st₁, runUpTo_cons_of_error hp n stack found⟩
      | ok _ st₁ =>
        rw [runUpTo_cons_of_ok hp]
        have hbody := hstack body List.mem_cons_self
        have hnested : ∀ b ∈ loader.nestedBodies st₁ body,
            Relation.TransGen (loader.MayNest st₀) root b :=
          fun b hb => .tail' hbody ⟨st, st₁, hst, hp, hb⟩
        refine ih (hst.tail ⟨body, hp⟩) (fun b hb => ?_) ?_
        · rcases mem_stack_noteAll hb with hb | hb
          · exact hstack b (List.mem_cons_of_mem body hb)
          · exact (hnested b hb).to_reflTransGen
        · have hle := todoAmong_noteAll_le known body (fun b hb => hbodies b (hnested b hb))
            ⟨stack, found⟩
          simp only [todoAmong, List.length_cons] at hn hle ⊢
          omega

end Search

/-- A search ends after at most so many bodies, with all found or at one that is refused. -/
def SearchEndsWithin {σ : Type} (loader : CodeLoader σ) (known : BodyHandle → Bool)
    (root : BodyHandle) (st : σ) (n : Nat) : Prop :=
  (∃ found st', Search.runUpTo loader known n ⟨[root], .empty⟩ st = .ok ⟨[], found⟩ st' ∧
      nestedParents loader known root st = .ok found st') ∨
    ∃ e st', Search.runUpTo loader known n ⟨[root], .empty⟩ st = .error e st' ∧
      nestedParents loader known root st = .error e st'

/-- **A search ends after as many bodies as may be nested in the first one, and one**, or before, at a
body that is refused. -/
theorem search_ends {σ : Type} (loader : CodeLoader σ) (known : BodyHandle → Bool)
    (root : BodyHandle) (st : σ) {bodies : Finset BodyHandle}
    (hbodies : ∀ b, Relation.TransGen (loader.MayNest st) root b → b ∈ bodies) :
    SearchEndsWithin loader known root st (bodies.card + 1) := by
  have htodo : Search.todoAmong bodies ⟨[root], .empty⟩ ≤ bodies.card + 1 :=
    Nat.add_le_add_right (Finset.card_filter_le _ _) 1
  have hstack : ∀ b ∈ [root], Relation.ReflTransGen (loader.MayNest st) root b := fun b hb => by
    rw [List.mem_singleton.1 hb]
  rcases Search.runUpTo_of_todoAmong_le (s := ⟨[root], .empty⟩) hbodies (bodies.card + 1) .refl
    hstack htodo with ⟨found, st', he⟩ | ⟨e, st', he⟩
  · exact .inl ⟨found, st', he, Search.run_of_runUpTo he⟩
  · exact .inr ⟨e, st', he, Search.run_of_runUpTo_error he⟩

end Retrace
