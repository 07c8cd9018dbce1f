/-
# What a search for nested bodies finds

A search opens one body after another and notes what each nests.  Whatever the loader answers, the
parents that it ends with form a tree below the body that it began with: what it has found was not
known before, and leads up to that body (`nestedParents_spec`).

| law | says |
| --- | --- |
| `noted_noteAll` | what noting the bodies that a body nests makes of a search |
| `run_cases` | what opening a body keeps, a run keeps up to its end, or to a body that is refused |
| `run_of_runUpTo` | a run cut off after so many bodies is the run, if nothing is left to open |

What is found are entries of the nesting map in the data model (specification, section 3).
-/

import Retrace.Journal.Nesting
import Retrace.Proofs.OrderedMap

namespace Retrace

namespace Search

variable {σ : Type} {loader : CodeLoader σ} {known : BodyHandle → Bool}

/-! ## Noting what a body nests -/

/-- What noting the bodies that a body nests makes of a search: those that are new are found and
stacked, and nothing else is changed. -/
structure Noted (known : BodyHandle → Bool) (parent : BodyHandle) (children : List BodyHandle)
    (s s' : Search) : Prop where
  /-- What was found keeps the parent that it has. -/
  kept : ∀ b p, s.found.get? b = some p → s'.found.get? b = some p
  /-- What is found now and was not is nested directly; it was not known, and is stacked. -/
  added : ∀ b p, s'.found.get? b = some p → s.found.get? b = some p ∨
    p = parent ∧ b ∈ children ∧ known b = false ∧ b ∈ s'.stack
  /-- What was stacked still is. -/
  waiting : ∀ b ∈ s.stack, b ∈ s'.stack
  /-- What is stacked now and was not has been found. -/
  stacked : ∀ b ∈ s'.stack, b ∈ s.stack ∨ s'.found.contains b = true
  /-- Each of the bodies nested is known, or has been found. -/
  covered : ∀ b ∈ children, known b = true ∨ s'.found.contains b = true

theorem Noted.contains {parent : BodyHandle} {children : List BodyHandle} {s s' : Search}
    (h : Noted known parent children s s') {b : BodyHandle} (hb : s.found.contains b = true) :
    s'.found.contains b = true := by
  obtain ⟨p, hp⟩ := Option.isSome_iff_exists.1 hb
  exact OrderedMap.contains_of_get? (h.kept b p hp)

/-- Noting a body that is known, or found before, changes nothing. -/
theorem note_of_seen {parent child : BodyHandle} {s : Search}
    (h : known child = true ∨ s.found.contains child = true) : note known parent s child = s := by
  unfold note
  rw [if_pos]
  simpa using h

/-- Noting a body that is neither finds it. -/
theorem note_of_new {parent child : BodyHandle} {s : Search} (hk : known child = false)
    (hf : s.found.contains child = false) :
    note known parent s child = ⟨child :: s.stack, s.found.insert child parent⟩ := by
  unfold note
  rw [if_neg]
  simp [hk, hf]

theorem noted_noteAll (known : BodyHandle → Bool) (parent : BodyHandle)
    (children : List BodyHandle) (s : Search) :
    Noted known parent children s (noteAll known parent children s) := by
  induction children generalizing s with
  | nil =>
    exact ⟨fun _ _ h => h, fun _ _ h => .inl h, fun _ h => h, fun _ h => .inl h,
      fun _ h => absurd h List.not_mem_nil⟩
  | cons child rest ih =>
    have hrest := ih (note known parent s child)
    change Noted known parent (child :: rest) s
      (noteAll known parent rest (note known parent s child))
    by_cases hseen : known child = true ∨ s.found.contains child = true
    · rw [note_of_seen hseen] at hrest ⊢
      exact {
        kept := hrest.kept
        added := fun b p hb => (hrest.added b p hb).imp_right fun ⟨hp, hc, hn⟩ =>
          ⟨hp, List.mem_cons_of_mem child hc, hn⟩
        waiting := hrest.waiting
        stacked := hrest.stacked
        covered := fun b hb => by
          rcases List.mem_cons.1 hb with rfl | hb
          · exact hseen.imp_right hrest.contains
          · exact hrest.covered b hb }
    · obtain ⟨hk, hf⟩ := not_or.1 hseen
      rw [Bool.not_eq_true] at hk hf
      rw [note_of_new hk hf] at hrest ⊢
      exact {
        kept := fun b p hb => by
          refine hrest.kept b p ((OrderedMap.get?_insert_eq_some_iff _).2 (.inr ⟨?_, hb⟩))
          rintro rfl
          rw [OrderedMap.contains_of_get? hb] at hf
          cases hf
        added := fun b p hb => by
          rcases hrest.added b p hb with hb | ⟨hp, hc, hn⟩
          · rcases (OrderedMap.get?_insert_eq_some_iff _).1 hb with ⟨rfl, rfl⟩ | ⟨_, hb⟩
            · exact .inr ⟨rfl, List.mem_cons_self, hk, hrest.waiting _ List.mem_cons_self⟩
            · exact .inl hb
          · exact .inr ⟨hp, List.mem_cons_of_mem child hc, hn⟩
        waiting := fun b hb => hrest.waiting b (List.mem_cons_of_mem child hb)
        stacked := fun b hb => by
          rcases hrest.stacked b hb with hb | hb
          · rcases List.mem_cons.1 hb with rfl | hb
            · exact .inr (hrest.contains ((OrderedMap.contains_insert_iff _ _ _ _).2 (.inl rfl)))
            · exact .inl hb
          · exact .inr hb
        covered := fun b hb => by
          rcases List.mem_cons.1 hb with rfl | hb
          · exact .inr (hrest.contains ((OrderedMap.contains_insert_iff _ _ _ _).2 (.inl rfl)))
          · exact hrest.covered b hb }

/-! ## Runs -/

theorem run_nil (loader : CodeLoader σ) (known : BodyHandle → Bool)
    (found : OrderedMap BodyHandle BodyHandle) (st : σ) :
    run loader known ⟨[], found⟩ st = .ok found st := by
  rw [run]

theorem run_cons_of_ok {body : BodyHandle} {st st' : σ}
    (h : loader.forceParse body st = .ok () st') (stack : List BodyHandle)
    (found : OrderedMap BodyHandle BodyHandle) : run loader known ⟨body :: stack, found⟩ st =
      run loader known (noteAll known body (loader.nestedBodies st' body) ⟨stack, found⟩) st' := by
  rw [run]
  dsimp only
  rw [h]

theorem run_cons_of_error {body : BodyHandle} {st st' : σ} {e : Error}
    (h : loader.forceParse body st = .error e st') (stack : List BodyHandle)
    (found : OrderedMap BodyHandle BodyHandle) :
    run loader known ⟨body :: stack, found⟩ st = .error e st' := by
  rw [run]
  dsimp only
  rw [h]

/-- **What opening a body keeps, a run keeps**: up to its end, when nothing is left to open, or up
to the body that the loader refuses. -/
theorem run_cases {P : Search → σ → Prop}
    (opened : ∀ {body stack found st st'}, P ⟨body :: stack, found⟩ st →
      loader.forceParse body st = .ok () st' →
        P (noteAll known body (loader.nestedBodies st' body) ⟨stack, found⟩) st')
    {s : Search} {st : σ} (hs : P s st) :
    (∃ found st', run loader known s st = .ok found st' ∧ P ⟨[], found⟩ st') ∨
      ∃ e st', run loader known s st = .error e st' ∧ ∃ body stack found st₁,
        P ⟨body :: stack, found⟩ st₁ ∧ loader.forceParse body st₁ = .error e st' := by
  induction s using run.induct loader known generalizing st with
  | case1 found => exact .inl ⟨found, st, run_nil loader known found st, hs⟩
  | case2 body stack found ih =>
    cases hp : loader.forceParse body st with
    | ok _ st' =>
      rw [run_cons_of_ok hp]
      exact ih st' (opened hs hp)
    | error e st' =>
      exact .inr ⟨e, st', run_cons_of_error hp stack found, body, stack, found, st, hs, hp⟩

/-- A run cut off after a number of bodies, with what is left to open then, so that searches in code
that is written out can be evaluated. -/
def runUpTo (loader : CodeLoader σ) (known : BodyHandle → Bool) : Nat → Search → Action σ Search
  | 0 => fun s st => .ok s st
  | n + 1 => fun s st =>
    match s.stack with
    | [] => .ok s st
    | body :: stack =>
      match loader.forceParse body st with
      | .error e st => .error e st
      | .ok _ st =>
        runUpTo loader known n
          (noteAll known body (loader.nestedBodies st body) ⟨stack, s.found⟩) st

theorem runUpTo_nil (loader : CodeLoader σ) (known : BodyHandle → Bool) (n : Nat)
    (found : OrderedMap BodyHandle BodyHandle) (st : σ) :
    runUpTo loader known n ⟨[], found⟩ st = .ok ⟨[], found⟩ st := by
  cases n <;> rfl

theorem runUpTo_cons_of_ok {body : BodyHandle} {st st' : σ}
    (h : loader.forceParse body st = .ok () st') (n : Nat) (stack : List BodyHandle)
    (found : OrderedMap BodyHandle BodyHandle) :
    runUpTo loader known (n + 1) ⟨body :: stack, found⟩ st =
      runUpTo loader known n
        (noteAll known body (loader.nestedBodies st' body) ⟨stack, found⟩) st' := by
  rw [runUpTo]
  dsimp only
  rw [h]

theorem runUpTo_cons_of_error {body : BodyHandle} {st st' : σ} {e : Error}
    (h : loader.forceParse body st = .error e st') (n : Nat) (stack : List BodyHandle)
    (found : OrderedMap BodyHandle BodyHandle) :
    runUpTo loader known (n + 1) ⟨body :: stack, found⟩ st = .error e st' := by
  rw [runUpTo]
  dsimp only
  rw [h]

/-- A run that is not cut short is the run. -/
theorem run_of_runUpTo {n : Nat} {s : Search} {found : OrderedMap BodyHandle BodyHandle}
    {st st' : σ} (h : runUpTo loader known n s st = .ok ⟨[], found⟩ st') :
    run loader known s st = .ok found st' := by
  induction n generalizing s st with
  | zero =>
    cases h
    exact run_nil loader known found st'
  | succ n ih =>
    obtain ⟨stack, found'⟩ := s
    cases stack with
    | nil =>
      rw [runUpTo_nil] at h
      cases h
      exact run_nil loader known found st'
    | cons body stack =>
      cases hp : loader.forceParse body st with
      | error e st₁ =>
        rw [runUpTo_cons_of_error hp] at h
        cases h
      | ok _ st₁ =>
        rw [runUpTo_cons_of_ok hp] at h
        rw [run_cons_of_ok hp]
        exact ih h

/-- Nor is one that is refused before it would be. -/
theorem run_of_runUpTo_error {n : Nat} {s : Search} {st st' : σ} {e : Error}
    (h : runUpTo loader known n s st = .error e st') : run loader known s st = .error e st' := by
  induction n generalizing s st with
  | zero => cases h
  | succ n ih =>
    obtain ⟨stack, found⟩ := s
    cases stack with
    | nil => cases h
    | cons body stack =>
      cases hp : loader.forceParse body st with
      | error e₁ st₁ =>
        rw [runUpTo_cons_of_error hp] at h
        cases h
        exact run_cons_of_error hp stack found
      | ok _ st₁ =>
        rw [runUpTo_cons_of_ok hp] at h
        rw [run_cons_of_ok hp]
        exact ih h

/-! ## The tree below a body -/

/-- The parents found lead up from a body to the one that the search began with. -/
inductive LeadsUp (found : OrderedMap BodyHandle BodyHandle) (root : BodyHandle) :
    BodyHandle → Prop where
  /-- The search began here. -/
  | root : LeadsUp found root root
  /-- The body was found in one that leads up. -/
  | nested {b p : BodyHandle} : found.get? b = some p → LeadsUp found root p →
      LeadsUp found root b

theorem LeadsUp.mono {found found' : OrderedMap BodyHandle BodyHandle} {root b : BodyHandle}
    (hk : ∀ b p, found.get? b = some p → found'.get? b = some p) (h : LeadsUp found root b) :
    LeadsUp found' root b := by
  induction h with
  | root => exact .root
  | nested hb _ ih => exact .nested (hk _ _ hb) ih

/-- What a search has found is a tree below the body that it began with: from everything found the
parents lead up to that. -/
structure Below (known : BodyHandle → Bool) (root : BodyHandle) (s : Search) : Prop where
  /-- What is stacked has been found, but for the body that the search began with. -/
  stacked : ∀ b ∈ s.stack, b = root ∨ s.found.contains b = true
  /-- What has been found was not known. -/
  unknown : ∀ b, s.found.contains b = true → known b = false
  /-- What has been found leads up to where the search began. -/
  leadsUp : ∀ b, s.found.contains b = true → LeadsUp s.found root b

theorem below_start (known : BodyHandle → Bool) (root : BodyHandle) :
    Below known root ⟨[root], .empty⟩ where
  stacked _ hb := .inl (List.mem_singleton.1 hb)
  unknown _ hb := nomatch hb
  leadsUp _ hb := nomatch hb

theorem Below.leadsUp_of_mem {root b : BodyHandle} {s : Search} (h : Below known root s)
    (hb : b ∈ s.stack) : LeadsUp s.found root b := by
  rcases h.stacked b hb with rfl | hf
  · exact .root
  · exact h.leadsUp b hf

/-- **Opening a body leaves a tree**: what is new hangs below the body opened, and the rest stays
where it is. -/
theorem Below.noteAll {root body : BodyHandle} {stack : List BodyHandle}
    {found : OrderedMap BodyHandle BodyHandle} (h : Below known root ⟨body :: stack, found⟩)
    (children : List BodyHandle) :
    Below known root (noteAll known body children ⟨stack, found⟩) := by
  have hn := noted_noteAll known body children ⟨stack, found⟩
  have hbody : LeadsUp _ root body := (h.leadsUp_of_mem List.mem_cons_self).mono hn.kept
  exact {
    stacked := fun b hb => by
      rcases hn.stacked b hb with hb | hf
      · exact (h.stacked b (List.mem_cons_of_mem body hb)).imp_right hn.contains
      · exact .inr hf
    unknown := fun b hb => by
      obtain ⟨p, hp⟩ := Option.isSome_iff_exists.1 hb
      rcases hn.added b p hp with hp | ⟨_, _, hk, _⟩
      · exact h.unknown b (OrderedMap.contains_of_get? hp)
      · exact hk
    leadsUp := fun b hb => by
      obtain ⟨p, hp⟩ := Option.isSome_iff_exists.1 hb
      rcases hn.added b p hp with hp | ⟨rfl, _⟩
      · exact (h.leadsUp b (OrderedMap.contains_of_get? hp)).mono hn.kept
      · exact .nested hp hbody }

end Search

/-- **What a search finds was not known, and leads up to the body that it began with**, whatever the
loader answers. -/
theorem nestedParents_spec {σ : Type} {loader : CodeLoader σ} {known : BodyHandle → Bool}
    {body : BodyHandle} {st st' : σ} {found : OrderedMap BodyHandle BodyHandle}
    (h : nestedParents loader known body st = .ok found st') :
    Search.Below known body ⟨[], found⟩ := by
  rcases Search.run_cases (P := fun s (_ : σ) => Search.Below known body s)
    (fun hs _ => hs.noteAll _) (Search.below_start known body) with
    ⟨found', st₁, he, hb⟩ | ⟨e, st₁, he, _⟩
  · cases he.symm.trans h
    exact hb
  · cases he.symm.trans h

/-- **The parents that a search finds are known to it**: a body is found where it is nested, in the
body that the search began with or in one found before. -/
theorem parent_found_of_nestedParents {σ : Type} {loader : CodeLoader σ}
    {known : BodyHandle → Bool} {body : BodyHandle} {st st' : σ}
    {found : OrderedMap BodyHandle BodyHandle}
    (h : nestedParents loader known body st = .ok found st') {b p : BodyHandle}
    (hb : found.get? b = some p) : p = body ∨ found.contains p = true := by
  let Opened (s : Search) : Prop := Search.Below known body s ∧
    ∀ b p, s.found.get? b = some p → p = body ∨ s.found.contains p = true
  -- A body that is opened was stacked, and what is stacked has been found, but for the first one.
  have hopened : ∀ {top stack found}, Opened ⟨top :: stack, found⟩ → ∀ children,
      Opened (Search.noteAll known top children ⟨stack, found⟩) := by
    rintro top stack found ⟨hbelow, hparents⟩ children
    have hn := Search.noted_noteAll known top children ⟨stack, found⟩
    refine ⟨hbelow.noteAll children, fun b p hp => ?_⟩
    rcases hn.added b p hp with hp | ⟨rfl, _⟩
    · exact (hparents b p hp).imp_right hn.contains
    · exact (hbelow.stacked p List.mem_cons_self).imp_right hn.contains
  have hstart : Opened ⟨[body], .empty⟩ := ⟨Search.below_start known body, fun _ _ hp => nomatch hp⟩
  rcases Search.run_cases (P := fun s (_ : σ) => Opened s) (fun hs _ => hopened hs _) hstart with
    ⟨found', st₁, he, hend⟩ | ⟨e, st₁, he, _⟩
  · cases he.symm.trans h
    exact hend.2 b p hb
  · cases he.symm.trans h

end Retrace
