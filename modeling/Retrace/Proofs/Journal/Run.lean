/-
# Calls on a journal

A journal that has been handed out changes by the calls that `Journal.Call` lists, some of which
fail; what only looks at one (`parent`, `bodyOfSource?`, `marks`, …) is not listed.  A loader comes
with the call that needs it, and has its state in the surroundings.

`Journal.Reachable` holds of what such calls may leave, whatever else happens to the surroundings
between them.  None of them hands the journal to another context
(`Journal.Reachable.context_eq`).

The list is that of the journal's operations (specification, section 4.2).
-/

import Retrace.Proofs.Registry.Run

namespace Retrace

namespace Journal

/-- A call that may change a journal, in surroundings whose state is a `σ`, which is what its loader
parses in. -/
inductive Call (σ : Type) where
  /-- Remembers a write that has been scheduled. -/
  | scheduleWrite (buffer : ObjectHandle) (start : UInt64)
  /-- Takes out the write that ended at a position. -/
  | completeWrite (buffer : ObjectHandle) (final : UInt64)
  /-- Forgets the writes that have not landed. -/
  | clearPending
  /-- Registers top-level code. -/
  | registerCode (loader : CodeLoader σ) (origin : CodeOrigin) (body : BodyHandle)
      (counter : UInt64)
  /-- Parses a body and all that it nests. -/
  | forceLoad (loader : CodeLoader σ) (body : BodyHandle)
  /-- Forgets all loaded code. -/
  | clearLoads
  /-- Keeps an object that a weak collection holds. -/
  | pinWeak (obj : ObjectHandle)
  /-- Gives one such pin back. -/
  | unpinWeak (obj : ObjectHandle)

/-- What a call on a journal answers if it succeeds. -/
inductive Answer where
  /-- Nothing but that it is done. -/
  | done
  /-- A write that has landed. -/
  | landed (write : CompletedWrite)
  /-- Whether the code is new. -/
  | registered (new : Bool)
  /-- Whether there was a pin. -/
  | released (pinned : Bool)

variable {σ : Type}

/-- Makes a call.  Whether it succeeds or fails, it leaves a journal and surroundings. -/
def Call.run : Call σ → Action (Journal × σ) Answer
  | scheduleWrite buffer start =>
    (Action.ofFn fun j : Journal => (.done, j.scheduleWrite buffer start)).beside
  | completeWrite buffer final => Answer.landed <$> (Journal.completeWrite buffer final).beside
  | clearPending => (Action.ofFn fun j : Journal => (.done, j.clearPending)).beside
  | registerCode loader origin body counter =>
    Answer.registered <$> Journal.registerCode loader origin body counter
  | forceLoad loader body => (fun _ => .done) <$> Journal.forceLoad loader body
  | clearLoads => (Action.ofFn fun j : Journal => (.done, j.clearLoads)).beside
  | pinWeak obj => (Action.ofFn fun j : Journal => (.done, j.pinWeak obj)).beside
  | unpinWeak obj => Answer.released <$> (Action.ofFn (·.unpinWeak obj)).beside

/-- A journal and its surroundings that calls on the journal leave, whatever calls are made and
whichever fail, and with whatever loader each of them comes. -/
inductive Reachable (t : Journal × σ) : Journal × σ → Prop where
  /-- No call has been made. -/
  | start : Reachable t t
  /-- One more call has been made. -/
  | called {u : Journal × σ} (c : Call σ) : Reachable t u → Reachable t (c.run.after u)
  /-- The surroundings have changed. -/
  | elsewhere {u : Journal × σ} (s : σ) : Reachable t u → Reachable t (u.1, s)

/-! ## What loading code does -/

/-- Loading a body fails with its loader, or else the parents found are added. -/
theorem forceLoad_cases (loader : CodeLoader σ) (body : BodyHandle) (t : Journal × σ) :
    (∃ e st, nestedParents loader t.1.parents.contains body t.2 = .error e st ∧
        forceLoad loader body t = .error e (t.1, st)) ∨
      ∃ found st, nestedParents loader t.1.parents.contains body t.2 = .ok found st ∧
        forceLoad loader body t = .ok () (t.1.adopt found, st) := by
  suffices ∀ call, forceLoad loader body = call →
      (∃ e st, nestedParents loader t.1.parents.contains body t.2 = .error e st ∧
          call t = .error e (t.1, st)) ∨
        ∃ found st, nestedParents loader t.1.parents.contains body t.2 = .ok found st ∧
          call t = .ok () (t.1.adopt found, st) from this _ rfl
  delta forceLoad
  -- The search becomes a variable before its answer is looked at: a check that computes it counts
  -- all handles.
  obtain ⟨search, hsearch⟩ : ∃ search, @nestedParents σ = search := ⟨_, rfl⟩
  rw [hsearch]
  rintro _ rfl
  obtain ⟨j, st⟩ := t
  dsimp only
  cases search loader j.parents.contains body st with
  | error e st => exact .inl ⟨e, st, rfl, rfl⟩
  | ok found st => exact .inr ⟨found, st, rfl, rfl⟩

/-- Registering code does nothing if the body is registered; else it fails with its loader, or the
parents found and the code are added. -/
theorem registerCode_cases (loader : CodeLoader σ) (origin : CodeOrigin) (body : BodyHandle)
    (counter : UInt64) (t : Journal × σ) :
    (t.1.isTopLevel body = true ∧ registerCode loader origin body counter t = .ok false t) ∨
      t.1.isTopLevel body = false ∧
        ((∃ e st, nestedParents loader t.1.parents.contains body t.2 = .error e st ∧
            registerCode loader origin body counter t = .error e (t.1, st)) ∨
          ∃ found st, nestedParents loader t.1.parents.contains body t.2 = .ok found st ∧
            registerCode loader origin body counter t = .ok true ((t.1.adopt found).addLoad
              ⟨body, origin, counter, loader.sourceName t.2 body⟩, st)) := by
  suffices ∀ call, registerCode loader origin body counter = call →
      (t.1.isTopLevel body = true ∧ call t = .ok false t) ∨
        t.1.isTopLevel body = false ∧
          ((∃ e st, nestedParents loader t.1.parents.contains body t.2 = .error e st ∧
              call t = .error e (t.1, st)) ∨
            ∃ found st, nestedParents loader t.1.parents.contains body t.2 = .ok found st ∧
              call t = .ok true ((t.1.adopt found).addLoad
                ⟨body, origin, counter, loader.sourceName t.2 body⟩, st)) from this _ rfl
  delta registerCode
  obtain ⟨search, hsearch⟩ : ∃ search, @nestedParents σ = search := ⟨_, rfl⟩
  rw [hsearch]
  rintro _ rfl
  obtain ⟨j, st⟩ := t
  dsimp only
  cases j.isTopLevel body with
  | true => exact .inl ⟨rfl, rfl⟩
  | false =>
    refine .inr ⟨rfl, ?_⟩
    rw [if_neg Bool.false_ne_true]
    cases search loader j.parents.contains body st with
    | error e st => exact .inl ⟨e, st, rfl, rfl⟩
    | ok found st => exact .inr ⟨found, st, rfl, rfl⟩

/-- A search that succeeds lets the body be loaded. -/
theorem forceLoad_of_nestedParents {loader : CodeLoader σ} {body : BodyHandle} {t : Journal × σ}
    {found : OrderedMap BodyHandle BodyHandle} {st : σ}
    (hn : nestedParents loader t.1.parents.contains body t.2 = .ok found st) :
    forceLoad loader body t = .ok () (t.1.adopt found, st) := by
  rcases forceLoad_cases loader body t with ⟨e, st', he, _⟩ | ⟨found', st', hf, he⟩
  · cases hn.symm.trans he
  · cases hn.symm.trans hf
    exact he

/-- It lets the body be registered, if that is new. -/
theorem registerCode_of_nestedParents {loader : CodeLoader σ} {body : BodyHandle} {t : Journal × σ}
    {found : OrderedMap BodyHandle BodyHandle} {st : σ} (htop : t.1.isTopLevel body = false)
    (hn : nestedParents loader t.1.parents.contains body t.2 = .ok found st) (origin : CodeOrigin)
    (counter : UInt64) : registerCode loader origin body counter t =
      .ok true ((t.1.adopt found).addLoad ⟨body, origin, counter, loader.sourceName t.2 body⟩,
        st) := by
  rcases registerCode_cases loader origin body counter t with
    ⟨ht, _⟩ | ⟨_, ⟨e, st', he, _⟩ | ⟨found', st', hf, he⟩⟩
  · cases htop.symm.trans ht
  · cases hn.symm.trans he
  · cases hn.symm.trans hf
    exact he

/-- Registering code that is new fails where the search does. -/
theorem registerCode_eq_error {loader : CodeLoader σ} {body : BodyHandle} {t : Journal × σ}
    {e : Error} {st : σ} (htop : t.1.isTopLevel body = false)
    (hn : nestedParents loader t.1.parents.contains body t.2 = .error e st) (origin : CodeOrigin)
    (counter : UInt64) : registerCode loader origin body counter t = .error e (t.1, st) := by
  rcases registerCode_cases loader origin body counter t with
    ⟨ht, _⟩ | ⟨_, ⟨e₁, st₁, hn₁, he⟩ | ⟨found, st₁, hn₁, _⟩⟩
  · cases htop.symm.trans ht
  · cases hn.symm.trans hn₁
    exact he
  · cases hn.symm.trans hn₁

/-- Registering code leaves alone what neither adopting parents nor adding code changes. -/
theorem registerCode_keeps {α : Type} {f : Journal → α} (hadopt : ∀ j found, f (adopt j found) = f j)
    (hadd : ∀ j code, f (addLoad j code) = f j) (loader : CodeLoader σ) (origin : CodeOrigin)
    (body : BodyHandle) (counter : UInt64) (t : Journal × σ) :
    f ((registerCode loader origin body counter).after t).1 = f t.1 := by
  rcases registerCode_cases loader origin body counter t with
    ⟨_, he⟩ | ⟨_, ⟨e, st, _, he⟩ | ⟨found, st, _, he⟩⟩
  · rw [Action.after_of_eq_ok he]
  · rw [Action.after_of_eq_error he]
  · rw [Action.after_of_eq_ok he]
    exact (hadd _ _).trans (hadopt _ _)

/-- Loading a body leaves alone what adopting parents does not change. -/
theorem forceLoad_keeps {α : Type} {f : Journal → α} (hadopt : ∀ j found, f (adopt j found) = f j)
    (loader : CodeLoader σ) (body : BodyHandle) (t : Journal × σ) :
    f ((forceLoad loader body).after t).1 = f t.1 := by
  rcases forceLoad_cases loader body t with ⟨e, st, _, he⟩ | ⟨found, st, _, he⟩
  · rw [Action.after_of_eq_error he]
  · rw [Action.after_of_eq_ok he]
    exact hadopt _ _

/-! ## The context of a journal -/

theorem context_completeWrite (buffer : ObjectHandle) (final : UInt64) (j : Journal) :
    ((completeWrite buffer final).after j).context = j.context := by
  unfold Action.after completeWrite
  cases (j.candidateStarts buffer final).max? <;> rfl

/-- A call leaves the journal with the context that it belongs to. -/
theorem Call.context_after (c : Call σ) (t : Journal × σ) :
    (c.run.after t).1.context = t.1.context := by
  cases c with
  | scheduleWrite | clearPending | clearLoads | pinWeak => rfl
  | completeWrite buffer final =>
    rw [Call.run, Action.after_map_beside]
    exact context_completeWrite buffer final t.1
  | registerCode loader origin body counter =>
    rw [Call.run, Action.after_map]
    exact registerCode_keeps (f := context) (fun _ _ => rfl) (fun _ _ => rfl) _ _ _ _ t
  | forceLoad loader body =>
    rw [Call.run, Action.after_map]
    exact forceLoad_keeps (f := context) (fun _ _ => rfl) _ _ t
  | unpinWeak obj =>
    rw [Call.run, Action.after_map_beside]
    rfl

/-- **A journal stays with its context**, whatever calls are made on it. -/
theorem Reachable.context_eq {t u : Journal × σ} (h : Reachable t u) :
    u.1.context = t.1.context := by
  induction h with
  | start => rfl
  | called c _ ih => exact (c.context_after _).trans ih
  | elsewhere _ _ ih => exact ih

end Journal

end Retrace
