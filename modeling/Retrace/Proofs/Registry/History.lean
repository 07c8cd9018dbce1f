/-
# Histories

A history is a registry that has been created, and the calls made since, whichever of them fail.
What it leaves after each number of calls are the reachable registries and no others
(`reachable_iff`).  A history tells more than the registry at its end: which ids were in use earlier,
and what was pinned all the while.

Over such runs the specification states its invariants (section 3): at any instant, whatever came
before.
-/

import Retrace.Proofs.Registry.IdMaps

namespace Retrace

namespace Registry

/-- A registry that has been created, and the calls made since, oldest first, in surroundings that
any of them may change. -/
structure History (config : Config) (φ : Type) where
  /-- The registry as it was created. -/
  start : Registry
  /-- It has been created with these settings. -/
  created : create config = .ok start
  /-- What surrounds the registry at first. -/
  surroundings : φ
  /-- The calls made since, oldest first. -/
  calls : List (Call φ)

namespace History

variable {config : Config} {φ : Type}

/-- What a history has left after a number of calls; after its last one it stands still. -/
def state (h : History config φ) (n : Nat) : Registry × φ :=
  (h.calls.take n).foldl (fun t c => c.run.after t) (h.start, h.surroundings)

/-- The registry that a history has left after a number of calls. -/
def registry (h : History config φ) (n : Nat) : Registry := (h.state n).1

theorem registry_zero (h : History config φ) : h.registry 0 = h.start := rfl

/-- The sentinels that the next call registers a context with, if it registers one. -/
def given (h : History config φ) (n : Nat) : Option (PerSlot ObjectHandle) :=
  h.calls[n]?.bind Call.sentinels?

theorem state_succ_of_some (h : History config φ) {n : Nat} {c : Call φ}
    (hc : h.calls[n]? = some c) : h.state (n + 1) = c.run.after (h.state n) := by
  unfold state
  rw [List.take_add_one, hc, List.foldl_append]
  rfl

theorem state_succ_of_none (h : History config φ) {n : Nat} (hc : h.calls[n]? = none) :
    h.state (n + 1) = h.state n := by
  unfold state
  rw [List.take_add_one, hc, List.foldl_append]
  rfl

/-- One more call has been made, or the history is at its end. -/
theorem state_succ (h : History config φ) (n : Nat) :
    h.state (n + 1) = h.state n ∨
      ∃ c : Call φ, h.calls[n]? = some c ∧ h.state (n + 1) = c.run.after (h.state n) := by
  cases hc : h.calls[n]? with
  | none => exact .inl (h.state_succ_of_none hc)
  | some c => exact .inr ⟨c, rfl, h.state_succ_of_some hc⟩

/-- From one call to the next, a history makes a step. -/
theorem idStep (h : History config φ) (n : Nat) :
    IdStep (h.given n) (h.registry n) (h.registry (n + 1)) := by
  unfold registry given
  rcases h.state_succ n with he | ⟨c, hc, he⟩
  · rw [he]
    exact .same (.refl _)
  · rw [hc, he]
    exact c.idStep (h.state n)

theorem reachable (h : History config φ) (n : Nat) : Reachable config (h.state n) := by
  induction n with
  | zero => exact .created h.surroundings h.created
  | succ n ih =>
    rcases h.state_succ n with he | ⟨c, _, he⟩
    · rw [he]
      exact ih
    · rw [he]
      exact ih.called c

/-- A history with one more call. -/
def extend (h : History config φ) (c : Call φ) : History config φ :=
  { h with calls := h.calls ++ [c] }

theorem state_extend (h : History config φ) (c : Call φ) :
    (h.extend c).state (h.extend c).calls.length = c.run.after (h.state h.calls.length) := by
  simp only [state, extend, List.take_length, List.foldl_append, List.foldl_cons, List.foldl_nil]

/-- **The reachable registries are those that histories leave**, so that either may be used to speak
of runs. -/
theorem reachable_iff {t : Registry × φ} :
    Reachable config t ↔ ∃ (h : History config φ) (n : Nat), h.state n = t := by
  constructor
  · intro ht
    suffices ∃ h : History config φ, h.state h.calls.length = t by
      obtain ⟨h, he⟩ := this
      exact ⟨h, _, he⟩
    induction ht with
    | created w hc => exact ⟨⟨_, hc, w, []⟩, rfl⟩
    | called c _ ih =>
      obtain ⟨h, rfl⟩ := ih
      exact ⟨h.extend c, h.state_extend c⟩
  · rintro ⟨h, n, rfl⟩
    exact h.reachable n

theorem idsInOrder (h : History config φ) (n : Nat) : IdsInOrder (h.registry n) :=
  (h.reachable n).idsInOrder

end History

end Registry

end Retrace
