/-
# Fresh context numbers

A new context gets the next number, and that number comes after all that have wrappers.  The last
number alone has none that comes after it, so it is its own successor, and is given a second time.

| | |
| --- | --- |
| `wrapped_iff` | a number has a wrapper exactly if it was given since contexts were last cleared |
| `freshContext_iff` | a new context is new unless its number is the last one, given before |

`last_number_given_twice` shows what becomes of a context whose number is given again.

The data model says of context ids that they are never reused (specification, section 3); this is
how far that goes.
-/

import Retrace.Proofs.Registry.ContextsInOrder
import Retrace.Proofs.Registry.History
import Retrace.Proofs.Registry.WrapperSteps

namespace Retrace

namespace Registry

variable {φ : Type}

/-! ## Numbers in a history -/

namespace History

variable {config : Config}

/-- The context that the next call registers, if it registers one. -/
def registered? (h : History config φ) (n : Nat) : Option ContextId :=
  h.calls[n]?.bind fun c => c.registered? (h.state n)

/-- Whether something came about at one of the first calls of a history, and the contexts have not
been cleared since. -/
def SinceCleared (h : History config φ) (P : Nat → Prop) (n : Nat) : Prop :=
  ∃ m < n, P m ∧ ∀ k, m < k → k < n → h.calls[k]? ≠ some .clearContexts

/-- One call later: it came about just now, or before, and this call has not cleared the contexts. -/
theorem sinceCleared_succ_iff (h : History config φ) (P : Nat → Prop) (n : Nat) :
    h.SinceCleared P (n + 1) ↔ P n ∨ h.calls[n]? ≠ some .clearContexts ∧ h.SinceCleared P n := by
  constructor
  · rintro ⟨m, hm, hp, hkept⟩
    rcases Nat.lt_succ_iff_lt_or_eq.1 hm with hm | rfl
    · exact .inr ⟨hkept n hm (Nat.lt_succ_self n), m, hm, hp,
        fun k hmk hk => hkept k hmk (Nat.lt_succ_of_lt hk)⟩
    · exact .inl hp
  · rintro (hp | ⟨hne, m, hm, hp, hkept⟩)
    · exact ⟨n, Nat.lt_succ_self n, hp, fun k hnk hk => absurd hnk (by omega)⟩
    · refine ⟨m, Nat.lt_succ_of_lt hm, hp, fun k hmk hk => ?_⟩
      rcases Nat.lt_succ_iff_lt_or_eq.1 hk with hk | rfl
      · exact hkept k hmk hk
      · exact hne

/-- Whether a number has been given to a context by some of the first calls of a history, be it as
the next one or as found in a log, and the contexts have not been cleared since. -/
def Taken (h : History config φ) (n : Nat) (ctx : ContextId) : Prop :=
  ∃ m < n, h.registered? m = some ctx ∧ ∀ k, m < k → k < n → h.calls[k]? ≠ some .clearContexts

theorem taken_succ_iff (h : History config φ) (n : Nat) (ctx : ContextId) :
    h.Taken (n + 1) ctx ↔
      h.registered? n = some ctx ∨ h.calls[n]? ≠ some .clearContexts ∧ h.Taken n ctx :=
  h.sinceCleared_succ_iff (fun m => h.registered? m = some ctx) n

theorem wrapped_succ_iff (h : History config φ) (n : Nat) (ctx : ContextId) :
    (h.registry (n + 1)).wrappers.contains ctx = true ↔ h.registered? n = some ctx ∨
      h.calls[n]? ≠ some .clearContexts ∧ (h.registry n).wrappers.contains ctx = true := by
  unfold registry registered?
  cases hc : h.calls[n]? with
  | none =>
    rw [h.state_succ_of_none hc]
    simp
  | some c =>
    rw [h.state_succ_of_some hc, c.contains_wrappers_iff, Option.bind_some, ne_eq, ne_eq,
      Option.some.injEq]

/-- **A number has a wrapper exactly if it was given** since contexts were last cleared. -/
theorem wrapped_iff (h : History config φ) (n : Nat) (ctx : ContextId) :
    (h.registry n).wrappers.contains ctx = true ↔ h.Taken n ctx := by
  induction n with
  | zero =>
    obtain ⟨_, hstart⟩ := create_eq_ok_iff.1 h.created
    rw [h.registry_zero, hstart]
    exact ⟨fun hw => absurd hw Bool.false_ne_true, fun ⟨_, hm, _⟩ => absurd hm (Nat.not_lt_zero _)⟩
  | succ n ih => rw [h.wrapped_succ_iff, h.taken_succ_iff, ih]

/-- While no registration has returned the last number, that has no wrapper. -/
theorem contains_last_eq_false (h : History config φ) {n : Nat}
    (hlast : ∀ m < n, h.registered? m ≠ some .last) :
    (h.registry n).wrappers.contains .last = false := by
  refine Bool.eq_false_iff.2 fun hl => ?_
  obtain ⟨m, hm, htaken, _⟩ := (h.wrapped_iff n .last).1 hl
  exact hlast m hm htaken

theorem contextsDistinct (h : History config φ) {n : Nat}
    (hlast : ∀ m < n, h.registered? m ≠ some .last) : ContextsDistinct (h.registry n) :=
  (h.reachable n).contextsDistinct (h.contains_last_eq_false hlast)

end History

/-! ## New contexts -/

/-- A new context gets the next number. -/
theorem registerContext_eq_ok_iff {wrap : WrapContext φ} {mode : ExecutionMode}
    {sentinels : PerSlot ObjectHandle} {ctx : ContextId} {t t' : Registry × φ} :
    registerContext wrap mode sentinels t = .ok ctx t' ↔
      t.1.refusal? sentinels = none ∧ ctx = ⟨t.1.nextContext⟩ ∧
        t' = (t.1.track ⟨t.1.nextContext⟩ mode sentinels (wrap ⟨t.1.nextContext⟩ mode t.2).1,
          (wrap ⟨t.1.nextContext⟩ mode t.2).2) :=
  enroll_eq_ok_iff

/-- **A new context is new unless the last number is given again.**  Whenever a new context is
registered, its number was not tracked and had no journal and no wrapper, and no two tracked contexts
share a number then: exactly unless the number is the last one and was given before, to a context or
by a log, since contexts were last cleared. -/
theorem freshContext_iff {config : Config} (h : History config φ) (n : Nat) {wrap : WrapContext φ}
    {mode : ExecutionMode} {sentinels : PerSlot ObjectHandle} {ctx : ContextId} {t : Registry × φ}
    (hreg : registerContext wrap mode sentinels (h.state n) = .ok ctx t) :
    ((h.registry n).isTracked ctx = false ∧ (h.registry n).journals.contains ctx = false ∧
        (h.registry n).wrappers.contains ctx = false ∧ (t.1.contexts.map (·.id)).Nodup) ↔
      ¬ (ctx = .last ∧ h.Taken n .last) := by
  obtain ⟨_, rfl, rfl⟩ := registerContext_eq_ok_iff.1 hreg
  have ho := (h.reachable n).contextsInOrder
  rw [← h.wrapped_iff, not_and]
  constructor
  · rintro ⟨_, _, hw, _⟩ hlast
    rw [← hlast]
    exact Bool.eq_false_iff.1 hw
  · intro hfree
    -- The number has no wrapper, so nothing else is kept under it.
    have hw : (h.registry n).wrappers.contains ⟨(h.registry n).nextContext⟩ = false := by
      by_cases hlast : (⟨(h.registry n).nextContext⟩ : ContextId) = .last
      · rw [hlast]
        exact Bool.eq_false_iff.2 (hfree hlast)
      · exact ho.contains_eq_false (fun _ => rfl) hlast
    have ht := ho.isTracked_eq_false hw
    have hj : (h.registry n).journals.contains ⟨(h.registry n).nextContext⟩ = false :=
      Bool.eq_false_iff.2 fun hj => Bool.eq_false_iff.1 ht (ho.journaled _ hj)
    have hl : (h.registry n).wrappers.contains .last = false :=
      Bool.eq_false_iff.2 fun hl => hfree (ho.next_eq_last hl) hl
    exact ⟨ht, hj, hw, nodup_ids_track ((h.reachable n).contextsDistinct hl).distinct ht _ _ _⟩

/-- A log gives the number before the last one, and the last one comes next: it is new, and kept apart
from the other. -/
theorem freshContext_after_recorded :
    ∃ (h : History {} Unit) (wrap : WrapContext Unit) (t : Registry × Unit),
      h.registered? 0 = some ⟨0xFFFFFFFE⟩ ∧
      registerContext wrap .replay ⟨⟨5⟩, ⟨6⟩, ⟨7⟩, ⟨8⟩, ⟨9⟩⟩ (h.state 1) = .ok .last t ∧
      (h.registry 1).isTracked .last = false ∧ (h.registry 1).journals.contains .last = false ∧
      (h.registry 1).wrappers.contains .last = false ∧ (t.1.contexts.map (·.id)).Nodup := by
  let wrap : WrapContext Unit := fun ctx _ => pure ⟨ctx.index.toUInt64⟩
  let h : History {} Unit := ⟨_, (rfl : create {} = .ok _), (),
    [.registerRecorded wrap ⟨0xFFFFFFFE⟩ ⟨⟨0⟩, ⟨1⟩, ⟨2⟩, ⟨3⟩, ⟨4⟩⟩]⟩
  have hfirst : h.registered? 0 = some ⟨0xFFFFFFFE⟩ := rfl
  have hreg : registerContext wrap .replay ⟨⟨5⟩, ⟨6⟩, ⟨7⟩, ⟨8⟩, ⟨9⟩⟩ (h.state 1) = .ok .last _ := rfl
  have hnew : ¬ h.Taken 1 .last := by
    rintro ⟨m, hm, htaken, _⟩
    obtain rfl : m = 0 := by omega
    rw [hfirst, Option.some.injEq] at htaken
    exact absurd htaken (by decide)
  exact ⟨h, wrap, _, hfirst, hreg, (freshContext_iff h 1 hreg).2 fun hl => hnew hl.2⟩

/-- A log gives the last number, and a new context gets it again, though it is tracked and has a
journal: its wrapper is replaced by another one, and two contexts share the number. -/
theorem last_number_given_twice :
    ∃ (h : History {} UInt64) (wrap : WrapContext UInt64) (t : Registry × UInt64),
      registerContext wrap .record ⟨⟨5⟩, ⟨6⟩, ⟨7⟩, ⟨8⟩, ⟨9⟩⟩ (h.state 1) = .ok .last t ∧
      (h.registry 1).isTracked .last = true ∧ (h.registry 1).journals.contains .last = true ∧
      (h.registry 1).wrapperOf .last = .ok ⟨1000⟩ ∧ t.1.wrapperOf .last = .ok ⟨1001⟩ ∧
      ¬ (t.1.contexts.map (·.id)).Nodup := by
  let wrap : WrapContext UInt64 := fun _ _ next => (⟨next⟩, next + 1)
  let h : History {} UInt64 := ⟨_, (rfl : create {} = .ok _), 1000,
    [.registerRecorded wrap .last ⟨⟨0⟩, ⟨1⟩, ⟨2⟩, ⟨3⟩, ⟨4⟩⟩]⟩
  exact ⟨h, wrap, _, rfl, by decide, by decide, rfl, rfl, by decide⟩

end Registry

end Retrace
