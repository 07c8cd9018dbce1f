/-
# Wrappers

The host is to finalize every wrapper that it has made, once.  It gets them back when all contexts
are cleared, so a wrapper outlives its context, and it must neither be lost in between nor be handed
out twice.

| | |
| --- | --- |
| `perm_allMade` | what has been made is what has been handed out and what the registry has left |
| `get?_wrappers_iff` | the registry has what was made since contexts were last cleared |

Both rest on this: while no context gets the last number, a wrapper is never put in place of another
one (`ContextsInOrder.contains_eq_false`).

The specification hands the wrappers to the host to finalize (section 4.1, *bulk clear*), also those
of contexts retired before.
-/

import Retrace.Proofs.Registry.FreshContexts

namespace Retrace

namespace Registry

variable {φ : Type}

theorem wrapperOf_eq_ok_iff (r : Registry) {ctx : ContextId} {w : WrapperRef} :
    r.wrapperOf ctx = .ok w ↔ r.wrappers.get? ctx = some w := by
  unfold wrapperOf
  cases r.wrappers.get? ctx <;> simp

namespace History

variable {config : Config} (h : History config φ)

/-! ## What is made and what is handed out -/

/-- The context that the next call registers and the wrapper made for it, if it registers one. -/
def made? (n : Nat) : Option (ContextId × WrapperRef) :=
  h.calls[n]?.bind fun c => c.made? (h.state n)

/-- The wrappers that the next call answers with. -/
def handedOut (n : Nat) : List WrapperRef :=
  (h.calls[n]?.map fun c => c.handedOut (h.state n)).getD []

/-- All wrappers that the host has made for the contexts registered by the first calls, as often as
it has made them. -/
def allMade (n : Nat) : List WrapperRef := ((List.range n).filterMap h.made?).map (·.2)

/-- All wrappers that the first calls have answered with, as often as they have. -/
def allHandedOut (n : Nat) : List WrapperRef := (List.range n).flatMap h.handedOut

/-- Whether some of the first calls has registered a context, for which the host made a certain
wrapper, and the contexts have not been cleared since. -/
def MadeFor (n : Nat) (ctx : ContextId) (w : WrapperRef) : Prop :=
  h.SinceCleared (fun m => h.made? m = some (ctx, w)) n

variable (n : Nat)

theorem allMade_succ : h.allMade (n + 1) = h.allMade n ++ ((h.made? n).map (·.2)).toList := by
  rw [allMade, List.range_succ, List.filterMap_append, List.map_append, allMade]
  cases hm : h.made? n <;> simp [hm]

theorem allHandedOut_succ : h.allHandedOut (n + 1) = h.allHandedOut n ++ h.handedOut n := by
  simp only [allHandedOut, List.range_succ, List.flatMap_append, List.flatMap_singleton]

/-- **What the next call does to the wrappers**, if no context gets the last number: it leaves them
alone, adds one for a context that has none, or hands all of them out. -/
theorem wrappers_succ (hlast : h.registered? n ≠ some .last) :
    (h.calls[n]? ≠ some .clearContexts ∧ h.made? n = none ∧ h.handedOut n = [] ∧
        (h.registry (n + 1)).wrappers = (h.registry n).wrappers) ∨
      (∃ ctx w, h.calls[n]? ≠ some .clearContexts ∧ h.made? n = some (ctx, w) ∧
        h.handedOut n = [] ∧ (h.registry n).wrappers.contains ctx = false ∧
        (h.registry (n + 1)).wrappers = (h.registry n).wrappers.insert ctx w) ∨
      h.calls[n]? = some .clearContexts ∧ h.made? n = none ∧
        h.handedOut n = (h.registry n).wrappers.values ∧ (h.registry (n + 1)).wrappers = .empty := by
  cases hc : h.calls[n]? with
  | none =>
    left
    exact ⟨nofun, by rw [made?, hc]; rfl, by rw [handedOut, hc]; rfl,
      by rw [registry, h.state_succ_of_none hc, registry]⟩
  | some c =>
    have hs := c.wrapperStep (h.state n)
    have hreg : h.registered? n = c.registered? (h.state n) := by rw [registered?, hc]; rfl
    have hmade : h.made? n = c.made? (h.state n) := by rw [made?, hc]; rfl
    have hout : h.handedOut n = c.handedOut (h.state n) := by rw [handedOut, hc]; rfl
    have hnext : (h.registry (n + 1)).wrappers = (c.run.after (h.state n)).1.wrappers := by
      rw [registry, h.state_succ_of_some hc]
    rw [hnext, ne_eq, Option.some.injEq]
    generalize (c.run.after (h.state n)).1.wrappers = wrappers at hs
    cases hs with
    | kept hne hr =>
      exact .inl ⟨hne, hmade.trans (Call.made?_eq_none hr),
        hout.trans (Call.handedOut_eq_nil hne), rfl⟩
    | @added ctx w hne hr hm hctx =>
      refine .inr (.inl ⟨ctx, w, hne, hmade.trans hm, hout.trans (Call.handedOut_eq_nil hne), ?_, rfl⟩)
      refine (h.reachable n).contextsInOrder.contains_eq_false hctx ?_
      rintro rfl
      exact hlast (hreg.trans hr)
    | cleared he ho =>
      subst he
      exact .inr (.inr ⟨rfl, hmade, hout.trans ho, rfl⟩)

theorem wrappers_zero : (h.registry 0).wrappers = .empty := by
  obtain ⟨_, hstart⟩ := create_eq_ok_iff.1 h.created
  rw [h.registry_zero, hstart]

/-! ## Conservation -/

variable {h n}

/-- **No wrapper is lost or handed out twice**: those made are those handed out and those that the
registry has left, each as often. -/
theorem perm_allMade (hlast : ∀ m < n, h.registered? m ≠ some .last) :
    (h.allMade n).Perm (h.allHandedOut n ++ (h.registry n).wrappers.values) := by
  induction n with
  | zero => rw [h.wrappers_zero]; exact .refl _
  | succ n ih =>
    have ih := ih fun m hm => hlast m (Nat.lt_succ_of_lt hm)
    rw [allMade_succ, allHandedOut_succ]
    rcases h.wrappers_succ n (hlast n n.lt_succ_self) with
      ⟨_, hm, ho, hw⟩ | ⟨ctx, w, _, hm, ho, hnew, hw⟩ | ⟨_, hm, ho, hw⟩
    · rw [hm, ho, hw, Option.map_none, Option.toList_none, List.append_nil, List.append_nil]
      exact ih
    · rw [hm, ho, hw, Option.map_some, Option.toList_some, List.append_nil]
      calc
        (h.allMade n ++ [w]).Perm (w :: h.allMade n) := List.perm_append_singleton _ _
        List.Perm _ (w :: (h.allHandedOut n ++ (h.registry n).wrappers.values)) := ih.cons w
        List.Perm _ (h.allHandedOut n ++ w :: (h.registry n).wrappers.values) :=
          List.perm_middle.symm
        List.Perm _ (h.allHandedOut n ++ ((h.registry n).wrappers.insert ctx w).values) :=
          (OrderedMap.perm_values_insert hnew w).symm.append_left _
    · rw [hm, ho, hw, Option.map_none, Option.toList_none, List.append_nil]
      exact ih.trans (.of_eq (List.append_nil _).symm)

/-- **The registry has what was made since contexts were last cleared**, under the number of the
context that it was made for. -/
theorem get?_wrappers_iff (hlast : ∀ m < n, h.registered? m ≠ some .last) {ctx : ContextId}
    {w : WrapperRef} : (h.registry n).wrappers.get? ctx = some w ↔ h.MadeFor n ctx w := by
  induction n with
  | zero =>
    rw [h.wrappers_zero]
    exact ⟨nofun, fun ⟨_, hm, _⟩ => absurd hm (Nat.not_lt_zero _)⟩
  | succ n ih =>
    have ih := ih fun m hm => hlast m (Nat.lt_succ_of_lt hm)
    rw [MadeFor, sinceCleared_succ_iff, ← MadeFor, ← ih]
    rcases h.wrappers_succ n (hlast n n.lt_succ_self) with
      ⟨hne, hm, _, hw⟩ | ⟨q, x, hne, hm, _, hnew, hw⟩ | ⟨he, hm, _, hw⟩
    · rw [hm, hw]
      simp [hne]
    · have hfree : q = ctx → (h.registry n).wrappers.get? ctx ≠ some w := by
        rintro rfl hget
        cases hnew.symm.trans (OrderedMap.contains_of_get? hget)
      rw [hm, hw, OrderedMap.get?_insert_eq_some_iff, Option.some.injEq, Prod.mk.injEq]
      exact or_congr_right
        ⟨fun hget => ⟨hne, hget.2⟩, fun hget => ⟨fun heq => hfree heq hget.2, hget.2⟩⟩
    · rw [hm, hw]
      simp [he]

/-- A call that clears the contexts hands all wrappers out, in the order of their contexts. -/
theorem handedOut_of_clearContexts {m : Nat} (hc : h.calls[m]? = some .clearContexts) :
    h.handedOut m = (h.registry m).wrappers.entries.map (·.2) := by
  rw [handedOut, hc]
  rfl

end History

/-- **Wrappers are neither lost nor finalized twice.**  Whatever the host is, whatever calls are made
and whichever of them fail, as long as no context gets the last number: the wrappers made for contexts
are those handed out so far and those that the registry has left, each as often; the registry answers
with the wrapper of a context from its registration until contexts are cleared, though the context
may be gone; and clearing the contexts hands out the wrappers made since they were last cleared, in
the order of context numbers. -/
theorem wrappers_conserved {config : Config} (h : History config φ) (n : Nat)
    (hlast : ∀ m < n, h.registered? m ≠ some .last) :
    (h.allMade n).Perm (h.allHandedOut n ++ (h.registry n).wrappers.values) ∧
      (∀ ctx w, (h.registry n).wrapperOf ctx = .ok w ↔ h.MadeFor n ctx w) ∧
      ∀ m < n, h.calls[m]? = some .clearContexts → ∃ entries : List (ContextId × WrapperRef),
        h.handedOut m = entries.map (·.2) ∧
        entries.Pairwise (fun a b => a.1.index < b.1.index) ∧
        ∀ ctx w, (ctx, w) ∈ entries ↔ h.MadeFor m ctx w := by
  refine ⟨History.perm_allMade hlast, fun ctx w => ?_, fun m hm hc => ?_⟩
  · rw [wrapperOf_eq_ok_iff, History.get?_wrappers_iff hlast]
  · refine ⟨_, History.handedOut_of_clearContexts hc, ?_, fun ctx w => ?_⟩
    · exact (h.registry m).wrappers.ascending.imp UInt32.lt_iff_toNat_lt.2
    · rw [← History.get?_wrappers_iff fun k hk => hlast k (Nat.lt_trans hk hm),
        OrderedMap.get?_eq_some_iff_mem]

/-- A host that numbers its wrappers. -/
def numberingHost : WrapContext UInt64 := fun _ _ next => (⟨next⟩, next + 1)

/-- Three contexts that are registered and retired, each in its own way, before contexts are cleared.
In between a number is given again whose context is gone, and it is given once more at the end. -/
def retirements : History {} UInt64 where
  start := _
  created := rfl
  surroundings := 1000
  calls := [.registerRecorded numberingHost ⟨7⟩ ⟨⟨0⟩, ⟨1⟩, ⟨2⟩, ⟨3⟩, ⟨4⟩⟩,
    .registerRecorded numberingHost ⟨3⟩ ⟨⟨5⟩, ⟨6⟩, ⟨7⟩, ⟨8⟩, ⟨9⟩⟩,
    .destroyInReplay (LogId.sentinelsOf ⟨7⟩), .destroyInRecord ⟨3⟩,
    .registerRecorded numberingHost ⟨7⟩ ⟨⟨0⟩, ⟨1⟩, ⟨2⟩, ⟨3⟩, ⟨4⟩⟩,
    .registerContext numberingHost .record ⟨⟨0⟩, ⟨1⟩, ⟨2⟩, ⟨3⟩, ⟨4⟩⟩, .signalRetired ⟨8⟩,
    .processSignals, .clearContexts,
    .registerRecorded numberingHost ⟨7⟩ ⟨⟨5⟩, ⟨6⟩, ⟨7⟩, ⟨8⟩, ⟨9⟩⟩]

/-- The number of a context that is gone is refused, as its wrapper is there still.  Clearing hands
out three wrappers, in the order of their contexts and not in that in which they were made; then the
number is free again. -/
theorem wrappers_after_retirements :
    (∀ m < 10, retirements.registered? m ≠ some .last) ∧ retirements.registered? 4 = none ∧
      (retirements.registry 8).contexts = [] ∧ retirements.MadeFor 8 ⟨7⟩ ⟨1000⟩ ∧
      retirements.handedOut 8 = [⟨1001⟩, ⟨1000⟩, ⟨1002⟩] ∧
      (retirements.allMade 10).Perm ([⟨1001⟩, ⟨1000⟩, ⟨1002⟩] ++ [⟨1003⟩]) ∧
      retirements.MadeFor 10 ⟨7⟩ ⟨1003⟩ := by
  have hlast : ∀ m < 10, retirements.registered? m ≠ some .last := by decide +kernel
  have hlast' : ∀ m < 8, retirements.registered? m ≠ some .last := fun m hm => hlast m (by omega)
  have hall : retirements.allHandedOut 10 = [⟨1001⟩, ⟨1000⟩, ⟨1002⟩] := by decide +kernel
  have hleft : (retirements.registry 10).wrappers.values = [⟨1003⟩] := by decide +kernel
  have hretired : (retirements.registry 8).wrapperOf ⟨7⟩ = .ok ⟨1000⟩ :=
    (wrapperOf_eq_ok_iff _).2 (by decide +kernel)
  have hagain : (retirements.registry 10).wrapperOf ⟨7⟩ = .ok ⟨1003⟩ :=
    (wrapperOf_eq_ok_iff _).2 (by decide +kernel)
  obtain ⟨hconserved, hfound, _⟩ := wrappers_conserved retirements 10 hlast
  rw [hall, hleft] at hconserved
  exact ⟨hlast, by decide +kernel, by decide +kernel,
    ((wrappers_conserved retirements 8 hlast').2.1 _ _).1 hretired, by decide +kernel, hconserved,
    (hfound _ _).1 hagain⟩

end Registry

end Retrace
