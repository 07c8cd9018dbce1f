/-
# What a call does to the wrappers

The host makes a wrapper for every context that is registered, and gets all of them back when all
contexts are cleared.  Nothing else touches the wrappers.

| step | made by | wrappers made | wrappers handed out |
| --- | --- | --- | --- |
| `kept` | every call that fails, and all calls but those below | none | none |
| `added` | `registerContext`, `registerRecorded` | the one added | none |
| `cleared` | `clearContexts` | none | all |

The specification keeps a wrapper past the retirement of its context (section 4.1), so that few
calls touch any.
-/

import Retrace.Proofs.Registry.ContextSteps

namespace Retrace

namespace Registry

variable {φ : Type} {c : Call φ} {t t' : Registry × φ}

/-! ## What a call answers -/

/-- The context that a call registers, if it registers one. -/
def Call.registered? (c : Call φ) (t : Registry × φ) : Option ContextId :=
  match c.sentinels?, c.run t with
  | some _, .ok (.context ctx) _ => some ctx
  | _, _ => none

/-- How the host wraps the context that a call registers. -/
def Call.wraps? : Call φ → Option (ContextId → StateM φ WrapperRef)
  | registerContext wrap mode _ => some fun ctx => wrap ctx mode
  | registerRecorded wrap _ _ => some fun ctx => wrap ctx .replay
  | _ => none

/-- The context that a call registers and the wrapper that the host makes for it, if it registers
one. -/
def Call.made? (c : Call φ) (t : Registry × φ) : Option (ContextId × WrapperRef) :=
  (c.registered? t).bind fun ctx => c.wraps?.map fun wrap => (ctx, (wrap ctx t.2).1)

/-- The wrappers that a call answers with. -/
def Call.handedOut (c : Call φ) (t : Registry × φ) : List WrapperRef :=
  match c.run t with
  | .ok (.wrappers refs) _ => refs
  | _ => []

theorem Call.made?_eq_none (h : c.registered? t = none) : c.made? t = none := by
  rw [made?, h, Option.bind_none]

/-- A context is registered with the wrapper that the host makes for it. -/
theorem Call.made?_of_run {sentinels : PerSlot ObjectHandle} {ctx : ContextId}
    (hc : c.sentinels? = some sentinels) (h : c.run t = .ok (.context ctx) t') :
    ∃ w, c.made? t = some (ctx, w) ∧ t'.1.wrappers = t.1.wrappers.insert ctx w := by
  have hreg : c.registered? t = some ctx := by rw [registered?, hc, h]
  rw [made?, hreg]
  cases c with
  | registerContext wrap mode sentinels =>
    obtain ⟨_, hok, ⟨⟩⟩ := (Action.map_eq_ok_iff _ _).1 h
    obtain ⟨_, rfl, rfl⟩ := enroll_eq_ok_iff.1 hok
    exact ⟨_, rfl, rfl⟩
  | registerRecorded wrap recorded sentinels =>
    obtain ⟨_, hok, ⟨⟩⟩ := (Action.map_eq_ok_iff _ _).1 h
    unfold Registry.registerRecorded at hok
    dsimp only at hok
    split at hok
    · cases hok
    · obtain ⟨_, rfl, rfl⟩ := enroll_eq_ok_iff.1 hok
      exact ⟨_, rfl, rfl⟩
  | _ => cases hc

/-- Only one call answers with wrappers, so that they are handed out in one place. -/
theorem Call.eq_clearContexts_of_run {refs : List WrapperRef}
    (h : c.run t = .ok (.wrappers refs) t') : c = .clearContexts := by
  cases c with
  | clearContexts => rfl
  | clearDead | resetChangedInReplay | clearRoots => cases h
  | _ =>
    obtain ⟨_, _, he⟩ := (Action.map_eq_ok_iff _ _).1 h
    cases he

theorem Call.handedOut_eq_nil (hc : c ≠ .clearContexts) : c.handedOut t = [] := by
  unfold handedOut
  split
  · rename_i h
    exact absurd (eq_clearContexts_of_run h) hc
  · rfl

/-! ## Steps -/

/-- A step of a call that is given no sentinels leaves the wrappers alone, unless it clears them. -/
theorem ContextStep.wrappers_eq {r r' : Registry} (hs : ContextStep c r r')
    (hc : c.sentinels? = none) (hclear : c ≠ .clearContexts) : r'.wrappers = r.wrappers := by
  cases hs with
  | same hs => exact hs.wrappers
  | tracked _ _ _ hgiven =>
    rw [hc] at hgiven
    cases hgiven
  | cleared h => exact absurd h hclear
  | activated | dropped | written | signalled | pinned => rfl

/-- What a call does to the wrappers. -/
inductive WrapperStep (c : Call φ) (t : Registry × φ) : OrderedMap ContextId WrapperRef → Prop where
  /-- It leaves them alone. -/
  | kept : c ≠ .clearContexts → c.registered? t = none → WrapperStep c t t.1.wrappers
  /-- It adds the one made for the context that it registers, whose number has none or is the next
  one. -/
  | added {ctx : ContextId} {w : WrapperRef} : c ≠ .clearContexts → c.registered? t = some ctx →
      c.made? t = some (ctx, w) → (t.1.wrappers.contains ctx = true → ctx = ⟨t.1.nextContext⟩) →
      WrapperStep c t (t.1.wrappers.insert ctx w)
  /-- It hands them all out. -/
  | cleared : c = .clearContexts → c.handedOut t = t.1.wrappers.values → WrapperStep c t .empty

/-- **Every call, whether it succeeds or fails, makes one such step**, and most of them the one that
changes nothing. -/
theorem Call.wrapperStep (c : Call φ) (t : Registry × φ) :
    WrapperStep c t (c.run.after t).1.wrappers := by
  cases hc : c.sentinels? with
  | some sentinels =>
    have hne : c ≠ .clearContexts := by
      rintro rfl
      cases hc
    rcases Call.run_cases_of_sentinels? hc t with ⟨ctx, mode, wrapper, host, _, hctx, he⟩ | ⟨e, he⟩
    · obtain ⟨w, hmade, hw⟩ := Call.made?_of_run hc he
      rw [Action.after_of_eq_ok he, hw]
      exact .added hne (by rw [registered?, hc, he]) hmade hctx
    · rw [Action.after_of_eq_error he]
      exact .kept hne (by rw [registered?, hc, he])
  | none =>
    by_cases hclear : c = .clearContexts
    · subst hclear
      exact .cleared rfl rfl
    · have hw : (c.run.after t).1.wrappers = t.1.wrappers :=
        ContextSteps.keeps (P := fun r => r.wrappers = t.1.wrappers) (c.contextSteps t)
          (fun hr hs => (hs.wrappers_eq hc hclear).trans hr) rfl
      rw [hw]
      exact .kept hclear (by rw [registered?, hc])

/-- **What has a wrapper after a call** is what it registers, and what had one unless the contexts
are cleared. -/
theorem Call.contains_wrappers_iff (c : Call φ) (t : Registry × φ) (ctx : ContextId) :
    (c.run.after t).1.wrappers.contains ctx = true ↔
      c.registered? t = some ctx ∨ c ≠ .clearContexts ∧ t.1.wrappers.contains ctx = true := by
  have hs := c.wrapperStep t
  generalize (c.run.after t).1.wrappers = wrappers at hs ⊢
  cases hs with
  | kept hne hreg => simp [hne, hreg]
  | added hne hreg => simp [hne, hreg, OrderedMap.contains_insert_iff]
  | cleared he =>
    subst he
    exact ⟨fun hw => absurd hw Bool.false_ne_true, fun h => absurd rfl (h.resolve_left nofun).1⟩

end Registry

end Retrace
