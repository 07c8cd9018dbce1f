/-
# Deferred retirement

The collector leaves signals, and the contexts signalled are retired later (`processSignals`).  The
queue of signals may name a context more than once, one that is gone by then, and one that never
was.  What is left of a queue is `retirable`, and retiring those contexts one by one while recording
comes to the same (`processSignals_eq_mapM_destroyInRecord`).

Whether a context is tracked is asked when its turn comes, of a registry from which those before it
are gone.  That a context signalled twice is not retired twice rests on no two tracked contexts
having one number: else the second signal would find the other one.

The specification says that each signal becomes a *destroy-in-record* (section 4.1); what that means
of a queue is said here.
-/

import Retrace.Proofs.Distinct
import Retrace.Proofs.Registry.ContextsInOrder
import Retrace.Proofs.Registry.Failures

namespace Retrace

namespace Action

variable {σ α β : Type}

/-- An action on each item of a list succeeds if it does on the first one, and then on the
others. -/
theorem mapM_cons_eq_ok_iff {f : α → Action σ β} {a : α} {l : List α} {bs : List β} {s t : σ} :
    (a :: l).mapM f s = .ok bs t ↔
      ∃ b u rest, f a s = .ok b u ∧ l.mapM f u = .ok rest t ∧ bs = b :: rest := by
  rw [List.mapM_cons, bind_apply]
  cases f a s with
  | error e u => simp
  | ok b u =>
    show (l.mapM f >>= fun rest => pure (b :: rest)) u = _ ↔ _
    rw [bind_pure_comp, map_eq_ok_iff]
    constructor
    · rintro ⟨rest, hrest, rfl⟩
      exact ⟨b, u, rest, rfl, hrest, rfl⟩
    · rintro ⟨_, _, rest, h, hrest, rfl⟩
      cases h
      exact ⟨rest, hrest, rfl⟩

end Action

namespace Registry

/-! ## What is left of a queue -/

/-- The contexts of a queue that are tracked, each once, in the order in which they come first. -/
def retirable (r : Registry) (queue : List ContextId) : List ContextId :=
  (queue.filter r.isTracked).eraseDups

theorem retirable_cons_of_untracked {r : Registry} {ctx : ContextId} (h : r.context? ctx = none)
    (rest : List ContextId) : r.retirable (ctx :: rest) = r.retirable rest := by
  rw [retirable, List.filter_cons_of_neg (not_isTracked_of_context? h), retirable]

/-- Where no two contexts have one number, the contexts tracked without one of them are those of
other numbers. -/
theorem isTracked_dropContext_of_nodup {r : Registry} (hr : (r.contexts.map (·.id)).Nodup)
    (c : TrackedContext) (ctx : ContextId) :
    (r.dropContext c).isTracked ctx = (!ctx == c.id && r.isTracked ctx) := by
  show (r.contexts.eraseP fun d => d.id = c.id).any (fun d => d.id = ctx) = _
  rw [eraseP_eq_filter_of_nodup hr, List.any_filter, isTracked, Bool.eq_iff_iff]
  simp only [List.any_eq_true, Bool.and_eq_true, decide_eq_true_eq, Bool.not_eq_true',
    beq_eq_false_iff_ne]
  constructor
  · rintro ⟨d, hd, hne, rfl⟩
    exact ⟨hne, d, hd, rfl⟩
  · rintro ⟨hne, d, hd, rfl⟩
    exact ⟨d, hd, hne, rfl⟩

/-- Once a tracked context has been retired, the rest of a queue is left as it is without it. -/
theorem retirable_cons_of_tracked {r : Registry} (hr : (r.contexts.map (·.id)).Nodup)
    {c : TrackedContext} {ctx : ContextId} (h : r.context? ctx = some c) (rest : List ContextId) :
    r.retirable (ctx :: rest) = ctx :: (r.dropContext c).retirable rest := by
  obtain ⟨_, rfl⟩ := mem_of_context? h
  rw [retirable, List.filter_cons_of_pos (isTracked_of_context? h), List.eraseDups_cons,
    List.filter_filter, retirable]
  exact congrArg (fun l => c.id :: List.eraseDups l)
    (List.filter_congr fun ctx _ => (isTracked_dropContext_of_nodup hr c ctx).symm)

/-! ## One context after the other -/

/-- The contexts of a queue that have their turn are those that were tracked at first. -/
theorem retireAll_eq_mapM {r : Registry} (hr : (r.contexts.map (·.id)).Nodup)
    (queue : List ContextId) {records : List DeadContext} {s : Registry}
    (h : retireAll queue r = .ok records s) :
    (r.retirable queue).mapM destroyInRecord r = .ok records s := by
  induction queue generalizing r records with
  | nil => exact h
  | cons ctx rest ih =>
    cases hctx : r.context? ctx with
    | none =>
      have hfails := destroyInRecord_of_untracked hctx
      rw [retireAll_of_untracked hctx, Action.after_of_eq_error hfails] at h
      rw [retirable_cons_of_untracked hctx]
      exact ih hr h
    | some c =>
      have hrun := destroyInRecord_eq_ok_iff.2 ⟨c, hctx, rfl, rfl⟩
      rw [retireAll_of_tracked hctx, Action.after_of_eq_ok hrun, Action.map_eq_ok_iff] at h
      obtain ⟨others, hothers, rfl⟩ := h
      rw [retirable_cons_of_tracked hr hctx]
      exact Action.mapM_cons_eq_ok_iff.2 ⟨_, _, others, hrun,
        ih (hr.sublist (List.eraseP_sublist.map _)) hothers, rfl⟩

/-- Each context retired has its record, in their order. -/
theorem contexts_mapM_destroyInRecord {ctxs : List ContextId} {records : List DeadContext}
    {r s : Registry} (h : ctxs.mapM destroyInRecord r = .ok records s) :
    records.map (·.context) = ctxs := by
  induction ctxs generalizing r records with
  | nil =>
    cases h
    rfl
  | cons ctx rest ih =>
    obtain ⟨_, u, others, hrun, hothers, rfl⟩ := Action.mapM_cons_eq_ok_iff.1 h
    obtain ⟨c, _, rfl, _⟩ := destroyInRecord_eq_ok_iff.1 hrun
    rw [List.map_cons, ih hothers]

/-- Retiring contexts does not look at the signals, and leaves them as they are. -/
theorem mapM_destroyInRecord_withSignals {ctxs : List ContextId} {records : List DeadContext}
    {r s : Registry} (h : ctxs.mapM destroyInRecord r = .ok records s) (queue : List ContextId) :
    ctxs.mapM destroyInRecord { r with signals := queue } =
      .ok records { s with signals := queue } := by
  induction ctxs generalizing r records with
  | nil =>
    cases h
    rfl
  | cons ctx rest ih =>
    obtain ⟨d, u, others, hrun, hothers, rfl⟩ := Action.mapM_cons_eq_ok_iff.1 h
    obtain ⟨c, hctx, rfl, rfl⟩ := destroyInRecord_eq_ok_iff.1 hrun
    exact Action.mapM_cons_eq_ok_iff.2 ⟨_, _, others,
      destroyInRecord_eq_ok_iff.2 ⟨c, hctx, rfl, rfl⟩, ih hothers, rfl⟩

/-! ## All signals -/

/-- **Retiring by signals is retiring one by one.**  In a registry in which no two tracked contexts
share a number, and whatever queue of signals it has, the signals are processed without an error.
The records, one for each context retired, and the registry, apart from the signals that are gone,
are those that retiring the tracked contexts of the queue one by one leaves; and processing the
signals once more does nothing. -/
theorem processSignals_eq_mapM_destroyInRecord {r : Registry} (hr : (r.contexts.map (·.id)).Nodup)
    (queue : List ContextId) :
    ∃ records s, processSignals { r with signals := queue } = .ok records { s with signals := [] } ∧
      records.map (·.context) = r.retirable queue ∧
      (r.retirable queue).mapM destroyInRecord { r with signals := queue } = .ok records s ∧
      processSignals { s with signals := [] } = .ok [] { s with signals := [] } := by
  obtain ⟨records, u, hrun⟩ := retireAll_ok queue { r with signals := [] }
  have heach : (r.retirable queue).mapM destroyInRecord { r with signals := [] } = .ok records u :=
    retireAll_eq_mapM (r := { r with signals := [] }) hr queue hrun
  -- No signal is left while the contexts are retired, so none is left in the end.
  have hempty : u = { u with signals := [] } := by
    have hsame := heach.symm.trans (mapM_destroyInRecord_withSignals heach [])
    exact (EStateM.Result.ok.inj hsame).2
  refine ⟨records, { u with signals := queue }, ?_, contexts_mapM_destroyInRecord heach,
    mapM_destroyInRecord_withSignals heach queue, rfl⟩
  rw [processSignals_eq, hrun, hempty]

/-- Of three contexts two are signalled, the one registered last first, and both again; two more
signals name a context retired before, and one never registered. -/
theorem processSignals_eq_mapM_destroyInRecord_of_repeated_signals :
    ∃ t : Registry × Unit, Reachable {} t ∧ t.1.contexts.map (·.id) = [⟨0⟩, ⟨2⟩, ⟨3⟩] ∧
      t.1.signals = [⟨3⟩, ⟨1⟩, ⟨0⟩, ⟨3⟩, ⟨9⟩, ⟨0⟩] ∧ t.1.retirable t.1.signals = [⟨3⟩, ⟨0⟩] ∧
      ∃ records s, processSignals t.1 = .ok records { s with signals := [] } ∧
        records.map (·.context) = [⟨3⟩, ⟨0⟩] ∧
        [⟨3⟩, ⟨0⟩].mapM destroyInRecord t.1 = .ok records s ∧
        processSignals { s with signals := [] } = .ok [] { s with signals := [] } := by
  let wrap : WrapContext Unit := fun ctx _ => pure ⟨ctx.index.toUInt64⟩
  have hcreated : Reachable (φ := Unit) {} _ := .created () (rfl : create {} = .ok _)
  have h : Reachable {} _ := ((((((((((hcreated.called
    (.registerContext wrap .record ⟨⟨0⟩, ⟨1⟩, ⟨2⟩, ⟨3⟩, ⟨4⟩⟩)).called
    (.registerContext wrap .record ⟨⟨5⟩, ⟨6⟩, ⟨7⟩, ⟨8⟩, ⟨9⟩⟩)).called
    (.registerContext wrap .record ⟨⟨10⟩, ⟨11⟩, ⟨12⟩, ⟨13⟩, ⟨14⟩⟩)).called
    (.registerContext wrap .record ⟨⟨15⟩, ⟨16⟩, ⟨17⟩, ⟨18⟩, ⟨19⟩⟩)).called
    (.destroyInRecord ⟨1⟩)).called (.signalRetired ⟨3⟩)).called (.signalRetired ⟨1⟩)).called
    (.signalRetired ⟨0⟩)).called (.signalRetired ⟨3⟩)).called (.signalRetired ⟨9⟩)).called
    (.signalRetired ⟨0⟩)
  generalize hrun : Action.after _ _ = t at h
  have hcontexts : t.1.contexts.map (·.id) = [⟨0⟩, ⟨2⟩, ⟨3⟩] := by rw [← hrun]; decide
  have hsignals : t.1.signals = [⟨3⟩, ⟨1⟩, ⟨0⟩, ⟨3⟩, ⟨9⟩, ⟨0⟩] := by rw [← hrun]; decide
  have hretirable : t.1.retirable t.1.signals = [⟨3⟩, ⟨0⟩] := by rw [hsignals, ← hrun]; decide
  obtain ⟨records, s, hprocess, hrecords, heach, hagain⟩ :=
    processSignals_eq_mapM_destroyInRecord (by rw [hcontexts]; decide) t.1.signals
  rw [hretirable] at hrecords heach
  exact ⟨t, h, hcontexts, hsignals, hretirable, records, s, hprocess, hrecords, heach, hagain⟩

end Registry

end Retrace
