/-
# Signals of the collector

The collector reports a context as gone while it may not retire it; the signal waits, and other calls
come in between.  A signal holds no more than the number of the context, and numbers are given again.
Still the context that is retired for a signal is the one that was tracked when it was left
(`retired_registration`):

| in between | so that |
| --- | --- |
| the context is retired | its wrapper stays, and no log gets its number |
| a new context is registered | it gets a number beyond all that have wrappers |
| all contexts are cleared | the signal is dropped |

The last number is an exception, as it is its own successor.

`pending` tells the signals that wait by the calls that left them, and `retirements` what becomes of
each; that these are the signals and the retirements of the registry is shown by `signals_eq` and
`run_processSignals`.

This is what the collector notifier promises (specification, sections 4.1 and 5), told over time.
-/

import Retrace.Proofs.Registry.FreshContexts

namespace Retrace

namespace Registry

variable {φ : Type}

/-! ## What calls do to signals -/

theorem signals_destroyInRecord (ctx : ContextId) (r : Registry) :
    ((destroyInRecord ctx).after r).signals = r.signals := by
  unfold Action.after destroyInRecord
  cases r.context ctx <;> rfl

theorem signals_destroyInReplay (ids : PerSlot LogId) (r : Registry) :
    ((destroyInReplay ids).after r).signals = r.signals := by
  unfold Action.after destroyInReplay
  cases r.lookupContext ids.globalObject with
  | error e => rfl
  | ok ctx =>
    dsimp only
    cases r.context ctx <;> rfl

theorem signals_retireAll (ctxs : List ContextId) (r : Registry) :
    ((retireAll ctxs).after r).signals = r.signals := by
  induction ctxs generalizing r with
  | nil => rfl
  | cons ctx rest ih => rw [after_retireAll_cons, ih, signals_destroyInRecord]

theorem signals_setActive (ctx : Option ContextId) (r : Registry) :
    ((setActive ctx).after r).signals = r.signals := by
  unfold Action.after setActive
  cases ctx.filter fun c => !r.isTracked c <;> rfl

theorem signals_addSpecialRoot (ctx : ContextId) (slot : SentinelSlot) (r : Registry) :
    ((addSpecialRoot ctx slot).after r).signals = r.signals := by
  unfold Action.after addSpecialRoot
  cases r.context ctx <;> rfl

theorem signals_removeSpecialRoot (id : LogId) (r : Registry) :
    ((removeSpecialRoot id).after r).signals = r.signals := by
  unfold Action.after removeSpecialRoot
  cases r.lookupSentinel id with
  | error e => rfl
  | ok obj => rcases hu : r.specialRoots.unpin obj with ⟨_ | n, pins⟩ <;> simp only [hu]

theorem signals_onJournal (ctx : ContextId) (action : Action (Journal × φ) Unit)
    (t : Registry × φ) : ((onJournal ctx action).after t).1.signals = t.1.signals := by
  obtain ⟨r, w⟩ := t
  unfold Action.after onJournal
  dsimp only
  cases r.journal ctx with
  | error e => rfl
  | ok j =>
    dsimp only
    cases action (j, w) <;> rfl

/-- What a call makes of the signals that wait. -/
def Call.signalsAfter (c : Call φ) (r : Registry) : List ContextId :=
  match c with
  | signalRetired ctx => if (r.signalRetired ctx).1 then r.signals ++ [ctx] else r.signals
  | processSignals | clearContexts => []
  | _ => r.signals

/-- **Every call, whether it succeeds or fails, leaves the signals alone**, but for those that are
about signals and the one that clears contexts. -/
theorem Call.signals_after (c : Call φ) (t : Registry × φ) :
    (c.run.after t).1.signals = c.signalsAfter t.1 := by
  have hregisters : ∀ sentinels, c.sentinels? = some sentinels →
      (c.run.after t).1.signals = t.1.signals := fun sentinels hc => by
    rcases Call.run_cases_of_sentinels? hc t with ⟨_, _, _, _, _, _, he⟩ | ⟨e, he⟩
    · rw [Action.after_of_eq_ok he]
      rfl
    · rw [Action.after_of_eq_error he]
  cases c with
  | registerContext wrap mode sentinels => exact hregisters sentinels rfl
  | registerRecorded wrap recorded sentinels => exact hregisters sentinels rfl
  | setActive ctx =>
    rw [Call.run, Action.after_map_beside]
    exact signals_setActive ctx t.1
  | destroyInRecord ctx =>
    rw [Call.run, Action.after_map_beside]
    exact signals_destroyInRecord ctx t.1
  | destroyInReplay ids =>
    rw [Call.run, Action.after_map_beside]
    exact signals_destroyInReplay ids t.1
  | signalRetired ctx =>
    rw [Call.run, Action.after_map_beside, Action.after_ofFn, signalsAfter]
    unfold Registry.signalRetired
    split <;> rfl
  | processSignals =>
    rw [Call.run, Action.after_map_beside]
    unfold Action.after
    rw [processSignals_eq]
    exact signals_retireAll t.1.signals _
  | addRoot obj =>
    rw [Call.run, Action.after_map_beside, addRoot_eq]
    exact (sameContexts_pinById (fun s => sameContexts_pinRoot s obj) obj t.1).signals
  | addRootWithId obj id =>
    rw [Call.run, Action.after_map_beside]
    exact (sameContexts_addRootWithId obj id t.1).signals
  | removeRoot obj =>
    rw [Call.run, Action.after_map_beside]
    exact (sameContexts_removeRoot obj t.1).signals
  | addSpecialRoot ctx slot =>
    rw [Call.run, Action.after_map_beside]
    exact signals_addSpecialRoot ctx slot t.1
  | removeSpecialRoot id =>
    rw [Call.run, Action.after_map_beside]
    exact signals_removeSpecialRoot id t.1
  | addLocalRoot obj =>
    rw [Call.run, Action.after_map_beside, addLocalRoot_eq]
    exact (sameContexts_pinById (fun s => sameContexts_pinLocal s obj) obj t.1).signals
  | ensureCorePaths image roots =>
    rw [Call.run, Action.after_map_beside]
    exact (sameContexts_ensureCorePaths image roots t.1).signals
  | onJournal ctx action =>
    rw [Call.run, Action.after_map]
    exact signals_onJournal ctx action t
  | clearDead | resetChangedInReplay | clearContexts | refreshLocalRoots | clearRoots => rfl

/-! ## Signals that wait, and what is retired for them -/

/-- What is retired for signals, each with what tells it apart: a context that is tracked when its
turn comes. -/
def retiredFor : List (Nat × ContextId) → Registry → List (Nat × TrackedContext)
  | [], _ => []
  | (m, ctx) :: rest, r =>
    ((r.context? ctx).map fun d => (m, d)).toList ++ retiredFor rest ((destroyInRecord ctx).after r)

/-- These are the contexts that are retired. -/
theorem retireAll_eq_retiredFor (waiting : List (Nat × ContextId)) (r : Registry) :
    retireAll (waiting.map (·.2)) r =
      .ok ((retiredFor waiting r).map fun e => ⟨e.2.id, e.2.sentinelIds⟩)
        ((retireAll (waiting.map (·.2))).after r) := by
  induction waiting generalizing r with
  | nil => rfl
  | cons e rest ih =>
    obtain ⟨m, ctx⟩ := e
    rw [List.map_cons, after_retireAll_cons, retiredFor]
    cases hd : r.context? ctx with
    | none =>
      rw [retireAll_of_untracked hd, ih]
      rfl
    | some d =>
      rw [retireAll_of_tracked hd]
      refine (Action.map_eq_ok_iff _ _).2 ⟨_, ih _, ?_⟩
      rw [← (mem_of_context? hd).2]
      rfl

/-- What is retired for a signal has the number signalled, and was tracked from the start. -/
theorem mem_retiredFor {waiting : List (Nat × ContextId)} {r : Registry} {m : Nat}
    {d : TrackedContext} (h : (m, d) ∈ retiredFor waiting r) :
    (m, d.id) ∈ waiting ∧ d ∈ r.contexts := by
  induction waiting generalizing r with
  | nil => cases h
  | cons e rest ih =>
    obtain ⟨k, ctx⟩ := e
    rw [retiredFor, List.mem_append, Option.mem_toList, Option.map_eq_some_iff] at h
    rcases h with ⟨d', hd, ⟨⟩⟩ | h
    · obtain ⟨hmem, rfl⟩ := mem_of_context? hd
      exact ⟨List.mem_cons_self, hmem⟩
    · obtain ⟨hmem, hd⟩ := ih h
      exact ⟨List.mem_cons_of_mem _ hmem,
        (samePins_destroyInRecord ctx r).contexts.subset hd⟩

namespace History

variable {config : Config}

/-- The signals that wait after a number of calls, oldest first: each with the number of the call that
left it. -/
def pending (h : History config φ) : Nat → List (Nat × ContextId)
  | 0 => []
  | n + 1 =>
    match h.calls[n]? with
    | some (.signalRetired ctx) =>
      if ((h.registry n).signalRetired ctx).1 then h.pending n ++ [(n, ctx)] else h.pending n
    | some .processSignals | some .clearContexts => []
    | _ => h.pending n

variable (h : History config φ)

/-- The contexts that the next call retires for signals: each with the number of the call that left
the signal. -/
def retirements (n : Nat) : List (Nat × TrackedContext) :=
  match h.calls[n]? with
  | some .processSignals => retiredFor (h.pending n) { h.registry n with signals := [] }
  | _ => []

/-- These are the signals that wait. -/
theorem signals_eq (n : Nat) : (h.registry n).signals = (h.pending n).map (·.2) := by
  induction n with
  | zero =>
    obtain ⟨_, hstart⟩ := create_eq_ok_iff.1 h.created
    rw [h.registry_zero, hstart]
    rfl
  | succ n ih =>
    rw [pending]
    cases hc : h.calls[n]? with
    | none =>
      rw [registry, h.state_succ_of_none hc]
      exact ih
    | some c =>
      rw [registry, h.state_succ_of_some hc, c.signals_after]
      cases c with
      | signalRetired ctx =>
        rw [Call.signalsAfter, ← registry, ih]
        dsimp only
        split
        · rw [List.map_append]
          rfl
        · rfl
      | processSignals | clearContexts => rfl
      | _ => exact ih

/-- These are the contexts that are retired: processing the signals succeeds, and answers with what
remains of them. -/
theorem run_processSignals {n : Nat} (hc : h.calls[n]? = some .processSignals) :
    Call.processSignals.run (h.state n) =
      .ok (.retired ((h.retirements n).map fun e => ⟨e.2.id, e.2.sentinelIds⟩))
        (h.state (n + 1)) := by
  have hrun : processSignals (h.registry n) = .ok _ _ :=
    (processSignals_eq _).trans (by rw [h.signals_eq]; exact retireAll_eq_retiredFor _ _)
  have hok := (Action.map_beside_eq_ok_iff (t := h.state n) Answer.retired processSignals).2
    ⟨_, _, hrun, rfl, rfl⟩
  rw [h.state_succ_of_some hc, retirements, hc]
  exact hok.trans (by rw [Call.run, Action.after_of_eq_ok hok])

/-- A signal that waits was left by its call, and the contexts have not been cleared since. -/
theorem sinceCleared_of_mem_pending {n m : Nat} {ctx : ContextId} (hm : (m, ctx) ∈ h.pending n) :
    h.SinceCleared (fun k => k = m ∧ h.calls[k]? = some (.signalRetired ctx)) n := by
  induction n with
  | zero => cases hm
  | succ n ih =>
    rw [sinceCleared_succ_iff]
    rw [pending] at hm
    split at hm
    · rename_i q hc
      have hne : h.calls[n]? ≠ some .clearContexts := by rw [hc]; exact nofun
      split at hm
      · rcases List.mem_append.1 hm with hm | hm
        · exact .inr ⟨hne, ih hm⟩
        · cases List.mem_singleton.1 hm
          exact .inl ⟨rfl, hc⟩
      · exact .inr ⟨hne, ih hm⟩
    · cases hm
    · cases hm
    · rename_i hne
      exact .inr ⟨hne, ih hm⟩

/-! ## Registrations -/

/-- Whether a tracked context, after a number of calls, is the one that a certain call has registered:
it has been tracked ever since, and its number has not been given again. -/
structure Registration (k n : Nat) (d : TrackedContext) : Prop where
  /-- The call has been made. -/
  made : k < n
  /-- It has registered a context of this number. -/
  registered : h.registered? k = some d.id
  /-- The context has been tracked under its number ever since. -/
  tracked : ∀ j, k < j → j ≤ n → (h.registry j).context? d.id = some d
  /-- The number has not been given again. -/
  unshared : ∀ j, k < j → j < n → h.registered? j ≠ some d.id

end History

/-- A call tracks the context that it registers, and no other that was not tracked before. -/
theorem Call.contexts_cases (c : Call φ) (t : Registry × φ) :
    (c.run.after t).1.contexts.Sublist t.1.contexts ∨ ∃ ctx mode sentinels wrapper,
      c.registered? t = some ctx ∧ (c.run.after t).1 = t.1.track ctx mode sentinels wrapper := by
  cases hc : c.sentinels? with
  | none =>
    have hs := c.idStep t
    rw [hc] at hs
    exact hs.contexts_cases.imp_right fun ⟨_, _, _, _, hgiven, _⟩ => nomatch hgiven
  | some sentinels =>
    rcases Call.run_cases_of_sentinels? hc t with ⟨ctx, mode, wrapper, _, _, _, he⟩ | ⟨e, he⟩
    · rw [Action.after_of_eq_ok he]
      exact .inr ⟨ctx, mode, sentinels, wrapper, by rw [registered?, hc, he], rfl⟩
    · rw [Action.after_of_eq_error he]
      exact .inl (List.Sublist.refl _)

namespace History

variable {config : Config} {h : History config φ} {k m n : Nat} {d : TrackedContext}

/-- A context that the last call has not registered was tracked before it. -/
theorem context?_of_succ (hlast : ∀ m < n, h.registered? m ≠ some .last)
    (hreg : h.registered? n ≠ some d.id) (hd : (h.registry (n + 1)).context? d.id = some d) :
    (h.registry n).context? d.id = some d := by
  obtain ⟨hmem, _⟩ := mem_of_context? hd
  refine find?_eq_some_of_nodup (h.contextsDistinct hlast).distinct ?_
  unfold registry at hmem ⊢
  cases hc : h.calls[n]? with
  | none => rwa [h.state_succ_of_none hc] at hmem
  | some c =>
    rw [h.state_succ_of_some hc] at hmem
    rw [registered?, hc, Option.bind_some] at hreg
    rcases c.contexts_cases (h.state n) with hsub | ⟨ctx, _, _, _, hctx, htrack⟩
    · exact hsub.subset hmem
    · rw [htrack] at hmem
      refine (List.mem_append.1 hmem).resolve_right fun hnew => hreg ?_
      rw [hctx, List.mem_singleton.1 hnew]

/-- **Every tracked context has been registered**, and has been tracked ever since. -/
theorem exists_registration (hlast : ∀ m < n, h.registered? m ≠ some .last)
    (hd : (h.registry n).context? d.id = some d) : ∃ k, h.Registration k n d := by
  induction n with
  | zero =>
    obtain ⟨_, hstart⟩ := create_eq_ok_iff.1 h.created
    rw [h.registry_zero, hstart] at hd
    cases hd
  | succ n ih =>
    by_cases hreg : h.registered? n = some d.id
    · refine ⟨n, n.lt_succ_self, hreg, fun j hnj hj => ?_, fun j hnj hj => absurd hnj (by omega)⟩
      obtain rfl : j = n + 1 := by omega
      exact hd
    · have hbefore : ∀ m < n, h.registered? m ≠ some .last :=
        fun m hm => hlast m (Nat.lt_succ_of_lt hm)
      obtain ⟨k, hk⟩ := ih hbefore (context?_of_succ hbefore hreg hd)
      refine ⟨k, Nat.lt_succ_of_lt hk.made, hk.registered, fun j hkj hj => ?_, fun j hkj hj => ?_⟩
      · rcases Nat.le_succ_iff.1 hj with hj | rfl
        · exact hk.tracked j hkj hj
        · exact hd
      · rcases Nat.lt_succ_iff_lt_or_eq.1 hj with hj | rfl
        · exact hk.unshared j hkj hj
        · exact hreg

/-- A context that had been registered by an earlier time was that registration then. -/
theorem Registration.of_le (hk : h.Registration k n d) (hkm : k < m) (hmn : m ≤ n) :
    h.Registration k m d :=
  ⟨hkm, hk.registered, fun j hkj hj => hk.tracked j hkj (Nat.le_trans hj hmn),
    fun j hkj hj => hk.unshared j hkj (Nat.lt_of_lt_of_le hj hmn)⟩

/-- A number that has a wrapper is not given again, unless it is the last one. -/
theorem registered?_ne_of_wrapped {ctx : ContextId} (hlast : h.registered? n ≠ some .last)
    (hw : (h.registry n).wrappers.contains ctx = true) : h.registered? n ≠ some ctx := by
  intro hreg
  obtain ⟨c, hc, hreg'⟩ := Option.bind_eq_some_iff.1 hreg
  have hs := c.wrapperStep (h.state n)
  generalize (c.run.after (h.state n)).1.wrappers = wrappers at hs
  cases hs with
  | kept _ hnone =>
    rw [hnone] at hreg'
    cases hreg'
  | added _ hadded _ hctx =>
    obtain rfl := Option.some.inj (hreg'.symm.trans hadded)
    have hne : ctx ≠ .last := by
      rintro rfl
      exact hlast hreg
    have hfree := (h.reachable n).contextsInOrder.contains_eq_false hctx hne
    exact Bool.eq_false_iff.1 hfree hw
  | cleared he =>
    subst he
    cases hreg'

/-- From a signal for a tracked context on, its number has a wrapper, whether it is still tracked or
not. -/
theorem wrapped_of_signal {ctx : ContextId} (htracked : (h.registry m).isTracked ctx = true)
    (hcall : h.calls[m]? = some (.signalRetired ctx))
    (hsince : ∀ k, m < k → k < n → h.calls[k]? ≠ some .clearContexts) :
    ∀ j, m ≤ j → j ≤ n → (h.registry j).wrappers.contains ctx = true := by
  intro j hmj hj
  obtain ⟨i, rfl⟩ := Nat.exists_eq_add_of_le hmj
  clear hmj
  induction i with
  | zero => exact (h.reachable m).contextsInOrder.wrapped ctx htracked
  | succ i ih =>
    refine (h.wrapped_succ_iff (m + i) ctx).2 (.inr ⟨?_, ih (Nat.le_of_succ_le hj)⟩)
    cases i with
    | zero =>
      rw [Nat.add_zero, hcall]
      exact nofun
    | succ i => exact hsince (m + (i + 1)) (by omega) hj

end History

/-- **No signal retires a later context.**  In any history in which no registration returns the last
number, let a signal be left for a context that is tracked then, and let processing the signals retire
a context for it, whatever calls are made in between and whichever of them fail.  Then the context
retired is the one that was tracked when the signal was left: one and the same call has registered it,
and it has been tracked ever since, and its number has not been given again. -/
theorem retired_registration {config : Config} (h : History config φ) {m n : Nat}
    {d : TrackedContext} (hlast : ∀ k < n, h.registered? k ≠ some .last)
    (hretired : (m, d) ∈ h.retirements n) (htracked : (h.registry m).isTracked d.id = true) :
    h.calls[m]? = some (.signalRetired d.id) ∧
      ∃ k, h.Registration k m d ∧ h.Registration k n d := by
  obtain ⟨hwaits, hmem⟩ : (m, d.id) ∈ h.pending n ∧ d ∈ (h.registry n).contexts := by
    unfold History.retirements at hretired
    split at hretired
    · obtain ⟨hwaits, hmem⟩ := mem_retiredFor hretired
      exact ⟨hwaits, hmem⟩
    · cases hretired
  obtain ⟨m, hmn, ⟨rfl, hcall⟩, hsince⟩ := h.sinceCleared_of_mem_pending hwaits
  have hwrapped := History.wrapped_of_signal htracked hcall hsince
  have hd : (h.registry n).context? d.id = some d :=
    find?_eq_some_of_nodup (h.contextsDistinct hlast).distinct hmem
  obtain ⟨k, hk⟩ := History.exists_registration hlast hd
  -- The number has not been given since the signal was left, so this registration is older.
  have hkm : k < m := Nat.lt_of_not_le fun hle =>
    History.registered?_ne_of_wrapped (hlast k hk.made)
      (hwrapped k hle (Nat.le_of_lt hk.made)) hk.registered
  exact ⟨hcall, k, hk.of_le hkm (Nat.le_of_lt hmn), hk⟩

/-- Two contexts are signalled.  The first one is retired by other means, and before the signals are
processed a log asks for its number in vain and a new context is registered.  Then only the second one
is retired, by its own signal, and it is the one registered by the second call. -/
theorem retired_registration_of_two_signals :
    ∃ (h : History {} Unit) (d : TrackedContext), h.pending 7 = [(2, ⟨7⟩), (3, ⟨3⟩)] ∧
      h.registered? 5 = none ∧ h.registered? 6 = some ⟨8⟩ ∧ h.retirements 7 = [(3, d)] ∧
      d.id = ⟨3⟩ ∧ (h.registry 3).isTracked d.id = true ∧
      ∃ k, h.Registration k 3 d ∧ h.Registration k 7 d := by
  let wrap : WrapContext Unit := fun ctx _ => pure ⟨ctx.index.toUInt64⟩
  let h : History {} Unit := ⟨_, (rfl : create {} = .ok _), (),
    [.registerRecorded wrap ⟨7⟩ ⟨⟨0⟩, ⟨1⟩, ⟨2⟩, ⟨3⟩, ⟨4⟩⟩,
      .registerRecorded wrap ⟨3⟩ ⟨⟨5⟩, ⟨6⟩, ⟨7⟩, ⟨8⟩, ⟨9⟩⟩, .signalRetired ⟨7⟩, .signalRetired ⟨3⟩,
      .destroyInRecord ⟨7⟩, .registerRecorded wrap ⟨7⟩ ⟨⟨0⟩, ⟨1⟩, ⟨2⟩, ⟨3⟩, ⟨4⟩⟩,
      .registerContext wrap .record ⟨⟨0⟩, ⟨1⟩, ⟨2⟩, ⟨3⟩, ⟨4⟩⟩, .processSignals]⟩
  have hretired : h.retirements 7 = [(3, ⟨⟨3⟩, .replay, ⟨⟨5⟩, ⟨6⟩, ⟨7⟩, ⟨8⟩, ⟨9⟩⟩,
      LogId.sentinelsOf ⟨3⟩⟩)] := by
    decide +kernel
  have htracked : (h.registry 3).isTracked ⟨3⟩ = true := by decide +kernel
  exact ⟨h, _, by decide +kernel, by decide +kernel, by decide +kernel, hretired, rfl, htracked,
    (retired_registration h (by decide +kernel)
      (hretired ▸ List.mem_singleton_self _) htracked).2⟩

end Registry

end Retrace
