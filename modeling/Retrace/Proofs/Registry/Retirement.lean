/-
# What a retirement takes away

Contexts may be retired in three ways: one while recording, one while replaying, and all those that
the collector has signalled.  In each way the contexts that go take with them what is theirs, and the
others keep what is theirs (`retiredAlone`):

| of | a context that goes | a context that stays |
| --- | --- | --- |
| its place | gone | among the others that stay as before |
| its five sentinel ids | name neither an object nor a context | name what they named |
| its journal | gone | as before |
| the pins by slot on its sentinels | gone | as many as before |

Ordinary ids and the other pins are as before.

The pins by slot are kept by object and not by context, and all pins on an object are given back at
once.  That this takes no pin from a context that stays rests on no object being a sentinel of two
contexts (`SentinelsApart`).  Sentinel ids and journals are kept by number, so it takes that no two
tracked contexts share a number as well.

The three ways are *destroy-in-record*, *destroy-in-replay* and the collector's signals
(specification, section 4.1).
-/

import Mathlib.Data.List.Find
import Retrace.Proofs.Registry.ContextsInOrder
import Retrace.Proofs.Registry.Failures
import Retrace.Proofs.Registry.UniqueIds

namespace Retrace

namespace Registry

variable {r s t : Registry} {gone gone' : List ContextId}

/-! ## Sentinel ids -/

/-- The sentinel ids of tracked contexts are those of their numbers, by slot, as registration has
set them. -/
def IdsDerived (r : Registry) : Prop := ∀ c ∈ r.contexts, c.sentinelIds = LogId.sentinelsOf c.id

/-- A sentinel id is the one of a global object only in that slot, and only in the context with its
number. -/
theorem IdsDerived.find?_globalObject (hd : IdsDerived r) (ctx : ContextId) (slot : SentinelSlot) :
    (r.contexts.find? fun c => c.sentinelIds.globalObject = .sentinel ctx slot) =
      if slot = .globalObject then r.context? ctx else none := by
  have hkey : ∀ c ∈ r.contexts, (c.sentinelIds.globalObject = .sentinel ctx slot ↔
      c.id = ctx ∧ slot = .globalObject) := fun c hc => by
    rw [hd c hc]
    exact LogId.sentinel_inj.trans (and_congr_right fun _ => eq_comm)
  split
  · rename_i hslot
    exact List.find?_congr fun c hc => decide_eq_decide.2 ((hkey c hc).trans (and_iff_left hslot))
  · rename_i hslot
    exact List.find?_eq_none.2 fun c hc => by simpa using fun he => hslot ((hkey c hc).1 he).2

/-- The sentinel ids of a tracked context retire it while replaying, if it is the one of its number. -/
theorem IdsDerived.destroyInReplay_eq_ok (hd : IdsDerived r) {c : TrackedContext}
    (hc : c ∈ r.contexts) (hctx : r.context? c.id = some c) :
    destroyInReplay c.sentinelIds r =
      .ok c.id { r.dropContext c with changedInReplay := true } := by
  have hglobal : c.sentinelIds.globalObject = .sentinel c.id .globalObject := by
    rw [hd c hc]
    rfl
  have hlook : r.lookupContext c.sentinelIds.globalObject = .ok c.id := by
    rw [hglobal, lookupContext, hd.find?_globalObject, if_pos rfl, hctx]
  rw [destroyInReplay, hlook]
  dsimp only
  rw [(context_eq_ok_iff r).2 hctx]

/-- What a sentinel id names depends on the context with its number only. -/
theorem lookups_sentinel_congr (hr : IdsDerived r) (hs : IdsDerived s) {ctx : ContextId}
    (h : s.context? ctx = r.context? ctx) (slot : SentinelSlot) :
    s.lookupObject (.sentinel ctx slot) = r.lookupObject (.sentinel ctx slot) ∧
      s.lookupContext (.sentinel ctx slot) = r.lookupContext (.sentinel ctx slot) := by
  constructor
  · simp only [lookupObject, LogId.isSentinel_sentinel, if_pos, lookupSentinel,
      LogId.asSentinel?_sentinel, h]
  · simp only [lookupContext, hr.find?_globalObject, hs.find?_globalObject, h]

/-- A sentinel id of a number that is not tracked names neither an object nor a context. -/
theorem lookups_sentinel_of_untracked (hr : IdsDerived r) {ctx : ContextId}
    (h : r.context? ctx = none) (slot : SentinelSlot) :
    r.lookupObject (.sentinel ctx slot) =
        .error (.notFound .logId (toString (LogId.sentinel ctx slot))) ∧
      r.lookupContext (.sentinel ctx slot) =
        .error (.notFound .context (toString (LogId.sentinel ctx slot))) := by
  constructor
  · simp only [lookupObject, LogId.isSentinel_sentinel, if_pos, lookupSentinel,
      LogId.asSentinel?_sentinel, h]
  · simp only [lookupContext, hr.find?_globalObject, h, ite_self]

/-! ## Contexts that are gone -/

/-- No two tracked contexts share a number, and only tracked contexts have journals; so what is
looked for by number is the context's own. -/
structure OnePerNumber (r : Registry) : Prop where
  /-- No two tracked contexts share a number. -/
  distinct : (r.contexts.map (·.id)).Nodup
  /-- Only tracked contexts have journals. -/
  journaled : ∀ ctx, r.journals.contains ctx = true → r.isTracked ctx = true

/-- A registry without certain contexts of another one, and without what was theirs. -/
structure Without (gone : List ContextId) (r r' : Registry) : Prop where
  /-- The other contexts are tracked, in their order. -/
  contexts : r'.contexts = r.contexts.filter fun c => c.id ∉ gone
  /-- The other journals are as before. -/
  journals : ∀ ctx, r'.journals.get? ctx = if ctx ∈ gone then none else r.journals.get? ctx
  /-- No sentinel of a context that is gone is pinned by slot. -/
  released : ∀ c ∈ r.contexts, c.id ∈ gone →
    ∀ slot, r'.specialRoots.count (c.sentinels.get slot) = 0
  /-- The pins by slot on any other object are as before. -/
  kept : ∀ obj, (∀ c ∈ r.contexts, c.id ∈ gone → ∀ slot, c.sentinels.get slot ≠ obj) →
    r'.specialRoots.count obj = r.specialRoots.count obj

namespace Without

theorem mem_contexts_iff (h : Without gone r s) {c : TrackedContext} :
    c ∈ s.contexts ↔ c ∈ r.contexts ∧ c.id ∉ gone := by
  rw [h.contexts, List.mem_filter, decide_eq_true_eq]

/-- What is not pinned by slot is not pinned once contexts are gone. -/
theorem count_eq_zero (h : Without gone r s) {obj : ObjectHandle}
    (hr : r.specialRoots.count obj = 0) : s.specialRoots.count obj = 0 := by
  by_cases hobj : ∃ c ∈ r.contexts, c.id ∈ gone ∧ ∃ slot, c.sentinels.get slot = obj
  · obtain ⟨c, hc, hid, slot, rfl⟩ := hobj
    exact h.released c hc hid slot
  · push Not at hobj
    rw [h.kept obj hobj, hr]

/-- A number is that of the context that has it, unless that is gone. -/
theorem context?_eq (h : Without gone r s) (ctx : ContextId) :
    s.context? ctx = if ctx ∈ gone then none else r.context? ctx := by
  rw [context?, h.contexts, List.find?_filter]
  split
  · rename_i hmem
    refine List.find?_eq_none.2 fun c _ => ?_
    rw [decide_eq_true_eq, decide_eq_true_eq, decide_eq_true_eq]
    rintro ⟨hid, rfl⟩
    exact hid hmem
  · rename_i hmem
    refine List.find?_congr fun c _ => ?_
    by_cases hc : c.id = ctx
    · simp [hc, hmem]
    · simp [hc]

theorem onePerNumber (h : Without gone r s) (hr : OnePerNumber r) : OnePerNumber s where
  distinct := by
    rw [h.contexts]
    exact hr.distinct.sublist (List.filter_sublist.map _)
  journaled ctx hj := by
    rw [OrderedMap.contains, h.journals] at hj
    split at hj
    · cases hj
    · rename_i hmem
      obtain ⟨c, hc, rfl⟩ := (isTracked_iff r ctx).1 (hr.journaled ctx hj)
      exact (isTracked_iff s _).2 ⟨c, h.mem_contexts_iff.2 ⟨hc, hmem⟩, rfl⟩

/-- Contexts that go one after another are gone in the end. -/
theorem trans (h : Without gone r s) (h' : Without gone' s t) : Without (gone ++ gone') r t where
  contexts := by
    rw [h'.contexts, h.contexts, List.filter_filter]
    exact List.filter_congr fun c _ => by simp [Bool.and_comm]
  journals ctx := by
    rw [h'.journals, h.journals]
    by_cases hg : ctx ∈ gone <;> by_cases hg' : ctx ∈ gone' <;> simp [hg, hg']
  released c hc hid slot := by
    by_cases hg : c.id ∈ gone
    · exact h'.count_eq_zero (h.released c hc hg slot)
    · exact h'.released c (h.mem_contexts_iff.2 ⟨hc, hg⟩)
        ((List.mem_append.1 hid).resolve_left hg) slot
  kept obj hobj := by
    rw [h'.kept obj fun c hc hid => hobj c (h.mem_contexts_iff.1 hc).1 (List.mem_append_right _ hid),
      h.kept obj fun c hc hid => hobj c hc (List.mem_append_left _ hid)]

end Without

/-! ## The three ways -/

/-- **Dropping a context takes what is its own**, be it looked for where only its number is known, or
where only its sentinels are. -/
theorem OnePerNumber.without_dropContext (h : OnePerNumber r) {c : TrackedContext}
    (hc : c ∈ r.contexts) : Without [c.id] r (r.dropContext c) where
  contexts := by
    show r.contexts.eraseP (fun d => d.id = c.id) = _
    rw [eraseP_eq_filter_of_nodup h.distinct]
    exact List.filter_congr fun d _ => by simp
  journals ctx := by
    show (r.journals.erase c.id).get? ctx = _
    by_cases hctx : ctx = c.id
    · rw [if_pos (List.mem_singleton.2 hctx), hctx, OrderedMap.get?_erase_self]
    · rw [if_neg (mt List.mem_singleton.1 hctx), OrderedMap.get?_erase_of_ne _ (Ne.symm hctx)]
  released d hd hid slot := by
    obtain rfl := eq_of_nodup_map h.distinct hd hc (List.mem_singleton.1 hid)
    exact PinSet.count_releaseAll_of_mem _ (d.sentinels.mem_toList_iff.2 ⟨slot, rfl⟩)
  kept obj hobj := by
    refine PinSet.count_releaseAll_of_notMem _ fun hmem => ?_
    obtain ⟨slot, hslot⟩ := c.sentinels.mem_toList_iff.1 hmem
    exact hobj c hc (List.mem_singleton_self _) slot hslot

theorem OnePerNumber.context?_of_mem (h : OnePerNumber r) {c : TrackedContext}
    (hc : c ∈ r.contexts) : r.context? c.id = some c :=
  find?_eq_some_of_nodup h.distinct hc

/-- After an attempt to retire a context while recording, that is gone, tracked or not. -/
theorem OnePerNumber.without_destroyInRecord (h : OnePerNumber r) (ctx : ContextId) :
    Without [ctx] r ((destroyInRecord ctx).after r) := by
  cases hctx : r.context? ctx with
  | some c =>
    obtain ⟨hc, rfl⟩ := mem_of_context? hctx
    rw [Action.after_of_eq_ok (destroyInRecord_eq_ok_iff.2 ⟨c, hctx, rfl, rfl⟩)]
    have hw := h.without_dropContext hc
    exact ⟨hw.contexts, hw.journals, hw.released, hw.kept⟩
  | none =>
    have hnone : ∀ c ∈ r.contexts, c.id ≠ ctx := fun c hc => by
      simpa using List.find?_eq_none.1 hctx c hc
    rw [Action.after_of_eq_error (destroyInRecord_of_untracked hctx)]
    refine ⟨?_, fun q => ?_, fun c hc hid => ?_, fun _ _ => rfl⟩
    · exact (List.filter_eq_self.2 fun c hc => by simpa using hnone c hc).symm
    · -- Without a tracked context of the number there is no journal to be taken.
      split
      · rename_i hq
        obtain rfl := List.mem_singleton.1 hq
        refine Option.not_isSome_iff_eq_none.1 fun hj => ?_
        obtain ⟨c, hc, hid⟩ := (isTracked_iff r q).1 (h.journaled q hj)
        exact hnone c hc hid
      · rfl
    · exact absurd (List.mem_singleton.1 hid) (hnone c hc)

/-- **All contexts of a list are gone** once they have been retired. -/
theorem OnePerNumber.without_retireAll (h : OnePerNumber r) (ctxs : List ContextId) :
    Without ctxs r ((retireAll ctxs).after r) := by
  induction ctxs generalizing r with
  | nil =>
    exact ⟨(List.filter_eq_self.2 fun _ _ => by simp).symm, fun _ => rfl,
      fun _ _ hid => absurd hid List.not_mem_nil, fun _ _ => rfl⟩
  | cons ctx rest ih =>
    rw [after_retireAll_cons]
    have hw := h.without_destroyInRecord ctx
    exact hw.trans (ih (hw.onePerNumber h))

/-! ## What is gone and what is left -/

/-- What has become of a registry from which contexts have been retired. -/
structure RetiredAlone (gone : List ContextId) (r r' : Registry) : Prop where
  /-- The sentinel ids of a context that is gone name neither an object nor a context. -/
  unnamed : ∀ c ∈ r.contexts, c.id ∈ gone → ∀ slot,
    r'.lookupObject (c.sentinelIds.get slot) =
        .error (.notFound .logId (toString (c.sentinelIds.get slot))) ∧
      r'.lookupContext (c.sentinelIds.get slot) =
        .error (.notFound .context (toString (c.sentinelIds.get slot)))
  /-- It has no journal. -/
  unjournaled : ∀ c ∈ r.contexts, c.id ∈ gone → r'.journals.get? c.id = none
  /-- Its sentinels are not pinned by slot. -/
  unpinned : ∀ c ∈ r.contexts, c.id ∈ gone →
    ∀ slot, r'.specialRoots.count (c.sentinels.get slot) = 0
  /-- The contexts tracked are those not gone, in their order. -/
  contexts : r'.contexts = r.contexts.filter fun d => d.id ∉ gone
  /-- Their sentinel ids name what they named. -/
  named : ∀ d ∈ r'.contexts, ∀ slot,
    r'.lookupObject (d.sentinelIds.get slot) = r.lookupObject (d.sentinelIds.get slot) ∧
      r'.lookupContext (d.sentinelIds.get slot) = r.lookupContext (d.sentinelIds.get slot)
  /-- Their journals are as before. -/
  journals : ∀ d ∈ r'.contexts, r'.journals.get? d.id = r.journals.get? d.id
  /-- The pins by slot on their sentinels are as before. -/
  pinned : ∀ d ∈ r'.contexts, ∀ slot,
    r'.specialRoots.count (d.sentinels.get slot) = r.specialRoots.count (d.sentinels.get slot)
  /-- The objects by id are as before. -/
  objectOfId : r'.objectOfId = r.objectOfId
  /-- The ids by object are as before. -/
  idOfObject : r'.idOfObject = r.idOfObject
  /-- The pins for the log are as before. -/
  roots : r'.roots = r.roots
  /-- The pins for the debug step are as before. -/
  localRoots : r'.localRoots = r.localRoots

/-- Where no two contexts share a sentinel, and sentinel ids tell the number, no other context is
touched. -/
theorem Without.alone (h : Without gone r s) (hpins : SamePins r s) (hd : IdsDerived r)
    (ha : SentinelsApart r) : RetiredAlone gone r s := by
  have hd' : IdsDerived s := fun c hc => hd c (h.mem_contexts_iff.1 hc).1
  have hid : ∀ c ∈ r.contexts, ∀ slot, c.sentinelIds.get slot = .sentinel c.id slot :=
    fun c hc slot => by rw [hd c hc, LogId.sentinelsOf, PerSlot.get_ofFn]
  refine ⟨fun c hc hg slot => ?_, fun c _ hg => ?_, h.released, h.contexts, fun d hmem slot => ?_,
    fun d hmem => ?_, fun d hmem slot => ?_, hpins.objectOfId, hpins.idOfObject, hpins.roots,
    hpins.localRoots⟩
  · rw [hid c hc]
    exact lookups_sentinel_of_untracked hd' (by rw [h.context?_eq, if_pos hg]) slot
  · rw [h.journals, if_pos hg]
  · obtain ⟨hr, hg⟩ := h.mem_contexts_iff.1 hmem
    rw [hid d hr]
    exact lookups_sentinel_congr hd hd' (by rw [h.context?_eq, if_neg hg]) slot
  · rw [h.journals, if_neg (h.mem_contexts_iff.1 hmem).2]
  · obtain ⟨hr, hg⟩ := h.mem_contexts_iff.1 hmem
    -- A sentinel that was released would be one of a context that is gone.
    refine h.kept _ fun c hc hcg slot' he => hg ?_
    rw [← ha.eq_of_get hc hr he]
    exact hcg

variable {φ : Type} {config : Config}

/-- **Retiring a context does not affect the others.**  In a reachable registry in which no two tracked
contexts share a number, a tracked context can be retired while recording, while replaying by its
sentinel ids, and by the collector's signals.  Each time the contexts retired, which are that one, or
those signalled, lose their places, the meaning of their ids, their journals and all pins by slot on
their sentinels; and nothing else changes for the others, for ordinary ids, or for other pins. -/
theorem retiredAlone {t : Registry × φ} (h : Reachable config t)
    (hd : (t.1.contexts.map (·.id)).Nodup) {c : TrackedContext} (hc : c ∈ t.1.contexts) :
    (∃ r', destroyInRecord c.id t.1 = .ok ⟨c.id, c.sentinelIds⟩ r' ∧
        RetiredAlone [c.id] t.1 r') ∧
      (∃ r', destroyInReplay c.sentinelIds t.1 = .ok c.id r' ∧ RetiredAlone [c.id] t.1 r') ∧
      (c.id ∈ t.1.signals → ∃ records r', processSignals t.1 = .ok records r' ∧
        RetiredAlone t.1.signals t.1 r') := by
  have ho := h.contextsInOrder
  have hderived : IdsDerived t.1 := ho.derived
  have hone : OnePerNumber t.1 := ⟨hd, ho.journaled⟩
  have hctx := hone.context?_of_mem hc
  refine ⟨?_, ?_, fun _ => ?_⟩
  · have hrun := destroyInRecord_eq_ok_iff.2 ⟨c, hctx, rfl, rfl⟩
    refine ⟨_, hrun, ?_⟩
    rw [← Action.after_of_eq_ok hrun]
    exact (hone.without_destroyInRecord c.id).alone (samePins_destroyInRecord c.id t.1)
      hderived h.sentinelsApart
  · have hrun := hderived.destroyInReplay_eq_ok hc hctx
    have hw := hone.without_dropContext hc
    have hpins := samePins_destroyInReplay c.sentinelIds t.1
    rw [Action.after_of_eq_ok hrun] at hpins
    exact ⟨_, hrun, Without.alone ⟨hw.contexts, hw.journals, hw.released, hw.kept⟩ hpins
      hderived h.sentinelsApart⟩
  · obtain ⟨records, r', hrun⟩ := retireAll_ok t.1.signals { t.1 with signals := [] }
    rw [← processSignals_eq] at hrun
    refine ⟨records, r', hrun, ?_⟩
    rw [← Action.after_of_eq_ok hrun]
    have hone' : OnePerNumber { t.1 with signals := [] } := ⟨hone.distinct, hone.journaled⟩
    have hw := hone'.without_retireAll t.1.signals
    exact Without.alone ⟨hw.contexts, hw.journals, hw.released, hw.kept⟩
      (samePins_processSignals t.1) hderived h.sentinelsApart

/-- Two contexts with pins by slot, of which the first is signalled: the other one stays, with its
journal and both its pins. -/
theorem retiredAlone_of_two_contexts :
    ∃ (t : Registry × Unit) (c d : TrackedContext), Reachable {} t ∧ t.1.contexts = [c, d] ∧
      c.id ∈ t.1.signals ∧ t.1.specialRoots.count (c.sentinels.get .globalObject) = 1 ∧
      t.1.specialRoots.count (d.sentinels.get .nullValue) = 2 ∧
      ∃ records r', processSignals t.1 = .ok records r' ∧ RetiredAlone t.1.signals t.1 r' ∧
        r'.contexts = [d] ∧ r'.specialRoots.count (d.sentinels.get .nullValue) = 2 := by
  let wrap : WrapContext Unit := fun ctx _ => pure ⟨ctx.index.toUInt64⟩
  let h : History {} Unit := ⟨_, (rfl : create {} = .ok _), (),
    [.registerContext wrap .record ⟨⟨0⟩, ⟨1⟩, ⟨2⟩, ⟨3⟩, ⟨4⟩⟩,
      .registerRecorded wrap ⟨7⟩ ⟨⟨5⟩, ⟨6⟩, ⟨7⟩, ⟨8⟩, ⟨9⟩⟩, .addSpecialRoot ⟨0⟩ .globalObject,
      .addSpecialRoot ⟨7⟩ .nullValue, .addSpecialRoot ⟨7⟩ .nullValue, .addRoot ⟨10⟩,
      .addLocalRoot ⟨11⟩, .signalRetired ⟨0⟩]⟩
  let c : TrackedContext := ⟨⟨0⟩, .record, ⟨⟨0⟩, ⟨1⟩, ⟨2⟩, ⟨3⟩, ⟨4⟩⟩, LogId.sentinelsOf ⟨0⟩⟩
  let d : TrackedContext := ⟨⟨7⟩, .replay, ⟨⟨5⟩, ⟨6⟩, ⟨7⟩, ⟨8⟩, ⟨9⟩⟩, LogId.sentinelsOf ⟨7⟩⟩
  have hcontexts : (h.state 8).1.contexts = [c, d] := by decide +kernel
  have hsignals : (h.state 8).1.signals = [c.id] := by decide +kernel
  have hdistinct : ((h.state 8).1.contexts.map (·.id)).Nodup := by
    rw [hcontexts]
    decide
  have hc : c ∈ (h.state 8).1.contexts := by rw [hcontexts]; exact List.mem_cons_self
  have hsignal : c.id ∈ (h.state 8).1.signals := by rw [hsignals]; exact List.mem_cons_self
  have hpinned : (h.state 8).1.specialRoots.count (d.sentinels.get .nullValue) = 2 := by
    decide +kernel
  obtain ⟨records, r', hrun, hr⟩ := (retiredAlone (h.reachable 8) hdistinct hc).2.2 hsignal
  have hleft : r'.contexts = [d] := by
    rw [hr.contexts, hcontexts, hsignals]
    decide
  refine ⟨h.state 8, c, d, h.reachable 8, hcontexts, hsignal, by decide +kernel, hpinned, records,
    r', hrun, hr, hleft, ?_⟩
  rw [hr.pinned d (hleft ▸ List.mem_singleton_self d), hpinned]

end Registry

end Retrace
