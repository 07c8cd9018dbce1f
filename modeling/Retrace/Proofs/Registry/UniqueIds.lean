/-
# When an object has one id only

Two different ids may name one object, but only in one way: they are the ids of two slots of one
tracked context, and the context was tracked with the object in both (`resolve_alike_iff`).

| the two ids | kept apart by |
| --- | --- |
| both ordinary | the two id maps, each the other one read backwards |
| one ordinary, one of a slot | no sentinel of a tracked context has an ordinary id |
| of slots of two contexts | no new context shares a sentinel with a tracked one (`SentinelsApart`) |
| of two slots of one context | nothing |

So an object has one id only exactly as long as every tracked context that ids name has five
different sentinels (`uniqueIds_iff`), and it is left to the host to register contexts so
(`History.idOf_of_lookupObject`).

The data model asks for one id at most to an object, and one object at most to an id (specification,
section 3); of sentinels it holds as far as said here.
-/

import Mathlib.Data.List.Nodup
import Mathlib.Data.List.Pairwise
import Retrace.Proofs.Registry.History

namespace Retrace

/-- No object fills two slots exactly if slots that hold the same are the same. -/
theorem PerSlot.nodup_toList_iff {α : Type} (p : PerSlot α) :
    p.toList.Nodup ↔ ∀ s s', p.get s = p.get s' → s = s' := by
  have hmem : ∀ s : SentinelSlot, s ∈ SentinelSlot.all := fun s => by cases s <;> decide
  rw [toList, List.nodup_map_iff_inj_on (by decide)]
  exact ⟨fun h s s' => h s (hmem s) s' (hmem s'), fun h s _ s' _ => h s s'⟩

namespace Registry

/-! ## Sentinels of different contexts -/

/-- No two tracked contexts share a sentinel, though one may have an object in two of its slots. -/
def SentinelsApart (r : Registry) : Prop :=
  r.contexts.Pairwise fun c d => ∀ s s', c.sentinels.get s ≠ d.sentinels.get s'

theorem SentinelsApart.track {r : Registry} (h : SentinelsApart r) {sentinels : PerSlot ObjectHandle}
    (hs : r.refusal? sentinels = none) (ctx : ContextId) (mode : ExecutionMode)
    (wrapper : WrapperRef) : SentinelsApart (r.track ctx mode sentinels wrapper) := by
  refine List.pairwise_append.2 ⟨h, List.pairwise_singleton _ _, fun c hc d hd s s' he => ?_⟩
  obtain rfl := List.mem_singleton.1 hd
  have hnone := (((refusal?_eq_none_iff r sentinels).1 hs).2 s').2
  rw [(isSpecialRoot_iff r _).2 ⟨c, hc, s, he⟩] at hnone
  cases hnone

/-- **Every step keeps the sentinels of different contexts apart**, as registration refuses an
object that is one already. -/
theorem SentinelsApart.idStep {given : Option (PerSlot ObjectHandle)} {r r' : Registry}
    (h : SentinelsApart r) (hs : IdStep given r r') : SentinelsApart r' := by
  rcases hs.contexts_cases with hsub | ⟨sentinels, ctx, mode, wrapper, _, hnone, rfl⟩
  · exact List.Pairwise.sublist hsub h
  · exact h.track hnone ctx mode wrapper

theorem Reachable.sentinelsApart {φ : Type} {config : Config} {t : Registry × φ}
    (h : Reachable config t) : SentinelsApart t.1 := by
  induction h with
  | created w hc =>
    obtain ⟨_, rfl⟩ := create_eq_ok_iff.1 hc
    exact List.Pairwise.nil
  | called c _ ih => exact ih.idStep (c.idStep _)

/-- Tracked contexts that have an object in common are one. -/
theorem SentinelsApart.eq_of_get {r : Registry} (h : SentinelsApart r) {c d : TrackedContext}
    (hc : c ∈ r.contexts) (hd : d ∈ r.contexts) {s s' : SentinelSlot}
    (he : c.sentinels.get s = d.sentinels.get s') : c = d := by
  by_contra hne
  have : Std.Symm fun c d : TrackedContext => ∀ s s', c.sentinels.get s ≠ d.sentinels.get s' :=
    ⟨fun _ _ hcd s s' he => hcd s' s he.symm⟩
  exact List.Pairwise.forall h hc hd hne s s' he

/-! ## Ids that name one object -/

/-- **Two ids name one object exactly if** they are the ids of two slots of one tracked context that
has the object in both. -/
theorem resolve_alike_iff {φ : Type} {config : Config} {t : Registry × φ} (h : Reachable config t)
    {a b : LogId} (hne : a ≠ b) {obj : ObjectHandle} :
    t.1.lookupObject a = .ok obj ∧ t.1.lookupObject b = .ok obj ↔
      ∃ ctx c s s', a = .sentinel ctx s ∧ b = .sentinel ctx s' ∧ t.1.context? ctx = some c ∧
        c.sentinels.get s = obj ∧ c.sentinels.get s' = obj := by
  have hi := h.idsInOrder
  -- An object that an ordinary id names fills no slot.
  have hmixed : ∀ {id ctx s c}, t.1.objectOfId.get? id = some obj →
      t.1.context? ctx = some c → c.sentinels.get s ≠ obj := fun {_ _ s c} ho hc he => by
    have hown := (hi.inverse _ _).1 ho
    rw [← he, hi.get?_sentinel (mem_of_context? hc).1 s] at hown
    cases hown
  rw [lookupObject_eq_ok_iff, lookupObject_eq_ok_iff]
  constructor
  · rintro ⟨⟨_, ha⟩ | ⟨ctx, s, c, rfl, hc, hs⟩, ⟨_, hb⟩ | ⟨ctx', s', c', rfl, hc', hs'⟩⟩
    · have hid := (hi.inverse a obj).1 ha
      rw [(hi.inverse b obj).1 hb] at hid
      exact absurd (Option.some.inj hid).symm hne
    · exact absurd hs' (hmixed ha hc')
    · exact absurd hs (hmixed hb hc)
    · obtain ⟨hmem, hctx⟩ := mem_of_context? hc
      obtain ⟨hmem', hctx'⟩ := mem_of_context? hc'
      obtain rfl := h.sentinelsApart.eq_of_get hmem hmem' (hs.trans hs'.symm)
      obtain rfl := hctx.symm.trans hctx'
      exact ⟨ctx, c, s, s', rfl, rfl, hc, hs, hs'⟩
  · rintro ⟨ctx, c, s, s', rfl, rfl, hc, hs, hs'⟩
    exact ⟨.inr ⟨ctx, s, c, rfl, hc, hs⟩, .inr ⟨ctx, s', c, rfl, hc, hs'⟩⟩

/-- Every tracked context that ids name has five different sentinels, as the host should supply
them. -/
def SlotsDistinct (r : Registry) : Prop :=
  ∀ ctx c, r.context? ctx = some c → c.sentinels.toList.Nodup

/-- If the sentinels differ, an id that resolves is the one that its object tells. -/
theorem SlotsDistinct.idOf_of_lookupObject {φ : Type} {config : Config} {t : Registry × φ}
    (hd : SlotsDistinct t.1) (h : Reachable config t) {id : LogId} {obj : ObjectHandle}
    (ho : t.1.lookupObject id = .ok obj) : t.1.idOf obj = .ok id := by
  rw [idOf_eq_ok_iff]
  rcases (lookupObject_eq_ok_iff _).1 ho with ⟨_, ho⟩ | ⟨ctx, s, c, rfl, hc, hs⟩
  · exact .inl ((h.idsInOrder.inverse id obj).1 ho)
  obtain ⟨hmem, hctx⟩ := mem_of_context? hc
  subst hs
  refine .inr ⟨h.idsInOrder.get?_sentinel hmem s, ?_⟩
  cases hown : t.1.sentinelIdOf? (c.sentinels.get s) with
  | none =>
    have hsp := (isSpecialRoot_iff t.1 _).2 ⟨c, hmem, s, rfl⟩
    rw [(sentinelIdOf?_eq_none_iff t.1 _).1 hown] at hsp
    cases hsp
  | some own =>
    -- The slot that the object tells is one of the same context, and has the same object.
    obtain ⟨d, hdmem, hslot⟩ := List.exists_of_findSome?_eq_some hown
    obtain ⟨s', hs', rfl⟩ := Option.map_eq_some_iff.1 hslot
    have hget := PerSlot.get_of_slotOf? hs'
    obtain rfl := h.sentinelsApart.eq_of_get hmem hdmem hget.symm
    rw [hctx, (PerSlot.nodup_toList_iff _).1 (hd ctx c hc) s s' hget.symm]

/-! ## Hosts that register five different objects -/

theorem IdStep.nodup_sentinels {given : Option (PerSlot ObjectHandle)} {r r' : Registry}
    (h : IdStep given r r') (hgiven : ∀ sentinels, given = some sentinels → sentinels.toList.Nodup)
    (hr : ∀ c ∈ r.contexts, c.sentinels.toList.Nodup) :
    ∀ c ∈ r'.contexts, c.sentinels.toList.Nodup := by
  intro c hc
  rcases h.contexts_cases with hsub | ⟨sentinels, ctx, mode, wrapper, he, _, rfl⟩
  · exact hr c (hsub.subset hc)
  · rcases List.mem_append.1 hc with hc | hc
    · exact hr c hc
    · obtain rfl := List.mem_singleton.1 hc
      exact hgiven sentinels he

theorem History.nodup_sentinels {config : Config} {φ : Type} (h : History config φ)
    (hgiven : ∀ n sentinels, h.given n = some sentinels → sentinels.toList.Nodup) (n : Nat) :
    ∀ c ∈ (h.registry n).contexts, c.sentinels.toList.Nodup := by
  induction n with
  | zero =>
    obtain ⟨_, hstart⟩ := create_eq_ok_iff.1 h.created
    rw [h.registry_zero, hstart]
    exact fun c hc => absurd hc List.not_mem_nil
  | succ n ih => exact (h.idStep n).nodup_sentinels (hgiven n) ih

/-- **Ids are unique for a host that registers every context with five different objects**: at any
time, an id that names an object is the one that the object tells. -/
theorem History.idOf_of_lookupObject {config : Config} {φ : Type} (h : History config φ)
    (hgiven : ∀ n sentinels, h.given n = some sentinels → sentinels.toList.Nodup) {n : Nat}
    {id : LogId} {obj : ObjectHandle} (ho : (h.registry n).lookupObject id = .ok obj) :
    (h.registry n).idOf obj = .ok id := by
  have hd : SlotsDistinct (h.registry n) := fun _ c hc =>
    h.nodup_sentinels hgiven n c (mem_of_context? hc).1
  exact hd.idOf_of_lookupObject (h.reachable n) ho

/-! ## The exact condition -/

/-- **Objects have one id only exactly if sentinels differ.**  In every reachable registry no two ids
name one object, and an id that names an object is the one that the object tells, exactly as long as
every tracked context that ids name has five different sentinels. -/
theorem uniqueIds_iff {φ : Type} {config : Config} {t : Registry × φ} (h : Reachable config t) :
    ((∀ a b obj, t.1.lookupObject a = .ok obj → t.1.lookupObject b = .ok obj → a = b) ↔
        SlotsDistinct t.1) ∧
      ((∀ id obj, t.1.lookupObject id = .ok obj → t.1.idOf obj = .ok id) ↔
        SlotsDistinct t.1) := by
  have hslots : (∀ a b obj, t.1.lookupObject a = .ok obj → t.1.lookupObject b = .ok obj → a = b) →
      SlotsDistinct t.1 := fun hu ctx c hc => by
    refine (PerSlot.nodup_toList_iff _).2 fun s s' he => ?_
    by_contra hne
    have hids : LogId.sentinel ctx s ≠ .sentinel ctx s' := fun hid =>
      hne (LogId.sentinel_inj.1 hid).2
    obtain ⟨ha, hb⟩ := (resolve_alike_iff h hids).2 ⟨ctx, c, s, s', rfl, rfl, hc, rfl, he.symm⟩
    exact hids (hu _ _ _ ha hb)
  have hone : (∀ id obj, t.1.lookupObject id = .ok obj → t.1.idOf obj = .ok id) →
      ∀ a b obj, t.1.lookupObject a = .ok obj → t.1.lookupObject b = .ok obj → a = b :=
    fun htell a b obj ha hb =>
      Except.ok.inj ((htell a obj ha).symm.trans (htell b obj hb))
  exact ⟨⟨hslots, fun hd => hone fun _ _ => hd.idOf_of_lookupObject h⟩,
    ⟨fun htell => hslots (hone htell), fun hd _ _ => hd.idOf_of_lookupObject h⟩⟩

/-- Two contexts with five different sentinels each, and an object pinned for the log: no two ids
name one object. -/
theorem uniqueIds_of_two_contexts :
    ∃ t : Registry × Unit, Reachable {} t ∧ t.1.contexts.length = 2 ∧
      t.1.lookupObject ⟨1⟩ = .ok ⟨10⟩ ∧
      ∀ a b obj, t.1.lookupObject a = .ok obj → t.1.lookupObject b = .ok obj → a = b := by
  let wrap : WrapContext Unit := fun ctx _ => pure ⟨ctx.index.toUInt64⟩
  let h : History {} Unit := ⟨_, (rfl : create {} = .ok _), (),
    [.registerContext wrap .record ⟨⟨0⟩, ⟨1⟩, ⟨2⟩, ⟨3⟩, ⟨4⟩⟩,
      .registerRecorded wrap ⟨7⟩ ⟨⟨5⟩, ⟨6⟩, ⟨7⟩, ⟨8⟩, ⟨9⟩⟩, .addRoot ⟨10⟩]⟩
  have hall : ∀ c ∈ (h.registry 3).contexts, c.sentinels.toList.Nodup := by decide
  have hd : SlotsDistinct (h.registry 3) := fun ctx c hc => hall c (mem_of_context? hc).1
  exact ⟨h.state 3, h.reachable 3, by decide, rfl, (uniqueIds_iff (h.reachable 3)).1.2 hd⟩

/-- A context whose global object is its undefined value too is tracked, and both ids name that
object, which tells the first. -/
theorem two_ids_of_one_object :
    ∃ t : Registry × Unit, Reachable {} t ∧
      t.1.lookupObject (.sentinel ⟨0⟩ .globalObject) = .ok ⟨0⟩ ∧
      t.1.lookupObject (.sentinel ⟨0⟩ .undefinedValue) = .ok ⟨0⟩ ∧
      LogId.sentinel ⟨0⟩ .globalObject ≠ .sentinel ⟨0⟩ .undefinedValue ∧
      t.1.idOf ⟨0⟩ = .ok (.sentinel ⟨0⟩ .globalObject) := by
  let wrap : WrapContext Unit := fun ctx _ => pure ⟨ctx.index.toUInt64⟩
  let h : History {} Unit := ⟨_, (rfl : create {} = .ok _), (),
    [.registerContext wrap .record ⟨⟨0⟩, ⟨0⟩, ⟨2⟩, ⟨3⟩, ⟨4⟩⟩]⟩
  exact ⟨h.state 1, h.reachable 1, rfl, rfl, by decide, rfl⟩

end Registry

end Retrace
