/-
# The bookkeeping of contexts

As long as no registration returns the last number, all that is kept about contexts agrees
(`bookkept`):

| of | holds |
| --- | --- |
| numbers | tracked ones differ and lie below the next one, as do those of wrappers |
| journals | the tracked contexts have them, and no others |
| wrappers | every tracked context has one |
| the active context | it is tracked |
| contexts and signals | there are no more than the settings allow |
| sentinels | those of two contexts differ, and their ids are derived from the number |
| pins by slot | they are on sentinels of tracked contexts |

A journal that has been handed out is the caller's to change.  It stays with its context as long as it
is changed by calls on it, none of which moves it elsewhere (`Journal.Reachable.context_eq`).

These are the places in which *register context* enters a context, and from which its retirement
takes it (specification, section 4.1).
-/

import Retrace.Proofs.Journal.Run
import Retrace.Proofs.Registry.FreshContexts
import Retrace.Proofs.Registry.UniqueIds

namespace Retrace

namespace Registry

variable {φ : Type}

/-- The bookkeeping of contexts under certain settings: what is kept about contexts, and how it fits
together. -/
structure Bookkept (config : Config) (r : Registry) : Prop where
  /-- No two tracked contexts share a number. -/
  distinct : (r.contexts.map (·.id)).Nodup
  /-- The number of a tracked context is below the next one. -/
  below : ∀ c ∈ r.contexts, c.id.index < r.nextContext
  /-- The tracked contexts have journals, and no others. -/
  journals : ∀ ctx, r.journals.contains ctx = true ↔ ∃ c ∈ r.contexts, c.id = ctx
  /-- Every tracked context has a wrapper. -/
  wrapped : ∀ c ∈ r.contexts, r.wrappers.contains c.id = true
  /-- A number that has a wrapper is below the next one. -/
  wrappersBelow : ∀ ctx, r.wrappers.contains ctx = true → ctx.index < r.nextContext
  /-- The active context is tracked. -/
  active : ∀ ctx, r.active = some ctx → ∃ c ∈ r.contexts, c.id = ctx
  /-- There are no more contexts than the settings allow. -/
  room : r.contexts.length ≤ config.maxContexts.toNat
  /-- There are no more signals than contexts may be. -/
  signals : r.signals.length ≤ config.maxContexts.toNat
  /-- No object is a sentinel of two contexts. -/
  apart : ∀ c ∈ r.contexts, ∀ d ∈ r.contexts, c.id ≠ d.id →
    ∀ s s', c.sentinels.get s ≠ d.sentinels.get s'
  /-- The sentinel ids of a context are those of its number. -/
  derived : ∀ c ∈ r.contexts, c.sentinelIds = LogId.sentinelsOf c.id
  /-- What is pinned by slot is a sentinel of a tracked context. -/
  special : ∀ obj, r.specialRoots.contains obj = true →
    ∃ c ∈ r.contexts, ∃ slot, c.sentinels.get slot = obj

/-! ## Whose journal it is -/

/-- Whether a journal that a call hands out is changed by calls on it only. -/
def Call.ActsByCalls : Call φ → Prop
  | onJournal _ action => ∀ t, Journal.Reachable t (action.after t)
  | _ => True

/-- Every journal belongs to the context that it is kept for. -/
def JournalsOwned (r : Registry) : Prop :=
  ∀ ctx j, r.journals.get? ctx = some j → j.context = ctx

/-- **A step leaves every journal with its context**, if what a call does to a journal that it is
handed is done by calls. -/
theorem JournalsOwned.step {c : Call φ} (hc : c.ActsByCalls) {r r' : Registry}
    (h : JournalsOwned r) (hs : ContextStep c r r') : JournalsOwned r' := by
  intro q k hk
  cases hs with
  | same hs =>
    rw [hs.journals] at hk
    exact h q k hk
  | tracked ctx mode wrapper =>
    rcases (OrderedMap.get?_insert_eq_some_iff _).1 hk with ⟨rfl, rfl⟩ | ⟨_, hk⟩
    · rfl
    · exact h q k hk
  | dropped =>
    exact h q k ((OrderedMap.get?_filter_eq_some_iff _).1 hk).1
  | @written ctx action j s hcall hj =>
    subst hcall
    have hkeeps : (action.after (j, s)).1.context = j.context := (hc (j, s)).context_eq
    rcases (OrderedMap.get?_insert_eq_some_iff _).1 hk with ⟨rfl, rfl⟩ | ⟨_, hk⟩
    · exact hkeeps.trans (h _ j hj)
    · exact h q k hk
  | cleared => cases hk
  | activated | signalled | pinned => exact h q k hk

theorem History.journalsOwned {config : Config} (h : History config φ) (n : Nat)
    (hcalls : ∀ m < n, ∀ c, h.calls[m]? = some c → c.ActsByCalls) :
    JournalsOwned (h.registry n) := by
  induction n with
  | zero =>
    obtain ⟨_, hstart⟩ := create_eq_ok_iff.1 h.created
    rw [h.registry_zero, hstart]
    exact fun _ _ hj => nomatch hj
  | succ n ih =>
    have hn := ih fun m hm => hcalls m (Nat.lt_succ_of_lt hm)
    rcases h.state_succ n with he | ⟨c, hc, he⟩
    · rw [registry, he]
      exact hn
    · rw [registry, he]
      have hby := hcalls n (Nat.lt_succ_self n) c hc
      exact (c.contextSteps _).keeps (JournalsOwned.step hby) hn

/-! ## All together -/

/-- **All that is kept about contexts agrees**, after any number of calls of any history in which no
registration has returned the last number, whatever the calls are and whichever of them fail.  If
journals that were handed out were changed by calls on them only, each belongs to the context that it
is kept for. -/
theorem bookkept {config : Config} (h : History config φ) (n : Nat)
    (hlast : ∀ m < n, h.registered? m ≠ some .last) :
    Bookkept config (h.registry n) ∧
      ((∀ m < n, ∀ c, h.calls[m]? = some c → c.ActsByCalls) → JournalsOwned (h.registry n)) := by
  have ho := (h.reachable n).contextsInOrder
  have hl := h.contains_last_eq_false hlast
  have hd := h.contextsDistinct hlast
  have hwrapped : ∀ c ∈ (h.registry n).contexts, (h.registry n).wrappers.contains c.id = true :=
    fun c hc => ho.wrapped c.id ((isTracked_iff _ _).2 ⟨c, hc, rfl⟩)
  have hbelow : ∀ ctx, (h.registry n).wrappers.contains ctx = true →
      ctx.index < (h.registry n).nextContext := by
    intro ctx hw
    have hne : ctx ≠ .last := by
      rintro rfl
      rw [hl] at hw
      cases hw
    have hle := UInt32.le_iff_toNat_le.1 (ho.counted ctx hw)
    rw [numberAfter_of_lt (ContextId.lt_last hne)] at hle
    exact UInt32.lt_iff_toNat_lt.2 hle
  refine ⟨?_, h.journalsOwned n⟩
  exact {
    distinct := hd.distinct
    below := fun c hc => hbelow c.id (hwrapped c hc)
    journals := fun ctx => by
      rw [← isTracked_iff]
      exact ⟨ho.journaled ctx, hd.journaled ctx⟩
    wrapped := hwrapped
    wrappersBelow := hbelow
    active := fun ctx hctx => (isTracked_iff _ ctx).1 (ho.active ctx hctx)
    room := ho.room
    signals := ho.signals
    apart := fun c hc e he hne s s' hget =>
      hne (congrArg (·.id) ((h.reachable n).sentinelsApart.eq_of_get hc he hget))
    derived := ho.derived
    special := fun obj hobj => (isSpecialRoot_iff _ obj).1 (ho.special obj hobj) }

/-- Two contexts, one of them found in a log; the one is made active, pinned by slot and has a write
scheduled in its journal, then the other is signalled and retired: its wrapper alone remains. -/
theorem bookkept_after_retirement :
    ∃ h : History {} Unit, Bookkept {} (h.registry 7) ∧ JournalsOwned (h.registry 7) ∧
      (h.registry 7).contexts.map (·.id) = [⟨7⟩] ∧ (h.registry 7).active = some ⟨7⟩ ∧
      (h.registry 7).specialRoots.contains ⟨5⟩ = true ∧
      (h.registry 7).wrappers.keys = [⟨0⟩, ⟨7⟩] ∧ (h.registry 7).journals.keys = [⟨7⟩] ∧
      ((h.registry 7).journals.get? ⟨7⟩).map (·.pending) = some [⟨⟨20⟩, 3⟩] := by
  let wrap : WrapContext Unit := fun ctx _ => pure ⟨ctx.index.toUInt64⟩
  let write : Action (Journal × Unit) Unit :=
    (fun _ => ()) <$> (Journal.Call.scheduleWrite ⟨20⟩ 3).run
  let h : History {} Unit := ⟨_, (rfl : create {} = .ok _), (),
    [.registerContext wrap .record ⟨⟨0⟩, ⟨1⟩, ⟨2⟩, ⟨3⟩, ⟨4⟩⟩,
      .registerRecorded wrap ⟨7⟩ ⟨⟨5⟩, ⟨6⟩, ⟨7⟩, ⟨8⟩, ⟨9⟩⟩, .setActive (some ⟨7⟩),
      .addSpecialRoot ⟨7⟩ .globalObject, .onJournal ⟨7⟩ write, .signalRetired ⟨0⟩, .processSignals]⟩
  have hwrite : ∀ t, Journal.Reachable t (write.after t) := fun t => by
    rw [Action.after_map]
    exact Journal.Reachable.start.called _
  have hcalls : ∀ c ∈ h.calls, c.ActsByCalls := by
    simp only [h, List.forall_mem_cons]
    exact ⟨trivial, trivial, trivial, trivial, hwrite, trivial, trivial,
      fun _ hc => absurd hc List.not_mem_nil⟩
  obtain ⟨hkept, howned⟩ := bookkept h 7 (by decide)
  exact ⟨h, hkept, howned fun m _ c hc => hcalls c (List.mem_of_getElem? hc), by decide, by decide,
    by decide, by decide, by decide, by decide⟩

end Registry

end Retrace
