/-
# Calls that fail

A call that fails leaves no trace (`unchanged_after_failure`), however much it has looked at by
then.

| a failing call | leaves as it was |
| --- | --- |
| on a registry | all of the registry, and its surroundings; no context has been wrapped |
| on a journal | the journal; a loader keeps what it has parsed |
| on a journal, made through the registry | all of the registry |

An action of another kind on a journal may do what it likes before it fails, so nothing is said of
such.

The specification tells what an operation fails with (sections 4.1, 4.2 and 7), but not what it
leaves behind then.
-/

import Retrace.Arena
import Retrace.Proofs.Journal.Nesting
import Retrace.Proofs.Journal.Run
import Retrace.Proofs.Registry.Effects

namespace Retrace

/-! ## Actions that leave no trace -/

namespace Action

variable {σ φ α β : Type}

/-- An action that leaves no trace if it fails: the state afterwards is the one before. -/
def Atomic (action : Action σ α) : Prop := ∀ s e s', action s = .error e s' → s' = s

theorem map_eq_error_iff (g : α → β) (action : Action σ α) {s t : σ} {e : Error} :
    (g <$> action : Action σ β) s = .error e t ↔ action s = .error e t := by
  show EStateM.map g action s = _ ↔ _
  unfold EStateM.map
  cases action s <;> simp

theorem Atomic.map {action : Action σ α} (h : Atomic action) (g : α → β) :
    Atomic (g <$> action : Action σ β) :=
  fun s e s' he => h s e s' ((map_eq_error_iff g action).1 he)

theorem Atomic.beside {action : Action σ α} (h : Atomic action) :
    Atomic (action.beside : Action (σ × φ) α) := by
  intro t e t' he
  unfold Action.beside at he
  cases ha : action t.1 with
  | ok a s =>
    rw [ha] at he
    cases he
  | error e₁ s =>
    rw [ha] at he
    cases he
    rw [h t.1 _ s ha]

theorem atomic_ofFn (f : σ → α × σ) : Atomic (ofFn f) := fun _ _ _ he => nomatch he

end Action

open Retrace.Action (Atomic atomic_ofFn)

namespace Registry

variable {φ : Type}

/-! ## Roots -/

theorem atomic_pinById (pin : Registry → Registry) (obj : ObjectHandle) :
    Atomic (pinById pin obj) := by
  intro r e r' he
  unfold pinById at he
  rcases idOrNext_cases obj r with ⟨id, _, hid⟩ | ⟨_, _, _, hid⟩ | ⟨_, _, _, hid⟩ <;>
    rw [hid] at he <;> cases he
  rfl

theorem atomic_addRoot (obj : ObjectHandle) : Atomic (addRoot obj) := by
  rw [addRoot_eq]
  exact atomic_pinById _ obj

theorem atomic_addLocalRoot (obj : ObjectHandle) : Atomic (addLocalRoot obj) := by
  rw [addLocalRoot_eq]
  exact atomic_pinById _ obj

theorem atomic_addRootWithId (obj : ObjectHandle) (id : LogId) : Atomic (addRootWithId obj id) := by
  intro r e r' he
  unfold addRootWithId at he
  split at he
  · split at he
    · cases he
      rfl
    · split at he
      · cases he
      · cases he
        rfl
  · split at he
    · cases he
      rfl
    · cases he

theorem atomic_removeRoot (obj : ObjectHandle) : Atomic (removeRoot obj) := by
  intro r e r' he
  unfold removeRoot at he
  split at he
  · cases he
  · cases he
    rfl

theorem atomic_addSpecialRoot (ctx : ContextId) (slot : SentinelSlot) :
    Atomic (addSpecialRoot ctx slot) := by
  intro r e r' he
  unfold addSpecialRoot at he
  split at he
  · cases he
    rfl
  · cases he

theorem atomic_removeSpecialRoot (id : LogId) : Atomic (removeSpecialRoot id) := by
  intro r e r' he
  unfold removeSpecialRoot at he
  split at he
  · cases he
    rfl
  · split at he
    · cases he
    · cases he
      rfl

theorem atomic_ensureCorePaths (image : CoreImage) (roots : List NamedRoot) :
    Atomic (ensureCorePaths image roots) := by
  intro r e r' he
  unfold ensureCorePaths at he
  split at he
  · cases he
  · split at he
    · cases he
    · cases he
      rfl

/-! ## Contexts -/

theorem atomic_setActive (ctx : Option ContextId) : Atomic (setActive ctx) := by
  intro r e r' he
  unfold setActive at he
  split at he
  · cases he
    rfl
  · cases he

theorem atomic_destroyInRecord (ctx : ContextId) : Atomic (destroyInRecord ctx) := by
  intro r e r' he
  unfold destroyInRecord at he
  split at he
  · cases he
    rfl
  · cases he

theorem atomic_destroyInReplay (ids : PerSlot LogId) : Atomic (destroyInReplay ids) := by
  intro r e r' he
  unfold destroyInReplay at he
  split at he
  · cases he
    rfl
  · split at he
    · cases he
      rfl
    · cases he

/-- Retiring the contexts of a list does not fail: only those that are tracked have their turn. -/
theorem retireAll_ok (ctxs : List ContextId) (r : Registry) :
    ∃ records r', retireAll ctxs r = .ok records r' := by
  induction ctxs generalizing r with
  | nil => exact ⟨[], r, rfl⟩
  | cons ctx rest ih =>
    obtain ⟨records, r', he⟩ := ih ((destroyInRecord ctx).after r)
    cases hc : r.context? ctx with
    | some c =>
      refine ⟨⟨ctx, c.sentinelIds⟩ :: records, r', ?_⟩
      rw [retireAll_of_tracked hc]
      exact (Action.map_eq_ok_iff _ _).2 ⟨records, he, rfl⟩
    | none =>
      rw [retireAll_of_untracked hc]
      exact ⟨records, r', he⟩

theorem atomic_processSignals : Atomic processSignals := by
  intro r e r' he
  obtain ⟨records, s, hok⟩ := retireAll_ok r.signals { r with signals := [] }
  rw [processSignals_eq, hok] at he
  cases he

/-! ## Registrations -/

/-- Tracking fails exactly if the context is refused, and the host has no say in it. -/
theorem enroll_eq_error_iff {wrap : WrapContext φ} {ctx : ContextId} {mode : ExecutionMode}
    {sentinels : PerSlot ObjectHandle} {t t' : Registry × φ} {e : Error} :
    enroll wrap ctx mode sentinels t = .error e t' ↔ t.1.refusal? sentinels = some e ∧ t' = t := by
  unfold enroll
  obtain ⟨r, host⟩ := t
  dsimp only
  cases r.refusal? sentinels with
  | none =>
    constructor
    · intro h
      cases h
    · rintro ⟨h, _⟩
      cases h
  | some e₁ =>
    constructor
    · intro h
      cases h
      exact ⟨rfl, rfl⟩
    · rintro ⟨h, rfl⟩
      cases h
      rfl

/-- A recorded number that is in use is refused before anything else. -/
theorem registerRecorded_eq_error_iff {wrap : WrapContext φ} {recorded : ContextId}
    {sentinels : PerSlot ObjectHandle} {t t' : Registry × φ} {e : Error} :
    registerRecorded wrap recorded sentinels t = .error e t' ↔
      (if t.1.isTracked recorded || t.1.wrappers.contains recorded then
        e = .violation (.contextInUse recorded) else t.1.refusal? sentinels = some e) ∧ t' = t := by
  by_cases hu : (t.1.isTracked recorded || t.1.wrappers.contains recorded) = true
  · have hrun : registerRecorded wrap recorded sentinels t =
        .error (.violation (.contextInUse recorded)) t := if_pos hu
    rw [hrun, if_pos hu]
    constructor
    · intro h
      cases h
      exact ⟨rfl, rfl⟩
    · rintro ⟨rfl, rfl⟩
      rfl
  · have hrun : registerRecorded wrap recorded sentinels t =
        enroll wrap recorded .replay sentinels t := if_neg hu
    rw [hrun, if_neg hu]
    exact enroll_eq_error_iff

/-- The same call with another host. -/
def Call.withHost (wrap : WrapContext φ) : Call φ → Call φ
  | registerContext _ mode sentinels => .registerContext wrap mode sentinels
  | registerRecorded _ recorded sentinels => .registerRecorded wrap recorded sentinels
  | c => c

/-- **A failing call on a registry leaves all as it was**, and fails alike with whatever host. -/
theorem Call.unchanged_of_error {c : Call φ} {t t' : Registry × φ} {e : Error}
    (hc : ∀ ctx action, c ≠ .onJournal ctx action) (h : c.run t = .error e t') :
    t' = t ∧ ∀ wrap, (c.withHost wrap).run t = .error e t := by
  have hosted {α : Type} {action : Action Registry α} {g : α → Answer} (ha : Atomic action)
      (he : (g <$> action.beside : Action (Registry × φ) Answer) t = .error e t') :
      t' = t ∧ ∀ _ : WrapContext φ,
        (g <$> action.beside : Action (Registry × φ) Answer) t = .error e t := by
    obtain rfl := (ha.beside.map g) t e t' he
    exact ⟨rfl, fun _ => he⟩
  cases c with
  | registerContext wrap mode sentinels =>
    obtain ⟨hr, rfl⟩ := enroll_eq_error_iff.1 ((Action.map_eq_error_iff _ _).1 h)
    exact ⟨rfl, fun wrap' => (Action.map_eq_error_iff _ _).2 (enroll_eq_error_iff.2 ⟨hr, rfl⟩)⟩
  | registerRecorded wrap recorded sentinels =>
    obtain ⟨hr, rfl⟩ := registerRecorded_eq_error_iff.1 ((Action.map_eq_error_iff _ _).1 h)
    exact ⟨rfl, fun wrap' =>
      (Action.map_eq_error_iff _ _).2 (registerRecorded_eq_error_iff.2 ⟨hr, rfl⟩)⟩
  | setActive ctx => exact hosted (atomic_setActive ctx) h
  | destroyInRecord ctx => exact hosted (atomic_destroyInRecord ctx) h
  | destroyInReplay ids => exact hosted (atomic_destroyInReplay ids) h
  | processSignals => exact hosted atomic_processSignals h
  | addRoot obj => exact hosted (atomic_addRoot obj) h
  | addRootWithId obj id => exact hosted (atomic_addRootWithId obj id) h
  | removeRoot obj => exact hosted (atomic_removeRoot obj) h
  | addSpecialRoot ctx slot => exact hosted (atomic_addSpecialRoot ctx slot) h
  | removeSpecialRoot id => exact hosted (atomic_removeSpecialRoot id) h
  | addLocalRoot obj => exact hosted (atomic_addLocalRoot obj) h
  | ensureCorePaths image roots => exact hosted (atomic_ensureCorePaths image roots) h
  | signalRetired | clearContexts | refreshLocalRoots => exact hosted (atomic_ofFn _) h
  | clearDead | resetChangedInReplay | clearRoots => cases h
  | onJournal ctx action => exact absurd rfl (hc ctx action)

end Registry

/-! ## Journals -/

namespace Journal

variable {σ : Type}

theorem atomic_completeWrite (buffer : ObjectHandle) (final : UInt64) :
    Atomic (completeWrite buffer final) := by
  intro r e r' he
  unfold completeWrite at he
  split at he
  · cases he
    rfl
  · cases he

/-- **A failing call on a journal leaves the journal as it was**, whatever a loader has parsed by
then. -/
theorem Call.unchanged_of_error {c : Call σ} {t t' : Journal × σ} {e : Error}
    (h : c.run t = .error e t') : t'.1 = t.1 := by
  cases c with
  | scheduleWrite | clearPending | clearLoads | pinWeak => cases h
  | completeWrite buffer final =>
    rw [(atomic_completeWrite buffer final).beside.map Answer.landed t e t' h]
  | registerCode loader origin body counter =>
    rw [Call.run, Action.map_eq_error_iff] at h
    rcases registerCode_cases loader origin body counter t with
      ⟨_, he⟩ | ⟨_, ⟨e₁, st, _, he⟩ | ⟨found, st, _, he⟩⟩ <;> cases he.symm.trans h
    rfl
  | forceLoad loader body =>
    rw [Call.run, Action.map_eq_error_iff] at h
    rcases forceLoad_cases loader body t with ⟨e₁, st, _, he⟩ | ⟨found, st, _, he⟩ <;>
      cases he.symm.trans h
    rfl
  | unpinWeak obj => cases h

end Journal

namespace Registry

variable {φ : Type}

/-- An action on a journal fails if there is no such journal, and else it fails itself. -/
theorem onJournal_eq_error_iff {α : Type} {ctx : ContextId} {action : Action (Journal × φ) α}
    {t t' : Registry × φ} {e : Error} : onJournal ctx action t = .error e t' ↔
      t.1.journal ctx = .error e ∧ t' = t ∨ ∃ j j' s, t.1.journal ctx = .ok j ∧
        action (j, t.2) = .error e (j', s) ∧
        t' = ({ t.1 with journals := t.1.journals.insert ctx j' }, s) := by
  obtain ⟨r, w⟩ := t
  unfold onJournal
  dsimp only
  cases r.journal ctx with
  | error e₁ =>
    constructor
    · intro h
      cases h
      exact .inl ⟨rfl, rfl⟩
    · rintro (⟨h, rfl⟩ | ⟨_, _, _, h, _⟩) <;> cases h
      rfl
  | ok j =>
    dsimp only
    cases ha : action (j, w) with
    | ok a u =>
      constructor
      · intro h
        cases h
      · rintro (⟨h, _⟩ | ⟨_, _, _, h, he, _⟩) <;> cases h
        cases ha.symm.trans he
    | error e₁ u =>
      constructor
      · intro h
        cases h
        exact .inr ⟨j, u.1, u.2, rfl, ha, rfl⟩
      · rintro (⟨h, _⟩ | ⟨_, _, _, h, he, rfl⟩) <;> cases h
        cases ha.symm.trans he
        rfl

/-- A failing call on a journal leaves the registry as it was that keeps the journal. -/
theorem unchanged_of_error_onJournal {ctx : ContextId} {c : Journal.Call φ} {t t' : Registry × φ}
    {e : Error} (h : onJournal ctx c.run t = .error e t') : t'.1 = t.1 := by
  rcases onJournal_eq_error_iff.1 h with ⟨_, rfl⟩ | ⟨j, j', s, hj, he, rfl⟩
  · rfl
  · obtain rfl : j' = j := Journal.Call.unchanged_of_error he
    have hget : t.1.journals.get? ctx = some j' := by
      unfold journal at hj
      cases hg : t.1.journals.get? ctx <;> rw [hg] at hj <;> cases hj
      rfl
    rw [OrderedMap.insert_of_get? hget]

/-- **Calls that fail change nothing.**  If a call on a registry fails, reachable or not, then the
registry is as it was in all its parts, and so are its surroundings; and since it fails alike with
whatever host, no context has been wrapped.  If a call on a journal fails, be it that some body is
refused deep inside the code, then the journal is as it was; and so is all of a registry through
which the call was made. -/
theorem unchanged_after_failure :
    (∀ {φ : Type} (c : Call φ) (t t' : Registry × φ) (e : Error),
      (∀ ctx action, c ≠ .onJournal ctx action) → c.run t = .error e t' →
        t' = t ∧ ∀ wrap, (c.withHost wrap).run t = .error e t) ∧
      (∀ {σ : Type} (c : Journal.Call σ) (t t' : Journal × σ) (e : Error),
        c.run t = .error e t' → t'.1 = t.1) ∧
      ∀ {σ : Type} (ctx : ContextId) (c : Journal.Call σ) (t t' : Registry × σ) (e : Error),
        onJournal ctx c.run t = .error e t' → t'.1 = t.1 :=
  ⟨fun _ _ _ _ hc h => Call.unchanged_of_error hc h,
    fun _ _ _ _ h => Journal.Call.unchanged_of_error h,
    fun _ _ _ _ _ h => unchanged_of_error_onJournal h⟩

/-- A host that counts the contexts that it has wrapped. -/
def countingHost : WrapContext Nat := fun ctx _ wrapped => (⟨ctx.index.toUInt64⟩, wrapped + 1)

/-- A registry that tracks one context, and how many its host has wrapped. -/
def oneTracked : Registry × Nat :=
  (Call.registerContext countingHost .record ⟨⟨0⟩, ⟨1⟩, ⟨2⟩, ⟨3⟩, ⟨4⟩⟩).run.after
    ({ config := {}, nextId := 1 }, 0)

/-- Registers another context, which shares a sentinel with the first. -/
def sharingCall : Call Nat :=
  .registerContext countingHost .record ⟨⟨5⟩, ⟨6⟩, ⟨7⟩, ⟨8⟩, ⟨2⟩⟩

/-- A body that nests a second one, which nests a third. -/
def deepArena : Arena where
  bodies := #[{ deferred := true, nested := [⟨1⟩] }, { nested := [⟨2⟩] }, {}]

/-- Registers the first body, with a parser that refuses the third. -/
def deepCall : Journal.Call Arena :=
  .registerCode (Arena.loader.refusing [⟨2⟩]) .script ⟨0⟩ 1

theorem run_deepCall {j : Journal} (hbodies : j.topLevelBodies = .empty)
    (hparents : j.parents = .empty) :
    ∃ e t', deepCall.run (j, deepArena) = .error e t' ∧ t'.2.parseCount = 1 := by
  have htop : j.isTopLevel ⟨0⟩ = false := by
    rw [Journal.isTopLevel, hbodies]
    rfl
  obtain ⟨e, st, hsearch, hparsed⟩ : ∃ e st, nestedParents (Arena.loader.refusing [⟨2⟩])
      j.parents.contains ⟨0⟩ deepArena = .error e st ∧ st.parseCount = 1 := by
    rw [hparents]
    exact ⟨_, _, Search.run_of_runUpTo_error (n := 3) rfl, rfl⟩
  exact ⟨e, _, Action.map_of_eq_error _
    (Journal.registerCode_eq_error (t := (j, deepArena)) htop hsearch .script 1), hparsed⟩

/-- A context that shares a sentinel is refused, and is not wrapped; code is refused when two bodies
of it have been opened, and the journal is as before, by itself and in its registry. -/
theorem unchanged_after_shared_sentinel_and_refused_body :
    (∃ t', sharingCall.run oneTracked = .error (.violation (.sharedSentinel ⟨2⟩)) t' ∧
        t' = oneTracked ∧ t'.2 = 1 ∧ ∀ wrap, (sharingCall.withHost wrap).run oneTracked =
          .error (.violation (.sharedSentinel ⟨2⟩)) oneTracked) ∧
      (∃ e t', deepCall.run ({ context := ⟨0⟩ }, deepArena) = .error e t' ∧ t'.2.parseCount = 1 ∧
        t'.1 = { context := ⟨0⟩ }) ∧
      ∃ e t', onJournal ⟨0⟩ deepCall.run (oneTracked.1, deepArena) = .error e t' ∧
        t'.2.parseCount = 1 ∧ t'.1 = oneTracked.1 := by
  obtain ⟨hregistry, hjournal, hboth⟩ := unchanged_after_failure
  obtain ⟨e, t', hrun, hparsed⟩ := run_deepCall (j := { context := ⟨0⟩ }) rfl rfl
  have hshared : sharingCall.run oneTracked =
      .error (.violation (.sharedSentinel ⟨2⟩)) oneTracked := rfl
  have hthrough : onJournal ⟨0⟩ deepCall.run (oneTracked.1, deepArena) = .error e
      ({ oneTracked.1 with journals := oneTracked.1.journals.insert ⟨0⟩ t'.1 }, t'.2) :=
    onJournal_eq_error_iff.2 (.inr ⟨_, _, _, rfl, hrun, rfl⟩)
  obtain ⟨ht, hhost⟩ := hregistry sharingCall _ _ _ (fun _ _ h => nomatch h) hshared
  exact ⟨⟨_, hshared, ht, rfl, hhost⟩, ⟨e, t', hrun, hparsed, hjournal _ _ _ _ hrun⟩,
    e, _, hthrough, hparsed, hboth _ _ _ _ _ hthrough⟩

end Registry

end Retrace
