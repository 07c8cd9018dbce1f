/-
# Replaying a recorded run

A recording is a run of calls, each of which leaves an event in the log.  A replay, whose objects
have other handles, makes for each event the call that the event asks for.

| recorded | in the log | replayed |
| --- | --- | --- |
| `registerContext` | the number, the sentinels | `registerRecorded` under the number |
| `destroyInRecord` | the context, the ids of its sentinels | `destroyInReplay` by these ids |
| `addRoot` | the object, its id | `addRootWithId`, and a look at the id |
| `removeRoot` | the object | `removeRoot` |
| `addLocalRoot` | the object, its id | `addLocalRoot` |
| `refreshLocalRoots` | how many ids were dropped | `refreshLocalRoots` |
| `addSpecialRoot` | the context, the slot, the id | `addSpecialRoot` in the same slot |
| `removeSpecialRoot` | the id | `removeSpecialRoot` |

Every call of the replay succeeds and answers what the log says (`replay_follows_recording`): ids and
numbers that the recording handed out are free in the replay when their turn comes.

It is for this that ids and orders have to be reproducible in another process and another address
space (specification, section 1).
-/

import Mathlib.Data.List.Forall2
import Retrace.Proofs.Registry.Mirror

namespace Retrace

namespace Registry

/-! ## Recording and replaying -/

/-- A call made while recording, of those whose answer a replay depends on. -/
inductive RecordedCall where
  /-- Tracks a new context. -/
  | registerContext (sentinels : PerSlot ObjectHandle)
  /-- Retires a context. -/
  | destroyContext (ctx : ContextId)
  /-- Pins an object for the log. -/
  | addRoot (obj : ObjectHandle)
  /-- Gives one pin for the log back. -/
  | removeRoot (obj : ObjectHandle)
  /-- Pins an object for the current debug step. -/
  | addLocalRoot (obj : ObjectHandle)
  /-- Ends a debug step. -/
  | refreshLocalRoots
  /-- Pins the sentinel in a slot of a context. -/
  | addSpecialRoot (ctx : ContextId) (slot : SentinelSlot)
  /-- Gives one pin on a sentinel back. -/
  | removeSpecialRoot (id : LogId)

/-- What the log has of a call that succeeded: what was asked and what was answered. -/
inductive LogEvent where
  /-- A context was tracked under a number. -/
  | contextMade (ctx : ContextId) (sentinels : PerSlot ObjectHandle)
  /-- A context was retired. -/
  | contextGone (record : DeadContext)
  /-- An object was pinned for the log. -/
  | rootAdded (obj : ObjectHandle) (id : LogId)
  /-- One pin for the log was given back. -/
  | rootRemoved (obj : ObjectHandle)
  /-- An object was pinned for the current debug step. -/
  | localRootAdded (obj : ObjectHandle) (id : LogId)
  /-- A debug step ended. -/
  | refreshed (dropped : Nat)
  /-- A sentinel was pinned by its slot. -/
  | specialRootAdded (ctx : ContextId) (slot : SentinelSlot) (id : LogId)
  /-- One pin on a sentinel was given back. -/
  | specialRootRemoved (id : LogId)
deriving DecidableEq

variable {φ ψ : Type}

/-- Whether a call takes a new context number. -/
def RecordedCall.takesNumber : RecordedCall → Bool
  | registerContext _ => true
  | _ => false

/-- Makes a call and tells what the log has of it: what was asked, and what was answered to it. -/
def RecordedCall.record (wrap : WrapContext φ) : RecordedCall → Action (Registry × φ) LogEvent
  | registerContext sentinels =>
    (LogEvent.contextMade · sentinels) <$> Registry.registerContext wrap .record sentinels
  | destroyContext ctx => LogEvent.contextGone <$> (destroyInRecord ctx).beside
  | addRoot obj => LogEvent.rootAdded obj <$> (Registry.addRoot obj).beside
  | removeRoot obj => (fun _ => LogEvent.rootRemoved obj) <$> (Registry.removeRoot obj).beside
  | addLocalRoot obj => LogEvent.localRootAdded obj <$> (Registry.addLocalRoot obj).beside
  | refreshLocalRoots => LogEvent.refreshed <$> (Action.ofFn Registry.refreshLocalRoots).beside
  | addSpecialRoot ctx slot =>
    LogEvent.specialRootAdded ctx slot <$> (Registry.addSpecialRoot ctx slot).beside
  | removeSpecialRoot id =>
    (fun _ => LogEvent.specialRootRemoved id) <$> (Registry.removeSpecialRoot id).beside

/-- Pins an object for the log under a recorded id, and tells the id that it has then. -/
def addRootAgain (obj : ObjectHandle) (id : LogId) : Action Registry LogId := fun r =>
  match addRootWithId obj id r with
  | .error e s => .error e s
  | .ok () s =>
    match s.idOf obj with
    | .ok own => .ok own s
    | .error e => .error e s

/-- Makes the call that an event asks for, with objects renamed, and tells the event as the replay
sees it. -/
def LogEvent.replay (wrap : WrapContext ψ) (f : ObjectHandle → ObjectHandle) :
    LogEvent → Action (Registry × ψ) LogEvent
  | contextMade ctx sentinels =>
    (contextMade · sentinels) <$> registerRecorded wrap ctx (sentinels.map f)
  | contextGone record => (fun ctx => contextGone ⟨ctx, record.ids⟩) <$>
      (destroyInReplay record.ids).beside
  | rootAdded obj id => rootAdded obj <$> (addRootAgain (f obj) id).beside
  | rootRemoved obj => (fun _ => rootRemoved obj) <$> (removeRoot (f obj)).beside
  | localRootAdded obj _ => localRootAdded obj <$> (addLocalRoot (f obj)).beside
  | refreshed _ => refreshed <$> (Action.ofFn refreshLocalRoots).beside
  | specialRootAdded ctx slot _ => specialRootAdded ctx slot <$> (addSpecialRoot ctx slot).beside
  | specialRootRemoved id => (fun _ => specialRootRemoved id) <$> (removeSpecialRoot id).beside

/-- A run step by step: what each step answers, and the state after it; or the error of the first
step that fails. -/
def trace {κ σ α : Type} (step : κ → Action σ α) : List κ → σ → Except Error (List (α × σ))
  | [], _ => .ok []
  | k :: rest, s =>
    match step k s with
    | .error e _ => .error e
    | .ok a t => (trace step rest t).map ((a, t) :: ·)

theorem trace_cons_eq_ok_iff {κ σ α : Type} {step : κ → Action σ α} {k : κ} {rest : List κ} {s : σ}
    {l : List (α × σ)} :
    trace step (k :: rest) s = .ok l ↔
      ∃ a t l', step k s = .ok a t ∧ trace step rest t = .ok l' ∧ l = (a, t) :: l' := by
  rw [trace]
  cases step k s with
  | error e t => simp
  | ok a t =>
    cases ht : trace step rest t with
    | error e => simp [Except.map, ht]
    | ok l' => simp [Except.map, ht, eq_comm]

/-- Both registries use the same ids: for each id the one answers by an object and the other by the
renamed one, or neither answers. -/
structure SameNames (f : ObjectHandle → ObjectHandle) (r r' : Registry) : Prop where
  /-- An id names an object in the one and the renamed object in the other, or is unknown to both. -/
  objects : ∀ id, (∃ obj, r.lookupObject id = .ok obj ∧ r'.lookupObject id = .ok (f obj)) ∨
    r.lookupObject id = .error (.notFound .logId (toString id)) ∧
      r'.lookupObject id = .error (.notFound .logId (toString id))
  /-- An object and the renamed object have the same id, or none. -/
  ids : ∀ obj, (∃ id, r.idOf obj = .ok id ∧ r'.idOf (f obj) = .ok id) ∨
    r.idOf obj = .error (.notFound .logId (toString obj)) ∧
      r'.idOf (f obj) = .error (.notFound .logId (toString (f obj)))

theorem lookupObject_cases (r : Registry) (id : LogId) :
    (∃ obj, r.lookupObject id = .ok obj) ∨
      r.lookupObject id = .error (.notFound .logId (toString id)) := by
  unfold lookupObject lookupSentinel
  split
  · cases id.asSentinel? with
    | none => exact .inr rfl
    | some p =>
      dsimp only
      cases r.context? p.1 with
      | none => exact .inr rfl
      | some c => exact .inl ⟨_, rfl⟩
  · cases r.objectOfId.get? id with
    | none => exact .inr rfl
    | some obj => exact .inl ⟨obj, rfl⟩

theorem Mirrors.sameNames {f : ObjectHandle → ObjectHandle} {r r' : Registry}
    (hf : ∀ a b, f a = f b → a = b) (h : Mirrors f r r') : SameNames f r r' where
  objects id := by
    rw [h.lookupObject]
    rcases lookupObject_cases r id with ⟨obj, ho⟩ | he
    · exact .inl ⟨obj, ho, by rw [ho]; rfl⟩
    · exact .inr ⟨he, by rw [he]; rfl⟩
  ids obj := by
    unfold idOf
    rw [h.ownId hf]
    cases (r.idOfObject.get? obj).or (r.sentinelIdOf? obj) with
    | none => exact .inr ⟨rfl, rfl⟩
    | some id => exact .inl ⟨id, rfl, rfl⟩

/-! ## One step -/

/-- The call that may change a registry, of which a recorded call logs the answer. -/
def RecordedCall.call (wrap : WrapContext φ) : RecordedCall → Call φ
  | registerContext sentinels => .registerContext wrap .record sentinels
  | destroyContext ctx => .destroyInRecord ctx
  | addRoot obj => .addRoot obj
  | removeRoot obj => .removeRoot obj
  | addLocalRoot obj => .addLocalRoot obj
  | refreshLocalRoots => .refreshLocalRoots
  | addSpecialRoot ctx slot => .addSpecialRoot ctx slot
  | removeSpecialRoot id => .removeSpecialRoot id

theorem RecordedCall.after_record (wrap : WrapContext φ) (c : RecordedCall) (t : Registry × φ) :
    (c.record wrap).after t = (c.call wrap).run.after t := by
  cases c <;> rw [record, call, Call.run, Action.after_map, Action.after_map]

/-- A recorded call leaves the numbers in order, and takes one number or none. -/
theorem RecordedCall.numbers {wrap : WrapContext φ} {c : RecordedCall} {t t' : Registry × φ}
    {e : LogEvent} (h : NumbersInOrder t.1)
    (hlast : c.takesNumber = true → t.1.nextContext < 0xFFFFFFFF)
    (hr : c.record wrap t = .ok e t') :
    NumbersInOrder t'.1 ∧
      t'.1.nextContext.toNat = t.1.nextContext.toNat + if c.takesNumber = true then 1 else 0 := by
  have keep : ∀ {s}, SameNumbers t.1 s →
      NumbersInOrder s ∧ s.nextContext.toNat = t.1.nextContext.toNat + 0 := fun hs =>
    ⟨hs.numbersInOrder h, by rw [hs.nextContext]; rfl⟩
  cases c with
  | registerContext sentinels =>
    obtain ⟨ctx, ha, _⟩ := (Action.map_eq_ok_iff _ _).1 hr
    obtain ⟨_, _, rfl⟩ := enroll_eq_ok_iff.1 ha
    exact ⟨h.track (hlast rfl) h.isTracked_next _ _ _, nextContext_track (hlast rfl) _ _ _⟩
  | destroyContext ctx =>
    obtain ⟨d, s, hd, _, rfl⟩ := (Action.map_beside_eq_ok_iff _ _).1 hr
    exact keep (Action.after_of_eq_ok hd ▸ (samePins_destroyInRecord ctx t.1).toSameNumbers)
  | addRoot obj =>
    obtain ⟨id, s, ha, _, rfl⟩ := (Action.map_beside_eq_ok_iff _ _).1 hr
    exact keep (sameNumbers_addRoot ha)
  | removeRoot obj =>
    obtain ⟨_, s, ha, _, rfl⟩ := (Action.map_beside_eq_ok_iff _ _).1 hr
    exact keep (Action.after_of_eq_ok ha ▸ (sameIds_removeRoot obj t.1).toSameNumbers)
  | addLocalRoot obj =>
    obtain ⟨id, s, ha, _, rfl⟩ := (Action.map_beside_eq_ok_iff _ _).1 hr
    exact keep (sameNumbers_addLocalRoot ha)
  | refreshLocalRoots =>
    obtain ⟨n, s, ha, _, rfl⟩ := (Action.map_beside_eq_ok_iff _ _).1 hr
    cases ha
    exact keep (sameNumbers_refreshLocalRoots t.1)
  | addSpecialRoot ctx slot =>
    obtain ⟨id, s, ha, _, rfl⟩ := (Action.map_beside_eq_ok_iff _ _).1 hr
    exact keep (Action.after_of_eq_ok ha ▸ (samePins_addSpecialRoot ctx slot t.1).toSameNumbers)
  | removeSpecialRoot id =>
    obtain ⟨_, s, ha, _, rfl⟩ := (Action.map_beside_eq_ok_iff _ _).1 hr
    exact keep (Action.after_of_eq_ok ha ▸ (samePins_removeSpecialRoot id t.1).toSameNumbers)

theorem RecordedCall.ids {wrap : WrapContext φ} {c : RecordedCall} {t t' : Registry × φ}
    {e : LogEvent} (h : IdsInOrder t.1) (hr : c.record wrap t = .ok e t') : IdsInOrder t'.1 := by
  have hc := h.call (c.call wrap)
  rw [← c.after_record wrap, Action.after_of_eq_ok hr] at hc
  exact hc

/-- **The call that an event asks for succeeds in the replay**, is answered as the recorded one was,
and leaves registries that mirror each other. -/
theorem LogEvent.replay_of_record {f : ObjectHandle → ObjectHandle}
    (hf : ∀ a b, f a = f b → a = b) {wrap : WrapContext φ} (wrap' : WrapContext ψ)
    {c : RecordedCall} {e : LogEvent} {t t' : Registry × φ} {u : Registry × ψ}
    (hi : IdsInOrder t.1) (hn : NumbersInOrder t.1) (hm : Mirrors f t.1 u.1)
    (hr : c.record wrap t = .ok e t') :
    ∃ u', e.replay wrap' f u = .ok e u' ∧ Mirrors f t'.1 u'.1 := by
  cases c with
  | registerContext sentinels =>
    obtain ⟨ctx, ha, rfl⟩ := (Action.map_eq_ok_iff _ _).1 hr
    obtain ⟨u', hu, hm'⟩ := hm.registerContext hf hn wrap' u.2 ha
    exact ⟨u', (Action.map_eq_ok_iff _ _).2 ⟨ctx, hu, rfl⟩, hm'⟩
  | destroyContext ctx =>
    obtain ⟨d, s, hd, rfl, rfl⟩ := (Action.map_beside_eq_ok_iff _ _).1 hr
    obtain ⟨s', hs', hm'⟩ := hm.destroyInRecord hf hn hd
    obtain ⟨_, _, rfl, _⟩ := destroyInRecord_eq_ok_iff.1 hd
    exact ⟨(s', u.2), (Action.map_beside_eq_ok_iff _ _).2 ⟨ctx, s', hs', rfl, rfl⟩, hm'⟩
  | addRoot obj =>
    obtain ⟨id, s, ha, rfl, rfl⟩ := (Action.map_beside_eq_ok_iff _ _).1 hr
    obtain ⟨s', hs', hm', hid⟩ := hm.addRoot hf hi hn ha
    have hown : addRootAgain (f obj) id u.1 = .ok id s' := by
      rw [← hm'.ownId hf] at hid
      simp only [addRootAgain, hs', idOf, hid]
    exact ⟨(s', u.2), (Action.map_beside_eq_ok_iff _ _).2 ⟨id, s', hown, rfl, rfl⟩, hm'⟩
  | removeRoot obj =>
    obtain ⟨_, s, ha, rfl, rfl⟩ := (Action.map_beside_eq_ok_iff _ _).1 hr
    obtain ⟨s', hs', hm'⟩ := hm.removeRoot hf ha
    exact ⟨(s', u.2), (Action.map_beside_eq_ok_iff _ _).2 ⟨(), s', hs', rfl, rfl⟩, hm'⟩
  | addLocalRoot obj =>
    obtain ⟨id, s, ha, rfl, rfl⟩ := (Action.map_beside_eq_ok_iff _ _).1 hr
    obtain ⟨s', hs', hm'⟩ := hm.addLocalRoot hf ha
    exact ⟨(s', u.2), (Action.map_beside_eq_ok_iff _ _).2 ⟨id, s', hs', rfl, rfl⟩, hm'⟩
  | refreshLocalRoots =>
    obtain ⟨n, s, ha, rfl, rfl⟩ := (Action.map_beside_eq_ok_iff _ _).1 hr
    cases ha
    obtain ⟨hn', hm'⟩ := hm.refreshLocalRoots
    exact ⟨(u.1.refreshLocalRoots.2, u.2), (Action.map_beside_eq_ok_iff _ _).2
      ⟨u.1.refreshLocalRoots.1, _, rfl, by rw [hn'], rfl⟩, hm'⟩
  | addSpecialRoot ctx slot =>
    obtain ⟨id, s, ha, rfl, rfl⟩ := (Action.map_beside_eq_ok_iff _ _).1 hr
    obtain ⟨s', hs', hm'⟩ := hm.addSpecialRoot hf ha
    exact ⟨(s', u.2), (Action.map_beside_eq_ok_iff _ _).2 ⟨id, s', hs', rfl, rfl⟩, hm'⟩
  | removeSpecialRoot id =>
    obtain ⟨_, s, ha, rfl, rfl⟩ := (Action.map_beside_eq_ok_iff _ _).1 hr
    obtain ⟨s', hs', hm'⟩ := hm.removeSpecialRoot hf ha
    exact ⟨(s', u.2), (Action.map_beside_eq_ok_iff _ _).2 ⟨(), s', hs', rfl, rfl⟩, hm'⟩

/-! ## The whole run -/

/-- **From registries that mirror each other, the whole log is replayed**, as long as the recording
has numbers left. -/
theorem trace_replay {f : ObjectHandle → ObjectHandle} (hf : ∀ a b, f a = f b → a = b)
    {wrap : WrapContext φ} (wrap' : WrapContext ψ) {calls : List RecordedCall}
    {t : Registry × φ} {u : Registry × ψ} {recorded : List (LogEvent × Registry × φ)}
    (hi : IdsInOrder t.1) (hn : NumbersInOrder t.1) (hm : Mirrors f t.1 u.1)
    (hlast : t.1.nextContext.toNat + calls.countP RecordedCall.takesNumber < 0xFFFFFFFF)
    (hr : trace (RecordedCall.record wrap) calls t = .ok recorded) :
    ∃ replayed, trace (LogEvent.replay wrap' f) (recorded.map (·.1)) u = .ok replayed ∧
      List.Forall₂ (fun a b => b.1 = a.1 ∧ Mirrors f a.2.1 b.2.1) recorded replayed := by
  induction calls generalizing t u recorded with
  | nil =>
    cases hr
    exact ⟨[], rfl, .nil⟩
  | cons c rest ih =>
    obtain ⟨e, t', recorded', he, hrest, rfl⟩ := trace_cons_eq_ok_iff.1 hr
    rw [List.countP_cons] at hlast
    have hlast' : c.takesNumber = true → t.1.nextContext < 0xFFFFFFFF := by
      intro hc
      rw [if_pos hc] at hlast
      refine UInt32.lt_iff_toNat_lt.2 ?_
      show t.1.nextContext.toNat < 4294967295
      omega
    obtain ⟨hn', hnext⟩ := RecordedCall.numbers hn hlast' he
    obtain ⟨u', hu, hm'⟩ := LogEvent.replay_of_record hf wrap' hi hn hm he
    obtain ⟨replayed, hrep, hall⟩ := ih (RecordedCall.ids hi he) hn' hm' (by omega) hrest
    exact ⟨(e, u') :: replayed, trace_cons_eq_ok_iff.2 ⟨e, u', replayed, hu, hrep, rfl⟩,
      .cons ⟨rfl, hm'⟩ hall⟩

/-- **A replay follows the recording.**  Whatever succeeded while recording, from a new registry and
with fewer than `0xFFFFFFFF` contexts made, succeeds again in a new registry with the same settings
whose objects are renamed injectively: every step answers what the log has of it, and after every
step both registries use the same ids. -/
theorem replay_follows_recording {config : Config} {new : Registry}
    {f : ObjectHandle → ObjectHandle} {wrap : WrapContext φ} (wrap' : WrapContext ψ)
    {calls : List RecordedCall} {host : φ} (host' : ψ)
    {recorded : List (LogEvent × Registry × φ)}
    (hf : ∀ a b, f a = f b → a = b) (hnew : create config = .ok new)
    (hlast : calls.countP RecordedCall.takesNumber < 0xFFFFFFFF)
    (hr : trace (RecordedCall.record wrap) calls (new, host) = .ok recorded) :
    ∃ replayed, trace (LogEvent.replay wrap' f) (recorded.map (·.1)) (new, host') = .ok replayed ∧
      List.Forall₂ (fun a b => b.1 = a.1 ∧ SameNames f a.2.1 b.2.1) recorded replayed := by
  have hzero : new.nextContext = 0 := by
    obtain ⟨_, rfl⟩ := create_eq_ok_iff.1 hnew
    rfl
  have hcount : new.nextContext.toNat + calls.countP RecordedCall.takesNumber < 0xFFFFFFFF := by
    rw [hzero, UInt32.toNat_zero]
    omega
  obtain ⟨replayed, hrep, hall⟩ := trace_replay hf wrap' (t := (new, host)) (u := (new, host'))
    (idsInOrder_create hnew) (numbersInOrder_create hnew) (mirrors_create f hnew) hcount hr
  exact ⟨replayed, hrep, hall.imp fun _ _ h => ⟨h.1, h.2.sameNames hf⟩⟩

/-- A recording in which ids are shared with a sentinel, dropped by a refresh while one object is
pinned, and given to an object that was a sentinel until its context was retired. -/
def busyRecording : List RecordedCall :=
  [.registerContext ⟨⟨0⟩, ⟨1⟩, ⟨2⟩, ⟨3⟩, ⟨4⟩⟩, .addRoot ⟨7⟩, .addRoot ⟨2⟩, .addLocalRoot ⟨8⟩,
    .addSpecialRoot ⟨0⟩ .nullValue, .removeRoot ⟨7⟩, .addRoot ⟨9⟩, .refreshLocalRoots,
    .removeSpecialRoot ⟨0x8000000000000002⟩, .destroyContext ⟨0⟩, .addRoot ⟨2⟩]

/-- The objects of a replay that has a hundred objects more. -/
theorem replay_follows_busyRecording :
    ∃ new recorded replayed, create {} = .ok new ∧
      (∀ a b : ObjectHandle, ObjectHandle.mk (a.index + 100) = ⟨b.index + 100⟩ → a = b) ∧
      busyRecording.countP RecordedCall.takesNumber < 0xFFFFFFFF ∧
      trace (RecordedCall.record fun ctx _ => pure ⟨ctx.index.toUInt64⟩) busyRecording (new, ()) =
        .ok recorded ∧
      recorded.map (·.1) =
        [.contextMade ⟨0⟩ ⟨⟨0⟩, ⟨1⟩, ⟨2⟩, ⟨3⟩, ⟨4⟩⟩, .rootAdded ⟨7⟩ ⟨1⟩,
          .rootAdded ⟨2⟩ ⟨0x8000000000000002⟩, .localRootAdded ⟨8⟩ ⟨2⟩,
          .specialRootAdded ⟨0⟩ .nullValue ⟨0x8000000000000002⟩, .rootRemoved ⟨7⟩,
          .rootAdded ⟨9⟩ ⟨3⟩, .refreshed 2, .specialRootRemoved ⟨0x8000000000000002⟩,
          .contextGone ⟨⟨0⟩, LogId.sentinelsOf ⟨0⟩⟩, .rootAdded ⟨2⟩ ⟨4⟩] ∧
      trace (LogEvent.replay (fun ctx _ => pure ⟨ctx.index.toUInt64 + 1⟩) fun a => ⟨a.index + 100⟩)
        (recorded.map (·.1)) (new, ()) = .ok replayed ∧
      List.Forall₂ (fun a b => b.1 = a.1 ∧ SameNames (fun o => ⟨o.index + 100⟩) a.2.1 b.2.1)
        recorded replayed := by
  have hf : ∀ a b : ObjectHandle, ObjectHandle.mk (a.index + 100) = ⟨b.index + 100⟩ → a = b := by
    rintro ⟨a⟩ ⟨b⟩ h
    simpa using h
  have hlast : busyRecording.countP RecordedCall.takesNumber < 0xFFFFFFFF := by decide
  obtain ⟨replayed, hrep, hall⟩ := replay_follows_recording
    (fun ctx _ => pure ⟨ctx.index.toUInt64 + 1⟩) () hf (rfl : create {} = .ok _) hlast
    (rfl : trace (RecordedCall.record fun ctx _ => pure ⟨ctx.index.toUInt64⟩) busyRecording (_, ()) =
      .ok _)
  exact ⟨_, _, replayed, rfl, hf, hlast, rfl, by decide, hrep, hall⟩

end Registry

end Retrace
