/-
# What single calls do

The laws by which the steps of a registry are reasoned about, one for each function that decides
something.

| function | law |
| --- | --- |
| `lookupObject`, `idOf` | `lookupObject_eq_ok_iff`, `idOf_eq_ok_iff`: ordinary ids are looked up, sentinel ids decoded |
| `idOrNext` | `idOrNext_cases`: an id is there, or none is left, or the next one is handed out |
| `addRoot`, `addLocalRoot` | `addRoot_eq`, `addLocalRoot_eq`: both are `pinById`, the id first, then the pin |
| `bindingViolation?` | `bindingViolation?_eq_none_iff`: when an id from a log may be entered |
| `refusal?`, `enroll` | `refusal?_eq_none_iff`, `enroll_eq_ok_iff`: when a context may be tracked |
| `destroyInRecord` | `destroyInRecord_eq_ok_iff`: the context is dropped, its ids remembered |
| `retireAll` | `retireAll_of_tracked`, `retireAll_of_untracked`: one context after the other |

Each law is what the specification says of one operation (section 4.1), with the cases in which it
fails.
-/

import Retrace.Proofs.OrderedMap
import Retrace.Proofs.Registry.Run

namespace Retrace

/-! ## Ids as numbers -/

theorem lt_add_one_of_lt_sentinelBase {n : UInt64} (h : n < LogId.sentinelBase) :
    n < n + 1 ∧ n + 1 ≤ LogId.sentinelBase := by
  have hn : (n + 1).toNat = n.toNat + 1 := by
    have := n.toNat_lt
    rw [UInt64.lt_iff_toNat_lt, LogId.toNat_sentinelBase] at h
    rw [UInt64.toNat_add, UInt64.toNat_one]
    omega
  rw [UInt64.lt_iff_toNat_lt, LogId.toNat_sentinelBase] at h
  rw [UInt64.lt_iff_toNat_lt, UInt64.le_iff_toNat_le, LogId.toNat_sentinelBase, hn]
  omega

theorem toNat_max (a b : UInt64) : (max a b).toNat = max a.toNat b.toNat := by
  show (if a ≤ b then b else a).toNat = _
  split
  · rename_i h
    exact (Nat.max_eq_right (UInt64.le_iff_toNat_le.1 h)).symm
  · rename_i h
    exact (Nat.max_eq_left (Nat.le_of_not_le fun hle => h (UInt64.le_iff_toNat_le.2 hle))).symm

/-- A number below the next id does not raise it. -/
theorem max_add_one_of_lt {n next : UInt64} (h : n < next) (hb : next ≤ LogId.sentinelBase) :
    max next (n + 1) = next := by
  have hle := (lt_add_one_of_lt_sentinelBase (UInt64.lt_of_lt_of_le h hb)).1
  rw [UInt64.le_iff_toNat_le, LogId.toNat_sentinelBase] at hb
  rw [UInt64.lt_iff_toNat_lt] at h
  apply UInt64.toNat_inj.1
  rw [toNat_max, UInt64.toNat_add, UInt64.toNat_one]
  omega

/-- The next id itself raises it by one. -/
theorem max_add_one_self {next : UInt64} (h : next < LogId.sentinelBase) :
    max next (next + 1) = next + 1 := by
  have hlt := UInt64.lt_iff_toNat_lt.1 (lt_add_one_of_lt_sentinelBase h).1
  apply UInt64.toNat_inj.1
  rw [toNat_max]
  omega

theorem isSentinel_eq_false_of_lt {n : UInt64} (h : n < LogId.sentinelBase) :
    LogId.isSentinel ⟨n⟩ = false := by
  simpa [LogId.isSentinel] using h

theorem lt_of_isSentinel_eq_false {id : LogId} (h : id.isSentinel = false) :
    id.raw < LogId.sentinelBase := by
  simpa [LogId.isSentinel] using h

theorem PerSlot.mem_toList_iff {α : Type} (p : PerSlot α) {a : α} :
    a ∈ p.toList ↔ ∃ slot, p.get slot = a := by
  rw [PerSlot.toList, List.mem_map]
  constructor
  · rintro ⟨slot, _, h⟩
    exact ⟨slot, h⟩
  · rintro ⟨slot, h⟩
    exact ⟨slot, by cases slot <;> simp [SentinelSlot.all], h⟩

namespace Registry

/-- A registry is created with the first id if the settings can be worked with, and there can be room
for the contexts. -/
theorem create_eq_ok_iff {config : Config} {r : Registry} :
    create config = .ok r ↔
      (config.validate = .ok () ∧ ∀ room ∈ rooms config, room.Fits) ∧
        r = { config, nextId := config.firstLogId } := by
  rw [← setAside_eq_ok_iff]
  unfold create
  cases config.validate with
  | error e => exact ⟨nofun, nofun⟩
  | ok _ =>
    cases setAside (rooms config) with
    | error e => exact ⟨nofun, nofun⟩
    | ok _ => simp [bind, Except.bind, pure, Except.pure, eq_comm]

/-- The settings that a registry is created with have an ordinary first id. -/
theorem firstLogId_lt_of_create {config : Config} {r : Registry} (h : create config = .ok r) :
    config.firstLogId < LogId.sentinelBase := by
  obtain ⟨⟨hv, _⟩, _⟩ := create_eq_ok_iff.1 h
  unfold Config.validate at hv
  split at hv
  · cases hv
  split at hv
  · cases hv
  · rename_i hf
    exact UInt64.not_le.1 fun hle => hf (.inr hle)

/-! ## Sentinels of tracked contexts -/

theorem isSpecialRoot_iff (r : Registry) (obj : ObjectHandle) :
    r.isSpecialRoot obj = true ↔ ∃ c ∈ r.contexts, ∃ slot, c.sentinels.get slot = obj := by
  simp only [isSpecialRoot, List.any_eq_true, PerSlot.slotOf?_isSome_iff]

theorem sentinelIdOf?_eq_none_iff (r : Registry) (obj : ObjectHandle) :
    r.sentinelIdOf? obj = none ↔ r.isSpecialRoot obj = false := by
  simp only [sentinelIdOf?, isSpecialRoot, List.findSome?_eq_none_iff, List.any_eq_false,
    Option.map_eq_none_iff, Bool.not_eq_true, Option.isSome_eq_false_iff, Option.isNone_iff_eq_none]

/-- A sentinel's id lies in the range kept for sentinels. -/
theorem isSentinel_of_sentinelIdOf? {r : Registry} {obj : ObjectHandle} {id : LogId}
    (h : r.sentinelIdOf? obj = some id) : id.isSentinel = true := by
  obtain ⟨c, _, hc⟩ := List.exists_of_findSome?_eq_some h
  obtain ⟨slot, _, rfl⟩ := Option.map_eq_some_iff.1 hc
  exact LogId.isSentinel_sentinel _ _

/-! ## Resolution -/

theorem lookupSentinel_eq_ok_iff (r : Registry) {id : LogId} {obj : ObjectHandle} :
    r.lookupSentinel id = .ok obj ↔ ∃ ctx slot c, id = .sentinel ctx slot ∧
      r.context? ctx = some c ∧ c.sentinels.get slot = obj := by
  unfold lookupSentinel
  constructor
  · intro h
    cases hid : id.asSentinel? with
    | none =>
      rw [hid] at h
      cases h
    | some p =>
      obtain ⟨ctx, slot⟩ := p
      simp only [hid] at h
      cases hc : r.context? ctx with
      | none =>
        rw [hc] at h
        cases h
      | some c =>
        rw [hc] at h
        exact ⟨ctx, slot, c, LogId.eq_sentinel_of_asSentinel? hid, hc, Except.ok.inj h⟩
  · rintro ⟨ctx, slot, c, rfl, hc, rfl⟩
    simp only [LogId.asSentinel?_sentinel, hc]

/-- An id names an object exactly if it is ordinary and entered for it, or it is the id of a slot in
which a tracked context has it. -/
theorem lookupObject_eq_ok_iff (r : Registry) {id : LogId} {obj : ObjectHandle} :
    r.lookupObject id = .ok obj ↔
      id.isSentinel = false ∧ r.objectOfId.get? id = some obj ∨
        ∃ ctx slot c, id = .sentinel ctx slot ∧ r.context? ctx = some c ∧
          c.sentinels.get slot = obj := by
  rw [← lookupSentinel_eq_ok_iff]
  unfold lookupObject
  cases hid : id.isSentinel with
  | true => simp
  | false =>
    have hnone : r.lookupSentinel id ≠ .ok obj := by
      rw [Ne, lookupSentinel_eq_ok_iff]
      rintro ⟨ctx, slot, _, rfl, _⟩
      rw [LogId.isSentinel_sentinel] at hid
      cases hid
    cases r.objectOfId.get? id <;> simp [hnone]

/-- An object has the ordinary id entered for it, or else its id as a sentinel. -/
theorem idOf_eq_ok_iff (r : Registry) {obj : ObjectHandle} {id : LogId} :
    r.idOf obj = .ok id ↔ r.idOfObject.get? obj = some id ∨
      r.idOfObject.get? obj = none ∧ r.sentinelIdOf? obj = some id := by
  rw [← Option.or_eq_some_iff, idOf]
  cases (r.idOfObject.get? obj).or (r.sentinelIdOf? obj) <;> simp

/-! ## Ids and roots -/

/-- The three ways of giving an id: the object has one, none is left, or the next one is handed
out. -/
theorem idOrNext_cases (obj : ObjectHandle) (r : Registry) :
    (∃ id, (r.idOfObject.get? obj).or (r.sentinelIdOf? obj) = some id ∧
        idOrNext obj r = .ok id r) ∨
      (r.idOfObject.get? obj = none ∧ r.sentinelIdOf? obj = none ∧
        LogId.sentinelBase ≤ r.nextId ∧ idOrNext obj r = .error (.violation .idsExhausted) r) ∨
      (r.idOfObject.get? obj = none ∧ r.sentinelIdOf? obj = none ∧
        r.nextId < LogId.sentinelBase ∧
        idOrNext obj r =
          .ok ⟨r.nextId⟩ ({ r with nextId := r.nextId + 1 }.bindId obj ⟨r.nextId⟩)) := by
  unfold idOrNext
  cases h : (r.idOfObject.get? obj).or (r.sentinelIdOf? obj) with
  | some id => exact .inl ⟨id, rfl, rfl⟩
  | none =>
    obtain ⟨hi, hs⟩ := Option.or_eq_none_iff.1 h
    by_cases hle : LogId.sentinelBase ≤ r.nextId
    · exact .inr (.inl ⟨hi, hs, hle, if_pos hle⟩)
    · exact .inr (.inr ⟨hi, hs, UInt64.not_le.1 hle, if_neg hle⟩)

/-- Pins an object once it has an id. -/
def pinById (pin : Registry → Registry) (obj : ObjectHandle) : Action Registry LogId := fun r =>
  match idOrNext obj r with
  | .ok id s => .ok id (pin s)
  | .error e s => .error e s

theorem addRoot_eq (obj : ObjectHandle) : addRoot obj = pinById (·.pinRoot obj) obj := by
  funext r
  rw [addRoot, Action.bind_apply, pinById]
  cases idOrNext obj r <;> rfl

theorem addLocalRoot_eq (obj : ObjectHandle) : addLocalRoot obj =
    pinById (fun s => { s with localRoots := (s.localRoots.pin obj).2 }) obj := by
  funext r
  rw [addLocalRoot, Action.bind_apply, pinById]
  cases idOrNext obj r <;> rfl

theorem pinById_eq_ok_iff {pin : Registry → Registry} {obj : ObjectHandle} {id : LogId}
    {r t : Registry} :
    pinById pin obj r = .ok id t ↔ ∃ s, idOrNext obj r = .ok id s ∧ t = pin s := by
  unfold pinById
  cases idOrNext obj r with
  | error e s => simp
  | ok own s =>
    constructor
    · intro h
      cases h
      exact ⟨s, rfl, rfl⟩
    · rintro ⟨s', h, rfl⟩
      cases h
      rfl

/-- Nothing speaks against an id from a log exactly if the object is no sentinel, no other object
has the id, and the object has no other id. -/
theorem bindingViolation?_eq_none_iff (r : Registry) (obj : ObjectHandle) (id : LogId) :
    r.bindingViolation? obj id = none ↔
      r.sentinelIdOf? obj = none ∧ (∀ o, r.objectOfId.get? id = some o → o = obj) ∧
        ∀ i, r.idOfObject.get? obj = some i → i = id := by
  unfold bindingViolation?
  cases r.sentinelIdOf? obj with
  | some own => simp
  | none =>
    cases r.objectOfId.get? id with
    | none => cases r.idOfObject.get? obj <;> simp [Option.filter]
    | some o =>
      by_cases ho : o = obj <;> cases r.idOfObject.get? obj <;> simp [Option.filter, ho]

/-! ## Contexts -/

/-- A context is not refused exactly if there is room for it and each of its sentinels has no
ordinary id and is no sentinel of a tracked context. -/
theorem refusal?_eq_none_iff (r : Registry) (sentinels : PerSlot ObjectHandle) :
    r.refusal? sentinels = none ↔
      r.contexts.length < r.config.maxContexts.toNat ∧
        ∀ slot, r.idOfObject.get? (sentinels.get slot) = none ∧
          r.isSpecialRoot (sentinels.get slot) = false := by
  have hv : ∀ obj, r.sentinelViolation? obj = none ↔
      r.idOfObject.get? obj = none ∧ r.isSpecialRoot obj = false := fun obj => by
    unfold sentinelViolation?
    cases r.idOfObject.get? obj <;> simp
  unfold refusal?
  by_cases hle : r.config.maxContexts.toNat ≤ r.contexts.length
  · simp [hle, Nat.not_lt.2 hle]
  · simp only [hle, if_false, Option.map_eq_none_iff, List.findSome?_eq_none_iff,
      PerSlot.mem_toList_iff, hv, Nat.not_le.1 hle, true_and]
    exact ⟨fun h slot => h _ ⟨slot, rfl⟩, fun h obj ⟨slot, e⟩ => e ▸ h slot⟩

theorem isSpecialRoot_track (r : Registry) (ctx : ContextId) (mode : ExecutionMode)
    (sentinels : PerSlot ObjectHandle) (wrapper : WrapperRef) (obj : ObjectHandle) :
    (r.track ctx mode sentinels wrapper).isSpecialRoot obj =
      (r.isSpecialRoot obj || (sentinels.slotOf? obj).isSome) := by
  simp [isSpecialRoot, track]

theorem context?_isSome_iff (r : Registry) (ctx : ContextId) :
    (r.context? ctx).isSome = true ↔ r.isTracked ctx = true := by
  rw [context?, isTracked, List.find?_isSome, List.any_eq_true]

theorem isTracked_of_context? {r : Registry} {ctx : ContextId} {c : TrackedContext}
    (h : r.context? ctx = some c) : r.isTracked ctx = true := by
  rw [← context?_isSome_iff, h, Option.isSome_some]

theorem not_isTracked_of_context? {r : Registry} {ctx : ContextId} (h : r.context? ctx = none) :
    ¬r.isTracked ctx = true := by
  rw [← context?_isSome_iff, h]
  exact Bool.false_ne_true

theorem mem_of_context? {r : Registry} {ctx : ContextId} {c : TrackedContext}
    (h : r.context? ctx = some c) : c ∈ r.contexts ∧ c.id = ctx := by
  unfold context? at h
  exact ⟨List.mem_of_find?_eq_some h, by simpa using List.find?_some h⟩

theorem context_eq_ok_iff (r : Registry) {ctx : ContextId} {c : TrackedContext} :
    r.context ctx = .ok c ↔ r.context? ctx = some c := by
  unfold context
  cases r.context? ctx <;> simp

/-- Tracking succeeds exactly if the context is not refused; then it is wrapped and tracked. -/
theorem enroll_eq_ok_iff {φ : Type} {wrap : WrapContext φ} {ctx q : ContextId}
    {mode : ExecutionMode} {sentinels : PerSlot ObjectHandle} {r : Registry} {host : φ}
    {t : Registry × φ} :
    enroll wrap ctx mode sentinels (r, host) = .ok q t ↔
      r.refusal? sentinels = none ∧ q = ctx ∧
        t = (r.track ctx mode sentinels (wrap ctx mode host).1, (wrap ctx mode host).2) := by
  unfold enroll
  dsimp only
  cases r.refusal? sentinels with
  | some e => simp
  | none =>
    constructor
    · intro h
      cases h
      exact ⟨rfl, rfl, rfl⟩
    · rintro ⟨_, rfl, rfl⟩
      rfl

/-- Retiring a context while recording succeeds exactly if it is tracked. -/
theorem destroyInRecord_eq_ok_iff {ctx : ContextId} {r s : Registry} {d : DeadContext} :
    destroyInRecord ctx r = .ok d s ↔
      ∃ c, r.context? ctx = some c ∧ d = ⟨ctx, c.sentinelIds⟩ ∧
        s = { r.dropContext c with dead := r.dead ++ [d] } := by
  unfold destroyInRecord context
  cases r.context? ctx with
  | none => simp
  | some c =>
    constructor
    · intro h
      cases h
      exact ⟨c, rfl, rfl, rfl⟩
    · rintro ⟨c', hc, rfl, rfl⟩
      cases hc
      rfl

theorem destroyInRecord_of_untracked {ctx : ContextId} {r : Registry} (h : r.context? ctx = none) :
    destroyInRecord ctx r = .error (.notFound .context (toString ctx)) r := by
  simp only [destroyInRecord, context, h]

/-- A context of a list that is tracked when its turn comes is retired, and then the others are. -/
theorem retireAll_of_tracked {ctx : ContextId} {r : Registry} {c : TrackedContext}
    (h : r.context? ctx = some c) (rest : List ContextId) :
    retireAll (ctx :: rest) r = ((⟨ctx, c.sentinelIds⟩ :: ·) <$> retireAll rest : Action Registry _)
      ((destroyInRecord ctx).after r) := by
  have hd := destroyInRecord_eq_ok_iff.2 ⟨c, h, rfl, rfl⟩
  rw [retireAll, Action.bind_apply]
  dsimp only [MonadState.get, getThe, MonadStateOf.get, EStateM.get]
  rw [if_pos (isTracked_of_context? h), Action.bind_apply, Action.after_of_eq_ok hd, hd]
  rfl

/-- For a context of a list that is not tracked nothing is done. -/
theorem retireAll_of_untracked {ctx : ContextId} {r : Registry} (h : r.context? ctx = none)
    (rest : List ContextId) :
    retireAll (ctx :: rest) r = retireAll rest ((destroyInRecord ctx).after r) := by
  rw [retireAll, Action.bind_apply]
  dsimp only [MonadState.get, getThe, MonadStateOf.get, EStateM.get]
  rw [if_neg (not_isTracked_of_context? h),
    Action.after_of_eq_error (destroyInRecord_of_untracked h)]

/-- Retiring a list of contexts makes of the state what retiring one after the other makes of it. -/
theorem after_retireAll_cons (ctx : ContextId) (rest : List ContextId) (r : Registry) :
    (retireAll (ctx :: rest)).after r = (retireAll rest).after ((destroyInRecord ctx).after r) := by
  cases hc : r.context? ctx with
  | some c =>
    rw [Action.after, retireAll_of_tracked hc rest]
    exact Action.after_map _ (retireAll rest) _
  | none =>
    rw [Action.after, retireAll_of_untracked hc rest]
    rfl

theorem processSignals_eq (r : Registry) :
    processSignals r = retireAll r.signals { r with signals := [] } := rfl

end Registry

end Retrace
