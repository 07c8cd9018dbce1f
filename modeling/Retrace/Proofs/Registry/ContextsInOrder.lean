/-
# Contexts in order

What is kept about a context is kept in several places, and they agree.  `ContextsInOrder` says what
holds of them in every reachable registry:

| part | says |
| --- | --- |
| `settings` | the settings are those that the registry was created with |
| `derived` | the sentinel ids of a tracked context are those of its number |
| `wrapped`, `counted` | a tracked context has a wrapper, and the next number comes after those |
| `journaled` | only tracked contexts have journals |
| `active` | the active context is tracked |
| `room`, `signals` | there are no more contexts, and no more signals, than the settings allow |
| `special` | what is pinned by slot is a sentinel of a tracked context |

`ContextsDistinct` says what holds besides while the last number, which is its own successor, has no
wrapper: no two tracked contexts share a number, and each has a journal.  A second context of one
number takes the journal of the first over, and takes it along when it is retired.

The bounds and what belongs together are those of the registry in the specification (section 4.1).
-/

import Retrace.Proofs.Registry.ContextNumbers
import Retrace.Proofs.Registry.ContextSteps

namespace Retrace

/-- The last context number. -/
def ContextId.last : ContextId := ⟨0xFFFFFFFF⟩

theorem ContextId.lt_last {ctx : ContextId} (h : ctx ≠ .last) : ctx.index < 0xFFFFFFFF := by
  have hne : ctx.index.toNat ≠ 4294967295 := fun he =>
    h (Numbered.number_injective (show ctx.index.toNat = ContextId.last.index.toNat from he))
  have hlt := ctx.index.toNat_lt
  rw [UInt32.lt_iff_toNat_lt]
  show ctx.index.toNat < 4294967295
  omega

namespace Registry

variable {φ : Type} {c : Call φ} {config : Config}

/-! ## Tracked numbers -/

theorem isTracked_iff (r : Registry) (ctx : ContextId) :
    r.isTracked ctx = true ↔ ∃ d ∈ r.contexts, d.id = ctx := by
  simp only [isTracked, List.any_eq_true, decide_eq_true_eq]

theorem isTracked_track (r : Registry) (ctx : ContextId) (mode : ExecutionMode)
    (sentinels : PerSlot ObjectHandle) (wrapper : WrapperRef) (q : ContextId) :
    (r.track ctx mode sentinels wrapper).isTracked q = true ↔ ctx = q ∨ r.isTracked q = true := by
  simp [isTracked, track, or_comm]

theorem contains_wrappers_track (r : Registry) (ctx : ContextId) (mode : ExecutionMode)
    (sentinels : PerSlot ObjectHandle) (wrapper : WrapperRef) (q : ContextId) :
    (r.track ctx mode sentinels wrapper).wrappers.contains q = true ↔
      ctx = q ∨ r.wrappers.contains q = true :=
  OrderedMap.contains_insert_iff r.wrappers ctx q wrapper

/-- Of two numbers, dropping the context of one leaves the other one tracked. -/
theorem isTracked_dropContext {r : Registry} {d : TrackedContext} {q : ContextId} (hne : q ≠ d.id)
    (h : r.isTracked q = true) : (r.dropContext d).isTracked q = true := by
  obtain ⟨e, he, rfl⟩ := (isTracked_iff r q).1 h
  exact (isTracked_iff _ _).2 ⟨e, (List.mem_eraseP_of_neg (by simpa using hne)).2 he, rfl⟩

theorem contexts_dropContext (r : Registry) (d : TrackedContext) :
    (r.dropContext d).contexts.Sublist r.contexts :=
  List.eraseP_sublist

/-! ## What holds of every registry -/

/-- What holds of the contexts of every registry created with certain settings. -/
structure ContextsInOrder (config : Config) (r : Registry) : Prop where
  /-- The settings are as they were. -/
  settings : r.config = config
  /-- The sentinel ids of a tracked context are those of its number. -/
  derived : ∀ d ∈ r.contexts, d.sentinelIds = LogId.sentinelsOf d.id
  /-- A tracked context has a wrapper. -/
  wrapped : ∀ ctx, r.isTracked ctx = true → r.wrappers.contains ctx = true
  /-- The next number comes after those that have wrappers. -/
  counted : ∀ ctx, r.wrappers.contains ctx = true → numberAfter ctx ≤ r.nextContext
  /-- Only tracked contexts have journals. -/
  journaled : ∀ ctx, r.journals.contains ctx = true → r.isTracked ctx = true
  /-- The active context is tracked. -/
  active : ∀ ctx, r.active = some ctx → r.isTracked ctx = true
  /-- There are no more contexts than the settings allow. -/
  room : r.contexts.length ≤ config.maxContexts.toNat
  /-- There are no more signals than contexts may be. -/
  signals : r.signals.length ≤ config.maxContexts.toNat
  /-- What is pinned by slot is a sentinel of a tracked context. -/
  special : ∀ obj, r.specialRoots.contains obj = true → r.isSpecialRoot obj = true

theorem contextsInOrder_create {r : Registry} (h : create config = .ok r) :
    ContextsInOrder config r := by
  obtain ⟨_, rfl⟩ := create_eq_ok_iff.1 h
  exact ⟨rfl, fun _ hd => absurd hd List.not_mem_nil, fun _ ht => absurd ht Bool.false_ne_true,
    fun _ hw => absurd hw Bool.false_ne_true, fun _ hj => absurd hj Bool.false_ne_true,
    fun _ ha => absurd ha.symm (Option.some_ne_none _), Nat.zero_le _, Nat.zero_le _,
    fun _ ho => absurd ho Bool.false_ne_true⟩

theorem SameContexts.isTracked {r r' : Registry} (hs : SameContexts r r') (ctx : ContextId) :
    r'.isTracked ctx = r.isTracked ctx := by
  rw [Registry.isTracked, Registry.isTracked, hs.contexts]

theorem SameContexts.isSpecialRoot {r r' : Registry} (hs : SameContexts r r')
    (obj : ObjectHandle) : r'.isSpecialRoot obj = r.isSpecialRoot obj := by
  rw [Registry.isSpecialRoot, Registry.isSpecialRoot, hs.contexts]

namespace ContextsInOrder

variable {r r' : Registry}

theorem ofSameContexts (h : ContextsInOrder config r) (hs : SameContexts r r') :
    ContextsInOrder config r' where
  settings := hs.config.trans h.settings
  derived := by rw [hs.contexts]; exact h.derived
  wrapped ctx := by rw [hs.isTracked, hs.wrappers]; exact h.wrapped ctx
  counted ctx := by rw [hs.wrappers, hs.nextContext]; exact h.counted ctx
  journaled ctx := by rw [hs.journals, hs.isTracked]; exact h.journaled ctx
  active ctx := by rw [hs.active, hs.isTracked]; exact h.active ctx
  room := by rw [hs.contexts]; exact h.room
  signals := by rw [hs.signals]; exact h.signals
  special obj := by rw [hs.specialRoots, hs.isSpecialRoot]; exact h.special obj

theorem track (h : ContextsInOrder config r) {sentinels : PerSlot ObjectHandle}
    (hs : r.refusal? sentinels = none) (ctx : ContextId) (mode : ExecutionMode)
    (wrapper : WrapperRef) : ContextsInOrder config (r.track ctx mode sentinels wrapper) where
  settings := h.settings
  derived d hd := by
    rcases List.mem_append.1 hd with hd | hd
    · exact h.derived d hd
    · rw [List.mem_singleton.1 hd]
  wrapped q hq := by
    rw [contains_wrappers_track]
    exact ((isTracked_track r _ _ _ _ q).1 hq).imp_right (h.wrapped q)
  counted q hq := by
    have hmax := toNat_max32 r.nextContext (numberAfter ctx)
    show numberAfter q ≤ max r.nextContext (numberAfter ctx)
    rw [UInt32.le_iff_toNat_le]
    rcases (contains_wrappers_track r _ _ _ _ q).1 hq with rfl | hq
    · omega
    · have hle := UInt32.le_iff_toNat_le.1 (h.counted q hq)
      omega
  journaled q hq := by
    rw [isTracked_track]
    exact ((OrderedMap.contains_insert_iff _ _ _ _).1 hq).imp_right (h.journaled q)
  active q hq := (isTracked_track r _ _ _ _ q).2 (.inr (h.active q hq))
  room := by
    have hlt := ((refusal?_eq_none_iff r sentinels).1 hs).1
    rw [h.settings] at hlt
    show (r.contexts ++ [_]).length ≤ _
    rw [List.length_append, List.length_singleton]
    exact hlt
  signals := h.signals
  special obj ho := by rw [isSpecialRoot_track, h.special obj ho, Bool.true_or]

theorem activate (h : ContextsInOrder config r) {ctx : Option ContextId}
    (hctx : ∀ q, ctx = some q → r.isTracked q = true) :
    ContextsInOrder config { r with active := ctx } :=
  { h with active := hctx }

/-- **Dropping a context drops what is kept about it in all places**: its journal and the pins on its
sentinels go, and it is no longer active. -/
theorem dropContext (h : ContextsInOrder config r) {d : TrackedContext}
    (hd : r.context? d.id = some d) : ContextsInOrder config (r.dropContext d) where
  settings := h.settings
  derived e he := h.derived e ((contexts_dropContext r d).subset he)
  wrapped q hq := by
    obtain ⟨e, he, hid⟩ := (isTracked_iff _ q).1 hq
    exact h.wrapped q ((isTracked_iff r q).2 ⟨e, (contexts_dropContext r d).subset he, hid⟩)
  counted := h.counted
  journaled q hq := by
    obtain ⟨hne, hq⟩ := (OrderedMap.contains_erase_iff _ _ _).1 hq
    exact isTracked_dropContext (Ne.symm hne) (h.journaled q hq)
  active q hq := by
    have hact : (if r.active = some d.id then none else r.active) = some q := hq
    split at hact
    · cases hact
    · rename_i hne
      refine isTracked_dropContext ?_ (h.active q hact)
      rintro rfl
      exact hne hact
  room := Nat.le_trans (contexts_dropContext r d).length_le h.room
  signals := h.signals
  special obj ho := by
    obtain ⟨ho, hnot⟩ := (PinSet.contains_releaseAll _ _ _).1 ho
    obtain ⟨e, he, slot, hslot⟩ := (isSpecialRoot_iff r obj).1 (h.special obj ho)
    -- The object is a sentinel of another context, for it is none of the one dropped.
    have hne : e ≠ d := by
      rintro rfl
      exact hnot (e.sentinels.mem_toList_iff.2 ⟨slot, hslot⟩)
    exact (isSpecialRoot_iff _ obj).2 ⟨e, mem_eraseP_of_find? hd he hne, slot, hslot⟩

theorem write (h : ContextsInOrder config r) {ctx : ContextId} {j : Journal}
    (hj : r.journals.get? ctx = some j) (j' : Journal) :
    ContextsInOrder config { r with journals := r.journals.insert ctx j' } :=
  { h with
    journaled := fun q hq => by
      rcases (OrderedMap.contains_insert_iff _ _ _ _).1 hq with rfl | hq
      · exact h.journaled _ (OrderedMap.contains_of_get? hj)
      · exact h.journaled q hq }

theorem signal (h : ContextsInOrder config r) {signals : List ContextId}
    (hs : signals.length ≤ r.config.maxContexts.toNat) :
    ContextsInOrder config { r with signals } :=
  { h with signals := by rw [← h.settings]; exact hs }

theorem pin (h : ContextsInOrder config r) {pins : PinSet ObjectHandle}
    (hp : ∀ obj, pins.contains obj = true →
      r.specialRoots.contains obj = true ∨ r.isSpecialRoot obj = true) :
    ContextsInOrder config { r with specialRoots := pins } :=
  { h with special := fun obj ho => (hp obj ho).elim (h.special obj) id }

theorem clearContexts (h : ContextsInOrder config r) :
    ContextsInOrder config r.clearContexts.2 :=
  ⟨h.settings, fun _ hd => absurd hd List.not_mem_nil, fun _ ht => absurd ht Bool.false_ne_true,
    fun _ hw => absurd hw Bool.false_ne_true, fun _ hj => absurd hj Bool.false_ne_true,
    fun _ ha => absurd ha.symm (Option.some_ne_none _), Nat.zero_le _, Nat.zero_le _,
    fun _ ho => absurd ho Bool.false_ne_true⟩

/-- **Every step keeps the contexts in order**, whatever call it belongs to. -/
theorem step (h : ContextsInOrder config r) (hs : ContextStep c r r') :
    ContextsInOrder config r' := by
  cases hs with
  | same hs => exact h.ofSameContexts hs
  | tracked ctx mode wrapper _ hs _ => exact h.track hs ctx mode wrapper
  | activated hctx => exact h.activate hctx
  | dropped hd => exact h.dropContext hd
  | written s _ hj => exact h.write hj _
  | signalled hs => exact h.signal hs
  | pinned hp => exact h.pin hp
  | cleared _ => exact h.clearContexts

end ContextsInOrder

theorem Reachable.contextsInOrder {t : Registry × φ} (h : Reachable config t) :
    ContextsInOrder config t.1 := by
  induction h with
  | created w hc => exact contextsInOrder_create hc
  | called c _ ih => exact (c.contextSteps _).keeps ContextsInOrder.step ih

/-! ## While the last number has no wrapper -/

/-- A number that has no wrapper unless it is the next one has none at all, or is the last one. -/
theorem ContextsInOrder.contains_eq_false {r : Registry} (h : ContextsInOrder config r)
    {ctx : ContextId} (hctx : r.wrappers.contains ctx = true → ctx = ⟨r.nextContext⟩)
    (hlast : ctx ≠ .last) : r.wrappers.contains ctx = false := by
  refine Bool.eq_false_iff.2 fun hw => ?_
  have hle := UInt32.le_iff_toNat_le.1 (h.counted ctx hw)
  rw [numberAfter_of_lt (ContextId.lt_last hlast), hctx hw] at hle
  exact Nat.not_succ_le_self _ hle

/-- Once the last number has a wrapper, it is the next one. -/
theorem ContextsInOrder.next_eq_last {r : Registry} (h : ContextsInOrder config r)
    (hl : r.wrappers.contains .last = true) : (⟨r.nextContext⟩ : ContextId) = .last := by
  have hle : 4294967295 ≤ r.nextContext.toNat := UInt32.le_iff_toNat_le.1 (h.counted .last hl)
  have hlt := r.nextContext.toNat_lt
  refine congrArg ContextId.mk (UInt32.toNat_inj.1 ?_)
  show r.nextContext.toNat = 4294967295
  omega

theorem ContextsInOrder.isTracked_eq_false {r : Registry} (h : ContextsInOrder config r)
    {ctx : ContextId} (hw : r.wrappers.contains ctx = false) : r.isTracked ctx = false := by
  refine Bool.eq_false_iff.2 fun ht => ?_
  rw [h.wrapped ctx ht] at hw
  cases hw

/-- What holds of the contexts while the last number has no wrapper. -/
structure ContextsDistinct (r : Registry) : Prop where
  /-- No two tracked contexts share a number. -/
  distinct : (r.contexts.map (·.id)).Nodup
  /-- Every tracked context has a journal. -/
  journaled : ∀ ctx, r.isTracked ctx = true → r.journals.contains ctx = true

namespace ContextsDistinct

variable {r r' : Registry}

theorem ofSameContexts (h : ContextsDistinct r) (hs : SameContexts r r') : ContextsDistinct r' where
  distinct := by rw [hs.contexts]; exact h.distinct
  journaled ctx := by rw [hs.journals, hs.isTracked]; exact h.journaled ctx

theorem track (h : ContextsDistinct r) {ctx : ContextId} (hnew : r.isTracked ctx = false)
    (mode : ExecutionMode) (sentinels : PerSlot ObjectHandle) (wrapper : WrapperRef) :
    ContextsDistinct (r.track ctx mode sentinels wrapper) where
  distinct := nodup_ids_track h.distinct hnew mode sentinels wrapper
  journaled q hq := by
    refine (OrderedMap.contains_insert_iff _ _ _ _).2 ?_
    exact ((isTracked_track r _ _ _ _ q).1 hq).imp_right (h.journaled q)

/-- No other context has the number of the one dropped, so the journal that goes is its own. -/
theorem dropContext (h : ContextsDistinct r) (d : TrackedContext) :
    ContextsDistinct (r.dropContext d) where
  distinct := h.distinct.sublist ((contexts_dropContext r d).map _)
  journaled q hq := by
    obtain ⟨e, he, rfl⟩ := (isTracked_iff _ q).1 hq
    refine (OrderedMap.contains_erase_iff _ _ _).2 ⟨?_, h.journaled _ ?_⟩
    · exact Ne.symm (key_ne_of_mem_eraseP h.distinct he)
    · exact (isTracked_iff r _).2 ⟨e, (contexts_dropContext r d).subset he, rfl⟩

theorem write (h : ContextsDistinct r) (ctx : ContextId) (j : Journal) :
    ContextsDistinct { r with journals := r.journals.insert ctx j } where
  distinct := h.distinct
  journaled q hq := (OrderedMap.contains_insert_iff _ _ _ _).2 (.inr (h.journaled q hq))

end ContextsDistinct

/-- **Every step keeps the contexts distinct**, if they are in order and the last number has no
wrapper. -/
theorem ContextsDistinct.step {r r' : Registry} (ho : ContextsInOrder config r)
    (h : r.wrappers.contains .last = false → ContextsDistinct r) (hs : ContextStep c r r')
    (hlast : r'.wrappers.contains .last = false) : ContextsDistinct r' := by
  cases hs with
  | same hs =>
    rw [hs.wrappers] at hlast
    exact (h hlast).ofSameContexts hs
  | tracked ctx mode wrapper _ _ hctx =>
    rw [← Bool.not_eq_true, contains_wrappers_track, not_or, Bool.not_eq_true] at hlast
    have hw := ho.contains_eq_false hctx hlast.1
    exact (h hlast.2).track (ho.isTracked_eq_false hw) mode _ wrapper
  | activated _ => exact ⟨(h hlast).distinct, (h hlast).journaled⟩
  | dropped _ => exact (h hlast).dropContext _
  | written s _ _ => exact (h hlast).write _ _
  | signalled _ => exact ⟨(h hlast).distinct, (h hlast).journaled⟩
  | pinned _ => exact ⟨(h hlast).distinct, (h hlast).journaled⟩
  | cleared _ => exact ⟨List.nodup_nil, fun _ ht => absurd ht Bool.false_ne_true⟩

theorem Reachable.contextsDistinct {t : Registry × φ} (h : Reachable config t)
    (hlast : t.1.wrappers.contains .last = false) : ContextsDistinct t.1 := by
  -- Both hold after every step: the one is used for the other.
  suffices ContextsInOrder config t.1 ∧
      (t.1.wrappers.contains .last = false → ContextsDistinct t.1) from this.2 hlast
  clear hlast
  induction h with
  | created w hc =>
    refine ⟨contextsInOrder_create hc, fun _ => ?_⟩
    obtain ⟨_, rfl⟩ := create_eq_ok_iff.1 hc
    exact ⟨List.nodup_nil, fun _ ht => absurd ht Bool.false_ne_true⟩
  | called c _ ih =>
    exact ContextSteps.keeps (P := fun r => ContextsInOrder config r ∧
      (r.wrappers.contains .last = false → ContextsDistinct r)) (c.contextSteps _)
      (fun hi hs => ⟨hi.1.step hs, .step hi.1 hi.2 hs⟩) ih

end Registry

end Retrace
