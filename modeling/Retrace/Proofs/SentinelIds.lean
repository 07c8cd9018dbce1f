/-
# Sentinel ids, bit by bit

A sentinel id is a word of 64 bits:

| bits | hold |
| --- | --- |
| 63 | the tag, which no ordinary id has |
| 35 … 62 | nothing |
| 3 … 34 | the number of the context |
| 0 … 2 | the position of the slot, which leaves three codes unused |

`sentinel` and `asSentinel?` reckon with these parts as numbers.  To put them together and to take them
apart by masks and shifts is the same (`sentinel_eq_packed`, `asSentinel?_eq_unpacked?`), for the parts
do not overlap.  So no pair of context and slot is lost or mistaken for another one, and an id that is
no such pair's, tagged or not, stands for none (`sentinelIdsLossless`).

The data model keeps these ids apart from all that are handed out one by one (specification, section
3); here that is said of every word, and not of the ids in use.
-/

import Mathlib.Data.Nat.Bitwise
import Retrace.LogId

namespace Retrace

namespace LogId

/-! ## Masks and shifts -/

/-- A sentinel id put together from its parts: the tag on top, and the context above the three bits
of the slot. -/
def packed (ctx : ContextId) (slot : SentinelSlot) : LogId :=
  ⟨sentinelBase ||| ctx.index.toUInt64 <<< 3 ||| slot.position.toUInt64⟩

/-- Whether an id has the tag, which is its highest bit and tells sentinel ids from ordinary
ones. -/
def hasTag (i : LogId) : Bool := i.raw &&& sentinelBase != 0

/-- An id without its tag, which is what the context and the slot are packed in. -/
def payload (i : LogId) : UInt64 := i.raw &&& ~~~sentinelBase

/-- The bits of an id in which the slot lies: the lowest three, which could tell three slots more
than there are. -/
def slotBits (i : LogId) : UInt64 := i.payload &&& 7

/-- The bits above, in which the context lies.  There are more of them than a context number has. -/
def contextBits (i : LogId) : UInt64 := i.payload >>> 3

/-- A word of 32 bits, if the number fits into one. -/
def narrowed? (w : UInt64) : Option UInt32 := if w < 0x100000000 then some w.toUInt32 else none

/-- A sentinel id taken apart: nothing without the tag, with a slot that is none, or with a context
that needs more than 32 bits. -/
def unpacked? (i : LogId) : Option (ContextId × SentinelSlot) :=
  if i.hasTag then do
    let slot ← SentinelSlot.ofPosition? i.slotBits.toNat
    let index ← narrowed? i.contextBits
    return (⟨index⟩, slot)
  else none

/-! ## The parts as numbers -/

theorem toNat_shiftedContext (ctx : ContextId) :
    (ctx.index.toUInt64 <<< 3).toNat = 8 * ctx.index.toNat := by
  have hc := ctx.index.toNat_lt
  have h3 : (3 : UInt64).toNat % 64 = 3 := rfl
  rw [UInt64.toNat_shiftLeft, UInt32.toNat_toUInt64, h3, Nat.shiftLeft_eq]
  omega

/-- Each part lies below the bits of those before it, so that the bits of all are their sum. -/
theorem toNat_packed (ctx : ContextId) (slot : SentinelSlot) :
    (packed ctx slot).raw.toNat = 9223372036854775808 + 8 * ctx.index.toNat + slot.position := by
  have hc := ctx.index.toNat_lt
  have hs := slot.position_lt
  have hslot : slot.position.toUInt64.toNat = slot.position := by
    simp [Nat.toUInt64]
    omega
  have hbase : sentinelBase.toNat = 2 ^ 63 * 1 := rfl
  have htag : 2 ^ 63 * 1 + 8 * ctx.index.toNat = 2 ^ 63 * 1 ||| 8 * ctx.index.toNat :=
    Nat.two_pow_add_eq_or_of_lt (by omega) 1
  have hbelow : 2 ^ 3 * (2 ^ 60 + ctx.index.toNat) + slot.position =
      2 ^ 3 * (2 ^ 60 + ctx.index.toNat) ||| slot.position :=
    Nat.two_pow_add_eq_or_of_lt (by omega) _
  calc (packed ctx slot).raw.toNat
      = 2 ^ 63 * 1 ||| 8 * ctx.index.toNat ||| slot.position := by
        rw [packed, UInt64.toNat_or, UInt64.toNat_or, hbase, toNat_shiftedContext,
          hslot]
    _ = 2 ^ 3 * (2 ^ 60 + ctx.index.toNat) ||| slot.position := by
        rw [← htag]
        congr 1
        omega
    _ = 9223372036854775808 + 8 * ctx.index.toNat + slot.position := by
        rw [← hbelow]
        omega

theorem hasTag_eq_isSentinel (i : LogId) : i.hasTag = i.isSentinel := by
  have hi := i.raw.toNat_lt
  have hand : (i.raw &&& sentinelBase).toNat = (i.raw.toNat.testBit 63).toNat * 2 ^ 63 := by
    rw [UInt64.toNat_and, toNat_sentinelBase]
    exact Nat.and_two_pow i.raw.toNat 63
  have hbit : i.raw.toNat.testBit 63 = decide (9223372036854775808 ≤ i.raw.toNat) := by
    rw [Nat.testBit_eq_decide_div_mod_eq, decide_eq_decide]
    omega
  rw [Bool.eq_iff_iff, isSentinel_iff, hasTag, bne_iff_ne, ne_eq, ← UInt64.toNat_inj, hand, hbit]
  by_cases h : 9223372036854775808 ≤ i.raw.toNat <;> simp [h]

theorem toNat_payload_eq (i : LogId) : i.payload.toNat = i.raw.toNat % 9223372036854775808 := by
  have hmask : (~~~sentinelBase).toNat = 2 ^ 63 - 1 := rfl
  rw [payload, UInt64.toNat_and, hmask, Nat.and_two_pow_sub_one_eq_mod]

theorem toNat_slotBits (i : LogId) : i.slotBits.toNat = i.raw.toNat % 8 := by
  have h7 : (7 : UInt64).toNat = 2 ^ 3 - 1 := rfl
  rw [slotBits, UInt64.toNat_and, toNat_payload_eq, h7, Nat.and_two_pow_sub_one_eq_mod]
  omega

theorem toNat_contextBits (i : LogId) :
    i.contextBits.toNat = i.raw.toNat % 9223372036854775808 / 8 := by
  have h3 : (3 : UInt64).toNat = 3 := rfl
  rw [contextBits, UInt64.toNat_shiftRight, toNat_payload_eq, h3, Nat.shiftRight_eq_div_pow]

theorem narrowed?_eq_some_iff {w : UInt64} {n : UInt32} :
    narrowed? w = some n ↔ w.toNat = n.toNat := by
  have hn := n.toNat_lt
  have h32 : (4294967296 : UInt64).toNat = 4294967296 := rfl
  unfold narrowed?
  split
  · rename_i hlt
    rw [UInt64.lt_iff_toNat_lt, h32] at hlt
    rw [Option.some_inj, ← UInt32.toNat_inj, UInt64.toNat_toUInt32]
    omega
  · rename_i hge
    rw [UInt64.lt_iff_toNat_lt, h32] at hge
    simp only [reduceCtorEq, false_iff]
    omega

theorem narrowed?_eq_none_iff {w : UInt64} : narrowed? w = none ↔ 4294967296 ≤ w.toNat := by
  have h32 : (4294967296 : UInt64).toNat = 4294967296 := rfl
  simp [narrowed?, UInt64.lt_iff_toNat_lt, h32]

theorem unpacked?_eq_some_iff {i : LogId} {ctx : ContextId} {slot : SentinelSlot} :
    i.unpacked? = some (ctx, slot) ↔
      i.isSentinel = true ∧ i.slotBits.toNat = slot.position ∧
        i.contextBits.toNat = ctx.index.toNat := by
  obtain ⟨index⟩ := ctx
  rw [← SentinelSlot.ofPosition?_eq_some_iff, ← narrowed?_eq_some_iff, unpacked?,
    hasTag_eq_isSentinel]
  cases i.isSentinel <;>
    cases SentinelSlot.ofPosition? i.slotBits.toNat <;>
    cases narrowed? i.contextBits <;> simp [and_comm]

/-! ## The same ids -/

theorem sentinel_eq_packed (ctx : ContextId) (slot : SentinelSlot) :
    sentinel ctx slot = packed ctx slot := by
  have h : (sentinel ctx slot).raw = (packed ctx slot).raw := by
    rw [← UInt64.toNat_inj, toNat_sentinel, toNat_packed]
  exact congrArg LogId.mk h

theorem asSentinel?_eq_unpacked? (i : LogId) : i.asSentinel? = i.unpacked? := by
  refine Option.ext fun ⟨ctx, slot⟩ => ?_
  have hc := ctx.index.toNat_lt
  have hs := slot.position_lt
  have hi := i.raw.toNat_lt
  rw [asSentinel?_eq_some_iff, unpacked?_eq_some_iff, isSentinel_iff, toNat_slotBits,
    toNat_contextBits]
  omega

/-! ## No loss -/

/-- An id stands for nothing exactly if it is no sentinel's, tagged or not. -/
theorem asSentinel?_eq_none_iff {i : LogId} :
    i.asSentinel? = none ↔ ∀ ctx slot, i ≠ sentinel ctx slot := by
  constructor
  · rintro h ctx slot rfl
    rw [asSentinel?_sentinel] at h
    cases h
  · intro h
    cases hi : i.asSentinel? with
    | none => rfl
    | some named =>
      obtain ⟨ctx, slot⟩ := named
      exact absurd (eq_sentinel_of_asSentinel? hi) (h ctx slot)

/-- A tagged id stands for nothing exactly if its slot is one of the unused codes, or its context needs
more than 32 bits. -/
theorem asSentinel?_eq_none_iff_of_isSentinel {i : LogId} (h : i.isSentinel = true) :
    i.asSentinel? = none ↔ 5 ≤ i.slotBits.toNat ∨ 4294967296 ≤ i.contextBits.toNat := by
  have hslot : SentinelSlot.ofPosition? i.slotBits.toNat = none ↔ 5 ≤ i.slotBits.toNat :=
    List.getElem?_eq_none_iff
  rw [← hslot, ← narrowed?_eq_none_iff, asSentinel?_eq_unpacked?, unpacked?, hasTag_eq_isSentinel, h]
  cases SentinelSlot.ofPosition? i.slotBits.toNat <;>
    cases narrowed? i.contextBits <;> simp

/-- Sentinel ids stand for pairs of context and slot, and no other ids do: what decoding answers is
told for every word of 64 bits. -/
structure SentinelIdsLossless : Prop where
  /-- The id of a sentinel is in the range kept for sentinels. -/
  inRange : ∀ ctx slot, (sentinel ctx slot).isSentinel = true
  /-- It stands for the context and slot whose id it is. -/
  decoded : ∀ ctx slot, (sentinel ctx slot).asSentinel? = some (ctx, slot)
  /-- An id that stands for a context and slot is theirs. -/
  encoded : ∀ (i : LogId) ctx slot, i.asSentinel? = some (ctx, slot) → i = sentinel ctx slot
  /-- Different pairs have different ids. -/
  distinct : ∀ ctx slot ctx' slot', (ctx, slot) ≠ (ctx', slot') →
    sentinel ctx slot ≠ sentinel ctx' slot'
  /-- No ordinary id is a sentinel's. -/
  notOrdinary : ∀ i : LogId, i.isSentinel = false → ∀ ctx slot, i ≠ sentinel ctx slot
  /-- An id that is no sentinel's stands for nothing, be it in the range or not. -/
  refused_iff : ∀ i : LogId, i.asSentinel? = none ↔ ∀ ctx slot, i ≠ sentinel ctx slot
  /-- In the range these are the ids with an unused code for a slot, or with too large a context. -/
  refused_iff_bits : ∀ i : LogId, i.isSentinel = true → (i.asSentinel? = none ↔
    5 ≤ i.slotBits.toNat ∨ 4294967296 ≤ i.contextBits.toNat)
  /-- The ids are put together by shifts and masks, for each slot of a context. -/
  packs : ∀ ctx slot, sentinel ctx slot = packed ctx slot ∧
    (sentinelsOf ctx).get slot = packed ctx slot
  /-- They are told by their tag, and taken apart by shifts and masks. -/
  unpacks : ∀ i : LogId, i.isSentinel = i.hasTag ∧ i.asSentinel? = i.unpacked?
  /-- The ids of a context are listed slot by slot, without repetition. -/
  listed : ∀ ctx, (sentinelsOf ctx).toList = SentinelSlot.all.map (sentinel ctx) ∧
    (sentinelsOf ctx).toList.Nodup

theorem toList_sentinelsOf (ctx : ContextId) :
    (sentinelsOf ctx).toList = SentinelSlot.all.map (sentinel ctx) := rfl

theorem nodup_sentinelsOf (ctx : ContextId) : (sentinelsOf ctx).toList.Nodup := by
  have hall : SentinelSlot.all.Nodup := by decide
  rw [toList_sentinelsOf]
  exact List.pairwise_map.2 (hall.imp fun hne he => hne (sentinel_inj.1 he).2)

/-- **Sentinel ids encode and decode without loss**, over all contexts, slots and words. -/
theorem sentinelIdsLossless : SentinelIdsLossless where
  inRange := isSentinel_sentinel
  decoded := asSentinel?_sentinel
  encoded _ _ _ := eq_sentinel_of_asSentinel?
  distinct ctx slot ctx' slot' hne he := by
    obtain ⟨rfl, rfl⟩ := sentinel_inj.1 he
    exact hne rfl
  notOrdinary i hi ctx slot he := by
    rw [he, isSentinel_sentinel] at hi
    cases hi
  refused_iff _ := asSentinel?_eq_none_iff
  refused_iff_bits _ := asSentinel?_eq_none_iff_of_isSentinel
  packs ctx slot := ⟨sentinel_eq_packed ctx slot, by
    rw [sentinelsOf, PerSlot.get_ofFn, sentinel_eq_packed]⟩
  unpacks i := ⟨(hasTag_eq_isSentinel i).symm, asSentinel?_eq_unpacked? i⟩
  listed ctx := ⟨toList_sentinelsOf ctx, nodup_sentinelsOf ctx⟩

/-- The last slot of the last context has an id; the words around it are no sentinel's. -/
example : (sentinel ⟨4294967295⟩ .falseValue).raw = 0x80000007fffffffc ∧
    asSentinel? ⟨0x80000007fffffffd⟩ = none ∧ asSentinel? ⟨0x8000000800000000⟩ = none := by
  decide +kernel

end LogId

end Retrace
