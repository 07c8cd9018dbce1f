/-
# Log ids

A log names an object by a 64-bit id.

| range | meaning | written |
| --- | --- | --- |
| below `2^63` | ordinary: handed out one by one, or taken from a log | `#7` |
| `2^63 + 8 c + s`, `c < 2^32`, `s < 5` | the sentinel in slot `s` of context `c` | `ctx2/global` |
| the rest | no object | `#9223372036854775813` |

So sentinel ids need no table (`asSentinel?_sentinel`), and one that decodes is the encoding of what
it decodes to (`eq_sentinel_of_asSentinel?`).

This is the layout that the data model keeps a high bit for (specification, section 3), so that the
sentinels of a context never consume ordinary ids.
-/

import Retrace.Sentinel

namespace Retrace

/-- The id by which a log names an object.  It outlives the handle: a replay, with other handles,
finds under the same id the object that takes the place of the recorded one. -/
structure LogId where
  /-- The id as a number. -/
  raw : UInt64
deriving DecidableEq

namespace LogId

/-- The least id that is not ordinary.  The range from here on is kept for sentinels, so that the
five sentinels of a context never use ordinary ids up. -/
def sentinelBase : UInt64 := 0x8000000000000000

instance : Numbered LogId where
  number i := i.raw.toNat
  number_injective {a b} h := by cases a; cases b; simpa using UInt64.toNat_inj.1 h

/-- Whether an id lies in the range kept for sentinels.  Not every id there is the id of one, as
only five of eight slot positions are in use. -/
def isSentinel (i : LogId) : Bool := sentinelBase ≤ i.raw

/-- The id of the sentinel in a slot of a context: the context number above three bits for the slot,
all above `sentinelBase`. -/
def sentinel (ctx : ContextId) (slot : SentinelSlot) : LogId :=
  ⟨sentinelBase + 8 * ctx.index.toUInt64 + slot.position.toUInt64⟩

/-- The context and slot that a sentinel id names.  Ordinary ids name none, and neither do ids whose
slot position or context number is none. -/
def asSentinel? (i : LogId) : Option (ContextId × SentinelSlot) :=
  if i.isSentinel then
    let payload := i.raw - sentinelBase
    let ctx := payload / 8
    if ctx < 0x100000000 then
      (SentinelSlot.ofPosition? (payload % 8).toNat).map fun slot => (⟨ctx.toUInt32⟩, slot)
    else none
  else none

instance : ToString LogId where
  toString i := match i.asSentinel? with
    | some (ctx, slot) => s!"{ctx}/{slot}"
    | none => s!"#{i.raw}"

/-- The ids of the five sentinels of a context, which depend on nothing but its number. -/
def sentinelsOf (ctx : ContextId) : PerSlot LogId := .ofFn (sentinel ctx)

theorem toNat_sentinelBase : sentinelBase.toNat = 9223372036854775808 := rfl

theorem isSentinel_iff (i : LogId) : i.isSentinel = true ↔ 9223372036854775808 ≤ i.raw.toNat := by
  simp [isSentinel, UInt64.le_iff_toNat_le, toNat_sentinelBase]

theorem toNat_sentinel (ctx : ContextId) (slot : SentinelSlot) :
    (sentinel ctx slot).raw.toNat = 9223372036854775808 + 8 * ctx.index.toNat + slot.position := by
  have hc := ctx.index.toNat_lt
  have hs := slot.position_lt
  have h64 : slot.position.toUInt64.toNat = slot.position := by
    simp [Nat.toUInt64]; omega
  have h8 : (8 : UInt64).toNat = 8 := rfl
  simp only [sentinel, UInt64.toNat_add, UInt64.toNat_mul, toNat_sentinelBase, h64, h8,
    UInt32.toNat_toUInt64]
  omega

theorem isSentinel_sentinel (ctx : ContextId) (slot : SentinelSlot) :
    (sentinel ctx slot).isSentinel = true := by
  rw [isSentinel_iff, toNat_sentinel]
  omega

/-- What the part of a sentinel id above `sentinelBase` holds. -/
theorem toNat_payload {i : LogId} (h : i.isSentinel = true) :
    (i.raw - sentinelBase).toNat = i.raw.toNat - 9223372036854775808 := by
  have hle : sentinelBase ≤ i.raw := by simpa [isSentinel] using h
  rw [UInt64.toNat_sub_of_le _ _ hle, toNat_sentinelBase]

theorem asSentinel?_eq_some_iff {i : LogId} {ctx : ContextId} {slot : SentinelSlot} :
    i.asSentinel? = some (ctx, slot) ↔
      i.raw.toNat = 9223372036854775808 + 8 * ctx.index.toNat + slot.position := by
  have hc := ctx.index.toNat_lt
  have hs := slot.position_lt
  have hi := i.raw.toNat_lt
  have h8 : (8 : UInt64).toNat = 8 := rfl
  have h32 : (4294967296 : UInt64).toNat = 4294967296 := rfl
  by_cases h : i.isSentinel = true
  · have hp := toNat_payload h
    have hge := (isSentinel_iff i).1 h
    simp only [asSentinel?, h, if_true]
    have hlt : (i.raw - sentinelBase) / 8 < 4294967296 ↔
        (i.raw.toNat - 9223372036854775808) / 8 < 4294967296 := by
      rw [UInt64.lt_iff_toNat_lt, UInt64.toNat_div, hp, h8, h32]
    by_cases hl : (i.raw - sentinelBase) / 8 < 4294967296
    · have hl' := hlt.1 hl
      rw [if_pos hl, Option.map_eq_some_iff]
      have hctx : ((i.raw - sentinelBase) / 8).toUInt32.toNat =
          (i.raw.toNat - 9223372036854775808) / 8 := by
        rw [UInt64.toNat_toUInt32, UInt64.toNat_div, hp, h8]
        omega
      constructor
      · rintro ⟨s, hs', he⟩
        obtain ⟨rfl, rfl⟩ := Prod.mk.inj he
        have := SentinelSlot.ofPosition?_eq_some_iff.1 hs'
        rw [UInt64.toNat_mod, hp, h8] at this
        simp only [hctx]
        omega
      · intro he
        refine ⟨slot, SentinelSlot.ofPosition?_eq_some_iff.2 ?_, ?_⟩
        · rw [UInt64.toNat_mod, hp, h8]
          omega
        · congr 1
          cases ctx
          congr 1
          rw [← UInt32.toNat_inj, hctx]
          simp only at he
          omega
    · rw [if_neg hl]
      constructor
      · simp
      · intro he
        have : ¬ (i.raw.toNat - 9223372036854775808) / 8 < 4294967296 := fun hh => hl (hlt.2 hh)
        omega
  · simp only [asSentinel?, h]
    constructor
    · simp
    · intro he
      exact absurd ((isSentinel_iff i).2 (by omega)) h

/-- A sentinel id decodes to the context and slot that it encodes, for every context number and
every slot. -/
theorem asSentinel?_sentinel (ctx : ContextId) (slot : SentinelSlot) :
    (sentinel ctx slot).asSentinel? = some (ctx, slot) :=
  asSentinel?_eq_some_iff.2 (toNat_sentinel ctx slot)

theorem sentinel_inj {c d : ContextId} {s s' : SentinelSlot} :
    sentinel c s = sentinel d s' ↔ c = d ∧ s = s' := by
  constructor
  · intro h
    have hs := asSentinel?_sentinel c s
    rw [h, asSentinel?_sentinel, Option.some.injEq, Prod.mk.injEq] at hs
    exact ⟨hs.1.symm, hs.2.symm⟩
  · rintro ⟨rfl, rfl⟩
    rfl

/-- An id that decodes is the encoding of what it decodes to, so that no two ids name one
sentinel. -/
theorem eq_sentinel_of_asSentinel? {i : LogId} {ctx : ContextId} {slot : SentinelSlot}
    (h : i.asSentinel? = some (ctx, slot)) : i = sentinel ctx slot := by
  have h1 := asSentinel?_eq_some_iff.1 h
  rw [← toNat_sentinel, UInt64.toNat_inj] at h1
  cases i
  cases hs : sentinel ctx slot
  simp_all

end LogId

end Retrace
