/-
# Counts in words

`PinSet` counts without bound.  Here the counts are words of 64 bits, and a call that would take one
below zero or beyond the largest word yields nothing:

| call | yields nothing if |
| --- | --- |
| `pin` | the count is the largest word |
| `unpin` | the count is zero, though the handle has one |
| any other | never |

No history comes to the second (`call?_unpin_of_run?`).  It comes to the first exactly when it takes
more pins on a handle than a word can count, for which it has to be that long; until then every call
answers as on the unbounded counts (`run?_iff`).  So what holds of these holds of words
(`faithful`).

The specification speaks of counts (section 3), and leaves open what they are counted in.
-/

import Mathlib.Algebra.Group.Nat.Defs
import Retrace.Proofs.PinSet.History

namespace Retrace

namespace PinSet

variable {α : Type} [Numbered α]

/-- Counted references to handles, with words of 64 bits for counts, which can neither go below zero
nor beyond the largest word. -/
structure Words (α : Type) [Numbered α] where
  /-- The count of every pinned handle. -/
  counts : OrderedMap α UInt64

namespace Words

/-- The words that hold nothing. -/
def empty : Words α := ⟨.empty⟩

/-- What a call does, and the words afterwards; nothing if a count would leave its range, at either
end. -/
def call? : Call α → Words α → Option (Event α × Words α)
  | .pin h, w =>
    let n := (w.counts.get? h).getD 0
    if n = 0xffffffffffffffff then none
    else some (.pinned h (n + 1).toNat, ⟨w.counts.insert h (n + 1)⟩)
  | .unpin h, w =>
    match w.counts.get? h with
    | none => some (.unpinned h none, w)
    | some n =>
      if n = 0 then none
      else some (.unpinned h (some (n - 1).toNat),
        ⟨if n - 1 = 0 then w.counts.erase h else w.counts.insert h (n - 1)⟩)
  | .release h, w => some (.released h (w.counts.contains h), ⟨w.counts.erase h⟩)
  | .clear, _ => some (.cleared, .empty)

/-- What the calls on fresh words did, oldest first, and the words after them. -/
def run? (calls : List (Call α)) : Option (List (Event α) × Words α) :=
  calls.foldlM (fun t c => (call? c t.2).map fun r => (t.1 ++ [r.1], r.2)) ([], .empty)

/-- Whether words hold the counts of a pin set: the same handles are there, each with the word of
its count. -/
def Holds (w : Words α) (s : PinSet α) : Prop :=
  ∀ h, (w.counts.get? h).map UInt64.toNat = s.counts.get? h

variable {w : Words α} {s : PinSet α}

theorem holds_empty : (empty : Words α).Holds .empty := fun _ => rfl

theorem Holds.toNat_getD (hw : w.Holds s) (h : α) :
    ((w.counts.get? h).getD 0).toNat = s.count h := by
  rw [count, ← hw h]
  cases w.counts.get? h <;> rfl

theorem Holds.count_lt (hw : w.Holds s) (h : α) : s.count h < 2 ^ 64 := by
  rw [← hw.toNat_getD h]
  exact UInt64.toNat_lt _

theorem Holds.insert (hw : w.Holds s) (h : α) {n : UInt64} {m : Nat} (hn : n.toNat = m) :
    Holds ⟨w.counts.insert h n⟩ ⟨s.counts.insert h m⟩ := by
  intro q
  rw [OrderedMap.get?_insert, OrderedMap.get?_insert]
  split
  · rw [Option.map_some, hn]
  · exact hw q

theorem Holds.erase (hw : w.Holds s) (h : α) : Holds ⟨w.counts.erase h⟩ ⟨s.counts.erase h⟩ := by
  intro q
  rw [OrderedMap.get?_erase, OrderedMap.get?_erase]
  split
  · rfl
  · exact hw q

theorem Holds.contains (hw : w.Holds s) (h : α) : w.counts.contains h = s.contains h := by
  rw [PinSet.contains, OrderedMap.contains, OrderedMap.contains, ← hw h, Option.isSome_map]

/-! ## One call -/

/-- A word can be pinned once more unless it is the largest. -/
theorem Holds.pin (hw : w.Holds s) (h : α) :
    (∃ w', call? (.pin h) w = some (((Call.pin h).run s).1, w') ∧ w'.Holds (s.pin h).2) ∨
      call? (.pin h) w = none ∧ (s.pin h).2.count h = 2 ^ 64 := by
  have hn := hw.toNat_getD h
  have hmax : (0xffffffffffffffff : UInt64).toNat + 1 = 2 ^ 64 := rfl
  by_cases hfull : (w.counts.get? h).getD 0 = 0xffffffffffffffff
  · refine .inr ⟨if_pos hfull, ?_⟩
    rw [count_pin, if_pos rfl, ← hn, hfull]
    exact hmax
  · have hlt : s.count h + 1 < 2 ^ 64 := by
      refine Nat.lt_of_le_of_ne (hw.count_lt h) fun he => hfull (UInt64.toNat_inj.1 ?_)
      rw [hn]
      exact Nat.succ.inj (he.trans hmax.symm)
    have hadd : ((w.counts.get? h).getD 0 + 1).toNat = s.count h + 1 := by
      rw [UInt64.toNat_add, hn, UInt64.toNat_one]
      exact Nat.mod_eq_of_lt hlt
    refine .inl ⟨_, (if_neg hfull).trans ?_, hw.insert h hadd⟩
    rw [hadd]
    rfl

theorem toNat_sub_one {n : UInt64} (h : 0 < n.toNat) : (n - 1).toNat = n.toNat - 1 := by
  have hone : (1 : UInt64) ≤ n := by
    rw [UInt64.le_iff_toNat_le, UInt64.toNat_one]
    exact h
  rw [UInt64.toNat_sub_of_le _ _ hone, UInt64.toNat_one]

theorem sub_one_eq_zero_iff {n : UInt64} (h : 0 < n.toNat) : n - 1 = 0 ↔ n.toNat ≤ 1 := by
  rw [← UInt64.toNat_inj, toNat_sub_one h, UInt64.toNat_zero]
  omega

/-- A count that is kept is positive, so that one can be taken off it. -/
theorem Holds.unpin (hw : w.Holds s) (hp : s.Positive) (h : α) :
    ∃ w', call? (.unpin h) w = some (((Call.unpin h).run s).1, w') ∧ w'.Holds (s.unpin h).2 := by
  have hget := hw h
  cases hn : w.counts.get? h with
  | none =>
    rw [hn, Option.map_none] at hget
    have hs : s.unpin h = (none, s) := unpin_of_not_contains (s.counts.get?_eq_none_iff.1 hget.symm)
    refine ⟨w, ?_, by rwa [hs]⟩
    rw [Call.run, hs, call?, hn]
  | some n =>
    rw [hn, Option.map_some] at hget
    have hpos : 0 < n.toNat := hp h _ hget.symm
    have hne : n ≠ 0 := fun he => by simp [he] at hpos
    have hs := unpin_of_get? hget.symm
    refine ⟨⟨if n - 1 = 0 then w.counts.erase h else w.counts.insert h (n - 1)⟩, ?_, ?_⟩
    · rw [Call.run, hs, call?, hn]
      simp only [if_neg hne, toNat_sub_one hpos]
    · rw [hs]
      by_cases hlast : n.toNat ≤ 1
      · simp only [if_pos hlast, if_pos ((sub_one_eq_zero_iff hpos).2 hlast)]
        exact hw.erase h
      · simp only [if_neg hlast, if_neg (mt (sub_one_eq_zero_iff hpos).1 hlast)]
        exact hw.insert h (toNat_sub_one hpos)

/-- **A call on words** does what it does without bound, or would count beyond the largest word. -/
theorem Holds.call?_cases (hw : w.Holds s) (hp : s.Positive) (c : Call α) :
    (∃ w', call? c w = some ((c.run s).1, w') ∧ w'.Holds (c.run s).2) ∨
      call? c w = none ∧ ∃ h, (c.run s).2.count h = 2 ^ 64 := by
  cases c with
  | pin h => exact (hw.pin h).imp_right fun hfull => ⟨hfull.1, h, hfull.2⟩
  | unpin h => exact .inl (hw.unpin hp h)
  | release h =>
    refine .inl ⟨⟨w.counts.erase h⟩, ?_, hw.erase h⟩
    rw [call?, hw.contains]
    rfl
  | clear => exact .inl ⟨.empty, rfl, holds_empty⟩

/-! ## Histories -/

theorem run?_concat (calls : List (Call α)) (c : Call α) :
    run? (calls ++ [c]) =
      (run? calls).bind fun t => (call? c t.2).map fun r => (t.1 ++ [r.1], r.2) := by
  rw [run?, List.foldlM_append]
  simp only [List.foldlM_cons, List.foldlM_nil, bind_pure]
  rfl

/-- Whether no handle ever counts more than the largest word, from the first call to the last, as
the pin set without bound counts. -/
def Fits (calls : List (Call α)) : Prop := ∀ p, p <+: calls → ∀ h, (after p).count h < 2 ^ 64

theorem fits_concat_iff (calls : List (Call α)) (c : Call α) :
    Fits (calls ++ [c]) ↔ Fits calls ∧ ∀ h, (after (calls ++ [c])).count h < 2 ^ 64 := by
  constructor
  · exact fun hf => ⟨fun p hp => hf p (hp.trans (List.prefix_append _ _)),
      hf _ (List.prefix_refl _)⟩
  · rintro ⟨hf, hlast⟩ p hp
    rcases List.prefix_concat_iff.1 hp with rfl | hp
    · exact hlast
    · exact hf p hp

theorem fits_of_length_lt {calls : List (Call α)} (h : calls.length < 2 ^ 64) : Fits calls :=
  fun p hp q => Nat.lt_of_le_of_lt (Nat.le_trans (count_after_le p q) hp.length_le) h

/-- The calls of a history go well on words if the counts fit, and one of them yields nothing if they
do not. -/
theorem run?_cases (calls : List (Call α)) :
    (∃ w, run? calls = some (events calls, w) ∧ w.Holds (after calls) ∧ Fits calls) ∨
      run? calls = none ∧ ¬ Fits calls := by
  induction calls using List.reverseRecOn with
  | nil =>
    refine .inl ⟨.empty, rfl, holds_empty, fits_of_length_lt ?_⟩
    simp
  | append_singleton calls c ih =>
    rw [run?_concat, events_concat, fits_concat_iff, after_concat]
    rcases ih with ⟨w, hrun, hw, hf⟩ | ⟨hrun, hf⟩
    · rw [hrun, Option.bind_some]
      rcases hw.call?_cases (positive_after calls) c with ⟨w', hc, hw'⟩ | ⟨hc, h, hcount⟩
      · exact .inl ⟨w', by rw [hc]; rfl, hw', hf, hw'.count_lt⟩
      · exact .inr ⟨by rw [hc]; rfl, fun hfits => Nat.ne_of_lt (hfits.2 h) hcount⟩
    · exact .inr ⟨by rw [hrun]; rfl, fun hfits => hf hfits.1⟩

/-- **On words the calls of a history do what they do without bound**, exactly as long as the counts
fit. -/
theorem run?_iff (calls : List (Call α)) :
    (∃ w, run? calls = some (events calls, w) ∧ w.Holds (after calls)) ↔ Fits calls := by
  rcases run?_cases calls with ⟨w, hrun, hw, hf⟩ | ⟨hrun, hf⟩
  · exact ⟨fun _ => hf, fun _ => ⟨w, hrun, hw⟩⟩
  · refine ⟨?_, fun h => absurd h hf⟩
    rintro ⟨w, hsome, _⟩
    rw [hrun] at hsome
    cases hsome

/-- **No history comes to take one off zero**, for a word that has come down to zero is not kept. -/
theorem call?_unpin_of_run? {calls : List (Call α)} {t : List (Event α) × Words α}
    (ht : run? calls = some t) (h : α) : (call? (.unpin h) t.2).isSome = true := by
  rcases run?_cases calls with ⟨w, hrun, hw, _⟩ | ⟨hrun, _⟩
  · rw [hrun, Option.some_inj] at ht
    subst ht
    obtain ⟨w', hc, _⟩ := hw.unpin (positive_after calls) h
    rw [hc, Option.isSome_some]
  · rw [hrun] at ht
    cases ht

end Words

/-! ## A faithful multiset -/

/-- A pin set is a multiset of handles, after whatever calls on a fresh one: told by the answers of
its calls, by what it lists, and by the words that hold it. -/
structure Faithful (calls : List (Call α)) : Prop where
  /-- A handle counts the pins taken on it less those given back, since they were last dropped all at
  once; unpinning gives one back if it answers what remains. -/
  counted : ∀ h, (after calls).count h +
      (sinceDropped h (events calls)).countP (Event.gives h) =
    (sinceDropped h (events calls)).countP (Event.takes h)
  /-- No count is kept at zero. -/
  stored : ∀ e ∈ (after calls).counts.entries, 0 < e.2
  /-- A handle is pinned exactly if it counts something. -/
  contains_iff : ∀ h, (after calls).contains h = true ↔ 0 < (after calls).count h
  /-- Unpinning fails exactly on a handle that is not pinned. -/
  unpin_fails_iff : ∀ h, ((after calls).unpin h).1 = none ↔ (after calls).contains h = false
  /-- So does releasing. -/
  release_fails_iff : ∀ h, ((after calls).release h).1 = false ↔ (after calls).contains h = false
  /-- A call that fails changes nothing. -/
  unchanged : ∀ h, (after calls).contains h = false →
    ((after calls).unpin h).2 = after calls ∧ ((after calls).release h).2 = after calls
  /-- Listed are the handles that count something. -/
  listed_iff : ∀ h, h ∈ (after calls).handles ↔ 0 < (after calls).count h
  /-- They come in strictly ascending order. -/
  ascending : (after calls).handles.Pairwise fun a b => number a < number b
  /-- The size is their number. -/
  size_eq : (after calls).size = (after calls).handles.length
  /-- Words of 64 bits hold the same counts after the same answers, exactly as long as no handle has
  more pins than a word can count. -/
  words_iff : (∃ w, Words.run? calls = some (events calls, w) ∧ w.Holds (after calls)) ↔
    Words.Fits calls
  /-- No handle counts more than there were calls. -/
  bounded : ∀ h, (after calls).count h ≤ calls.length
  /-- In words, to give a pin back never takes one off zero. -/
  noUnderflow : ∀ t, Words.run? calls = some t → ∀ h,
    (Words.call? (.unpin h) t.2).isSome = true

/-- **A pin set is a faithful multiset over any history**, whichever of its calls found nothing to
do. -/
theorem faithful (calls : List (Call α)) : Faithful calls where
  counted := count_after_add calls
  stored e he := positive_after calls e.1 e.2 ((OrderedMap.get?_eq_some_iff_mem _).2 he)
  contains_iff := (positive_after calls).contains_iff
  unpin_fails_iff := unpin_eq_none_iff _
  release_fails_iff _ := Iff.rfl
  unchanged h hc := by
    rw [unpin_of_not_contains hc, release_of_not_contains hc]
    exact ⟨rfl, rfl⟩
  listed_iff h := (mem_handles_iff _).trans ((positive_after calls).contains_iff h)
  ascending := OrderedMap.pairwise_keys _
  size_eq := (List.length_map _).symm
  words_iff := Words.run?_iff calls
  bounded := count_after_le calls
  noUnderflow _ ht := Words.call?_unpin_of_run? ht

/-- Two pins, of which one is given back, count one; what is given back in excess is not owed later. -/
example : (after [.pin 7, .pin 7, .unpin 7, .pin 3] : PinSet UInt32).counts.entries = [(3, 1), (7, 1)] ∧
    (after [.unpin 3, .pin 3] : PinSet UInt32).count 3 = 1 := by decide +kernel

end PinSet

end Retrace
