/-
# Pin sets over time

A fresh pin set, and the calls made on it since, each of which leaves an event that tells what it did:

| event | left by | and the count of the handle is then |
| --- | --- | --- |
| `pinned` | `pin` | one more |
| `unpinned` with what remains | `unpin` of a pinned handle | one less |
| `unpinned` with nothing | `unpin` of any other | zero, as before |
| `released` | `release` | zero |
| `cleared` | clearing the set | zero, for all handles |

So a handle counts the pins on it that have not been given back since they were last dropped all at
once (`count_after_add`).  What carries the induction is that no count is kept that has come down to
zero (`Positive`): an entry left at zero would be taken for a pin and given back.

This is what the specification means by an explicit count of strong references (section 3): pins and
releases may come in any order, and from anyone who holds the set.
-/

import Mathlib.Data.List.DropRight
import Retrace.Proofs.OrderedMap

namespace Retrace

namespace PinSet

variable {α : Type} [Numbered α] {s : PinSet α}

/-! ## What a call does to counts -/

/-- Whether every count that is kept is a positive one, so that to have a count is to be pinned. -/
def Positive (s : PinSet α) : Prop := ∀ h n, s.counts.get? h = some n → 0 < n

theorem Positive.contains_iff (hp : s.Positive) (h : α) : s.contains h = true ↔ 0 < s.count h := by
  rw [contains, OrderedMap.contains, count]
  cases hget : s.counts.get? h with
  | none => simp
  | some n => simpa using hp h n hget

theorem unpin_of_get? {h : α} {n : Nat} (hn : s.counts.get? h = some n) :
    s.unpin h =
      (some (n - 1), ⟨if n ≤ 1 then s.counts.erase h else s.counts.insert h (n - 1)⟩) := by
  rw [unpin, hn]

theorem unpin_of_not_contains {h : α} (hc : s.contains h = false) : s.unpin h = (none, s) := by
  rw [unpin, s.counts.get?_eq_none_iff.2 hc]

theorem release_of_not_contains {h : α} (hc : s.contains h = false) :
    s.release h = (false, s) := by
  rw [release, OrderedMap.erase_of_not_contains hc, hc]

/-- Unpinning answers what remains exactly for a pinned handle, and nothing for any other. -/
theorem unpin_eq_none_iff (s : PinSet α) (h : α) :
    (s.unpin h).1 = none ↔ s.contains h = false := by
  rw [contains, ← OrderedMap.get?_eq_none_iff, unpin]
  cases s.counts.get? h <;> simp

theorem count_unpin (s : PinSet α) (h q : α) :
    (s.unpin h).2.count q = s.count q - if number h = number q then 1 else 0 := by
  unfold unpin
  cases hget : s.counts.get? h with
  | none =>
    by_cases he : number h = number q
    · obtain rfl := number_inj.1 he
      simp [count, hget]
    · simp [he]
  | some n =>
    by_cases he : number h = number q
    · obtain rfl := number_inj.1 he
      by_cases hn : n ≤ 1
      · simp [count, hget, hn, OrderedMap.get?_erase_self]
      · simp [count, hget, hn, OrderedMap.get?_insert_self]
    · have hne : h ≠ q := fun hh => he (number_inj.2 hh)
      by_cases hn : n ≤ 1
      · simp [count, hn, he, OrderedMap.get?_erase_of_ne _ hne]
      · simp [count, hn, he, OrderedMap.get?_insert_of_ne _ _ hne]

theorem positive_empty : (empty : PinSet α).Positive := fun _ _ h => nomatch h

theorem Positive.pin (hp : s.Positive) (h : α) : (s.pin h).2.Positive := by
  intro q n hq
  rcases (OrderedMap.get?_insert_eq_some_iff _).1 hq with ⟨_, rfl⟩ | ⟨_, hq⟩
  · exact Nat.succ_pos _
  · exact hp q n hq

theorem Positive.erase (hp : s.Positive) (h : α) : Positive ⟨s.counts.erase h⟩ := by
  intro q n hq
  exact hp q n ((OrderedMap.get?_filter_eq_some_iff _).1 hq).1

theorem Positive.unpin (hp : s.Positive) (h : α) : (s.unpin h).2.Positive := by
  unfold PinSet.unpin
  cases s.counts.get? h with
  | none => exact hp
  | some n =>
    by_cases hn : n ≤ 1
    · simpa only [if_pos hn] using hp.erase h
    · intro q m hq
      simp only [if_neg hn] at hq
      rcases (OrderedMap.get?_insert_eq_some_iff _).1 hq with ⟨_, rfl⟩ | ⟨_, hq⟩
      · omega
      · exact hp q m hq

/-! ## Calls and events -/

/-- A call on a pin set, of those that change it. -/
inductive Call (α : Type) where
  /-- Takes one more pin on a handle. -/
  | pin (h : α)
  /-- Gives one pin on a handle back. -/
  | unpin (h : α)
  /-- Drops all pins on a handle. -/
  | release (h : α)
  /-- Drops all pins. -/
  | clear

/-- What a call did, by its answer, so that a history of pins can be told without looking at the
set. -/
inductive Event (α : Type) where
  /-- A pin was taken, and the handle has this count now. -/
  | pinned (h : α) (count : Nat)
  /-- A pin was given back and this count remains, or there was none. -/
  | unpinned (h : α) (remaining : Option Nat)
  /-- All pins on a handle were dropped, if it had any. -/
  | released (h : α) (held : Bool)
  /-- All pins were dropped. -/
  | cleared

/-- What a call does, and the pin set afterwards. -/
def Call.run : Call α → PinSet α → Event α × PinSet α
  | pin h, s => (.pinned h (s.pin h).1, (s.pin h).2)
  | unpin h, s => (.unpinned h (s.unpin h).1, (s.unpin h).2)
  | release h, s => (.released h (s.release h).1, (s.release h).2)
  | clear, _ => (.cleared, .empty)

namespace Event

/-- Whether an event takes one more pin on a handle. -/
def takes (h : α) : Event α → Bool
  | pinned q _ => number q = number h
  | _ => false

/-- Whether it gives a pin on a handle back.  A call that found none gave none back. -/
def gives (h : α) : Event α → Bool
  | unpinned q (some _) => number q = number h
  | _ => false

/-- Whether it drops all pins on a handle, should there be any. -/
def drops (h : α) : Event α → Bool
  | released q _ => number q = number h
  | cleared => true
  | _ => false

end Event

theorem Positive.run (hp : s.Positive) (c : Call α) : (c.run s).2.Positive := by
  cases c with
  | pin h => exact hp.pin h
  | unpin h => exact hp.unpin h
  | release h => exact hp.erase h
  | clear => exact positive_empty

/-- A handle whose pins are dropped counts nothing, however many it had. -/
theorem count_run_of_drops {c : Call α} {h : α} (hd : (c.run s).1.drops h = true) :
    (c.run s).2.count h = 0 := by
  cases c with
  | pin q => cases hd
  | unpin q => cases hd
  | release q =>
    obtain rfl := number_inj.1 (of_decide_eq_true hd)
    exact s.count_release_self q
  | clear => rfl

/-- **A call that does not drop its pins** changes the count of a handle by the pin that it takes or
gives back. -/
theorem Positive.count_run_add (hp : s.Positive) {c : Call α} {h : α}
    (hd : (c.run s).1.drops h = false) :
    (c.run s).2.count h + (if (c.run s).1.gives h then 1 else 0) =
      s.count h + if (c.run s).1.takes h then 1 else 0 := by
  cases c with
  | pin q =>
    have hcount := s.count_pin q h
    by_cases he : number q = number h <;> simp [Call.run, Event.gives, Event.takes, hcount, he]
  | unpin q =>
    have hcount := s.count_unpin q h
    cases hc : s.contains q with
    | false =>
      rw [Call.run, unpin_of_not_contains hc]
      rfl
    | true =>
      obtain ⟨n, hn⟩ := Option.ne_none_iff_exists'.1
        (mt (s.unpin_eq_none_iff q).1 (by simp [hc]))
      have hpos := (hp.contains_iff q).1 hc
      by_cases he : number q = number h
      · obtain rfl := number_inj.1 he
        simp only [Call.run, Event.gives, Event.takes, hcount, hn, decide_true, if_true,
          Bool.false_eq_true, if_false]
        omega
      · simp [Call.run, Event.gives, Event.takes, hcount, hn, he]
  | release q =>
    have hne : q ≠ h := fun he => of_decide_eq_false hd (number_inj.2 he)
    exact s.count_release_of_ne hne
  | clear => cases hd

/-! ## Histories -/

/-- What the calls on a fresh pin set did, oldest first, and the pin set after them.  Calls that
find nothing to do are among them. -/
def runAll (calls : List (Call α)) : List (Event α) × PinSet α :=
  calls.foldl (fun t c => (t.1 ++ [(c.run t.2).1], (c.run t.2).2)) ([], .empty)

/-- What the calls on a fresh pin set did, oldest first. -/
def events (calls : List (Call α)) : List (Event α) := (runAll calls).1

/-- The pin set after calls on a fresh one. -/
def after (calls : List (Call α)) : PinSet α := (runAll calls).2

theorem runAll_concat (calls : List (Call α)) (c : Call α) :
    runAll (calls ++ [c]) =
      (events calls ++ [(c.run (after calls)).1], (c.run (after calls)).2) := by
  rw [runAll, List.foldl_append]
  rfl

theorem events_concat (calls : List (Call α)) (c : Call α) :
    events (calls ++ [c]) = events calls ++ [(c.run (after calls)).1] := by
  rw [events, runAll_concat]

theorem after_concat (calls : List (Call α)) (c : Call α) :
    after (calls ++ [c]) = (c.run (after calls)).2 := by
  rw [after, runAll_concat]

theorem length_events (calls : List (Call α)) : (events calls).length = calls.length := by
  induction calls using List.reverseRecOn with
  | nil => rfl
  | append_singleton calls c ih => rw [events_concat, List.length_append, List.length_append, ih]; rfl

/-- What was done since the pins on a handle were last dropped all at once, be it for this handle or
for all. -/
def sinceDropped (h : α) (events : List (Event α)) : List (Event α) :=
  events.rtakeWhile fun e => !e.drops h

theorem sinceDropped_of_drops {h : α} {e : Event α} (he : e.drops h = true)
    (events : List (Event α)) : sinceDropped h (events ++ [e]) = [] :=
  List.rtakeWhile_concat_neg _ _ _ (by simp [he])

theorem sinceDropped_of_not_drops {h : α} {e : Event α} (he : e.drops h = false)
    (events : List (Event α)) : sinceDropped h (events ++ [e]) = sinceDropped h events ++ [e] :=
  List.rtakeWhile_concat_pos _ _ _ (by simp [he])

/-- No count is ever kept at zero, after whatever calls on a fresh pin set. -/
theorem positive_after (calls : List (Call α)) : (after calls).Positive := by
  induction calls using List.reverseRecOn with
  | nil => exact positive_empty
  | append_singleton calls c ih =>
    rw [after_concat]
    exact ih.run c

/-- **A handle counts the pins taken on it less those given back**, since they were last dropped all
at once. -/
theorem count_after_add (calls : List (Call α)) (h : α) :
    (after calls).count h + (sinceDropped h (events calls)).countP (Event.gives h) =
      (sinceDropped h (events calls)).countP (Event.takes h) := by
  induction calls using List.reverseRecOn with
  | nil => rfl
  | append_singleton calls c ih =>
    rw [events_concat, after_concat]
    cases hd : ((c.run (after calls)).1).drops h with
    | true =>
      rw [sinceDropped_of_drops hd, count_run_of_drops hd]
      rfl
    | false =>
      have hcall := (positive_after calls).count_run_add hd
      rw [sinceDropped_of_not_drops hd, List.countP_append, List.countP_append,
        List.countP_singleton, List.countP_singleton]
      omega

/-- No handle counts more than there were calls, since each adds one at most. -/
theorem count_after_le (calls : List (Call α)) (h : α) : (after calls).count h ≤ calls.length :=
  calc (after calls).count h
      ≤ (sinceDropped h (events calls)).countP (Event.takes h) := by
        rw [← count_after_add]
        exact Nat.le_add_right _ _
    _ ≤ (sinceDropped h (events calls)).length := List.countP_le_length
    _ ≤ (events calls).length := (List.rtakeWhile_suffix _ _).length_le
    _ = calls.length := length_events calls

end PinSet

end Retrace
