/-
# The write that starts closest

A write that lands is told by its buffer and by where it ended.  The write taken out is found in one
pass over the writes in flight, oldest first, which keeps the best write so far and its place:

| the write met | the one kept |
| --- | --- |
| goes to another buffer, or starts after the position | stays |
| starts after the one kept starts | is given up for it |
| starts with it, or before it | stays |

So among several that start closest the oldest is kept (`keeps_closest?`), and what is erased by its
place is that very write.  Taking the largest start, and the first write that has it, comes to the
same (`completeWrite_eq_onePass`).

The rule is that of *complete async write* (specification, section 4.2), and the pass is how it is
carried out.
-/

import Mathlib.Data.List.Induction
import Retrace.Proofs.Journal.AsyncWrites

namespace Retrace

/-- Whether a write may be the one into a buffer that ended at a position. -/
def AsyncWrite.MayEndAt (w : AsyncWrite) (buffer : ObjectHandle) (final : UInt64) : Prop :=
  w.buffer = buffer ∧ w.start ≤ final

instance (w : AsyncWrite) (buffer : ObjectHandle) (final : UInt64) :
    Decidable (w.MayEndAt buffer final) :=
  inferInstanceAs (Decidable (_ ∧ _))

namespace Journal

variable {buffer : ObjectHandle} {final : UInt64} {w : AsyncWrite}
  {before after seen : List AsyncWrite}

/-- Whether of all writes that may have ended at a position one starts closest to it, and is the
oldest of those that start there. -/
structure Closest (buffer : ObjectHandle) (final : UInt64) (before : List AsyncWrite)
    (w : AsyncWrite) (after : List AsyncWrite) : Prop where
  /-- It may have ended there. -/
  mayEnd : w.MayEndAt buffer final
  /-- Those scheduled before it start before it. -/
  older : ∀ v ∈ before, v.MayEndAt buffer final → v.start < w.start
  /-- Those scheduled after it do not start after it. -/
  younger : ∀ v ∈ after, v.MayEndAt buffer final → v.start ≤ w.start

/-! ## One pass over the writes in flight -/

/-- The better of a write kept and the next one, each with its place: the next one only if it may
have ended there and starts after the one kept. -/
def closer (buffer : ObjectHandle) (final : UInt64) (best : Option (AsyncWrite × Nat))
    (next : AsyncWrite × Nat) : Option (AsyncWrite × Nat) :=
  if next.1.MayEndAt buffer final ∧ ∀ b ∈ best, b.1.start < next.1.start then some next else best

/-- The write that starts closest, and its place, found in one pass over the writes that have not
landed. -/
def closest? (buffer : ObjectHandle) (final : UInt64) (pending : List AsyncWrite) :
    Option (AsyncWrite × Nat) :=
  pending.zipIdx.foldl (closer buffer final) none

/-- What is kept of the writes seen: the one that starts closest, and its place among them. -/
def Keeps (buffer : ObjectHandle) (final : UInt64) (seen : List AsyncWrite) :
    Option (AsyncWrite × Nat) → Prop
  | none => ∀ v ∈ seen, ¬ v.MayEndAt buffer final
  | some (w, place) => ∃ before after, seen = before ++ w :: after ∧ before.length = place ∧
      Closest buffer final before w after

/-- A write that is not better does not change what is kept. -/
theorem Keeps.of_worse {best : Option (AsyncWrite × Nat)} (h : Keeps buffer final seen best)
    (hw : w.MayEndAt buffer final → ∃ b ∈ best, w.start ≤ b.1.start) :
    Keeps buffer final (seen ++ [w]) best := by
  match best with
  | none =>
    intro v hv
    rcases List.mem_append.1 hv with hv | hv
    · exact h v hv
    · rw [List.mem_singleton.1 hv]
      exact fun hm => by simpa using hw hm
  | some (b, place) =>
    obtain ⟨before, after, rfl, hplace, hb⟩ := h
    refine ⟨before, after ++ [w], by simp, hplace, hb.mayEnd, hb.older, fun v hv hm => ?_⟩
    rcases List.mem_append.1 hv with hv | hv
    · exact hb.younger v hv hm
    · rw [List.mem_singleton.1 hv] at hm ⊢
      simpa using hw hm

/-- A better write is kept, and starts after all others that may have ended there. -/
theorem Keeps.of_better {best : Option (AsyncWrite × Nat)} (h : Keeps buffer final seen best)
    (hw : w.MayEndAt buffer final) (hlt : ∀ b ∈ best, b.1.start < w.start) :
    Keeps buffer final (seen ++ [w]) (some (w, seen.length)) := by
  refine ⟨seen, [], rfl, rfl, hw, fun v hv hm => ?_, fun _ hv => absurd hv List.not_mem_nil⟩
  match best with
  | none => exact absurd hm (h v hv)
  | some (b, place) =>
    have hb : b.start < w.start := hlt _ rfl
    obtain ⟨before, after, rfl, _, hclosest⟩ := h
    rcases List.mem_append.1 hv with hv | hv
    · exact UInt64.lt_trans (hclosest.older v hv hm) hb
    · rcases List.mem_cons.1 hv with rfl | hv
      · exact hb
      · exact UInt64.lt_of_le_of_lt (hclosest.younger v hv hm) hb

/-- One step of the pass. -/
theorem Keeps.step {best : Option (AsyncWrite × Nat)} (h : Keeps buffer final seen best)
    (w : AsyncWrite) :
    Keeps buffer final (seen ++ [w]) (closer buffer final best (w, seen.length)) := by
  unfold closer
  split
  · rename_i hbetter
    exact h.of_better hbetter.1 hbetter.2
  · rename_i hnot
    refine h.of_worse fun hm => ?_
    rw [not_and] at hnot
    simpa using hnot hm

/-- **The pass keeps the write that starts closest**, and the oldest of such. -/
theorem keeps_closest? (buffer : ObjectHandle) (final : UInt64) (pending : List AsyncWrite) :
    Keeps buffer final pending (closest? buffer final pending) := by
  -- The invariant speaks of what has been seen, so the induction is on the list from its end.
  induction pending using List.reverseRecOn with
  | nil => exact fun _ hv => absurd hv List.not_mem_nil
  | append_singleton seen w ih =>
    have hlast : closest? buffer final (seen ++ [w]) =
        closer buffer final (closest? buffer final seen) (w, seen.length) := by
      simp [closest?, List.zipIdx_append]
    rw [hlast]
    exact ih.step w

/-! ## The write taken out -/

/-- The write that starts closest is taken out from between the others. -/
theorem completeWrite_of_closest {j : Journal} (hj : j.pending = before ++ w :: after)
    (hw : Closest buffer final before w after) :
    completeWrite buffer final j =
      .ok ⟨buffer, w.start, final⟩ { j with pending := before ++ after } := by
  obtain ⟨rfl, hle⟩ := hw.mayEnd
  have hnot : w ∉ before := fun hmem => UInt64.lt_irrefl _ (hw.older w hmem hw.mayEnd)
  have herase : j.pending.erase w = before ++ after := by
    rw [hj, List.erase_append_right _ hnot, List.erase_cons_head]
  rw [← herase]
  refine completeWrite_eq_of_closest (by simp [hj]) hle fun v hv hb hs => ?_
  rw [hj] at hv
  rcases List.mem_append.1 hv with hv | hv
  · exact UInt64.le_of_lt (hw.older v hv ⟨hb, hs⟩)
  · rcases List.mem_cons.1 hv with rfl | hv
    · exact UInt64.le_refl _
    · exact hw.younger v hv ⟨hb, hs⟩

/-- Where no write may have ended at a position, none is taken out. -/
theorem completeWrite_of_none {j : Journal} (h : ∀ v ∈ j.pending, ¬ v.MayEndAt buffer final) :
    completeWrite buffer final j = .error (.notFound .asyncWrite s!"{buffer}@{final}") j := by
  have hnone : j.candidateStarts buffer final = [] := by
    rw [candidateStarts, List.map_eq_nil_iff, List.filter_eq_nil_iff]
    exact fun v hv => by simpa [AsyncWrite.MayEndAt] using h v hv
  rw [completeWrite, hnone]
  rfl

/-- Either the pass keeps some write, which starts closest and is taken out, or none may have ended
there and the journal is left as it was. -/
theorem completeWrite_cases (buffer : ObjectHandle) (final : UInt64) (j : Journal) :
    (∃ before w after, j.pending = before ++ w :: after ∧ Closest buffer final before w after ∧
        closest? buffer final j.pending = some (w, before.length) ∧
        completeWrite buffer final j =
          .ok ⟨buffer, w.start, final⟩ { j with pending := before ++ after }) ∨
      (∀ v ∈ j.pending, ¬ v.MayEndAt buffer final) ∧ closest? buffer final j.pending = none ∧
        completeWrite buffer final j =
          .error (.notFound .asyncWrite s!"{buffer}@{final}") j := by
  have hkeeps := keeps_closest? buffer final j.pending
  cases hpass : closest? buffer final j.pending with
  | none =>
    rw [hpass] at hkeeps
    exact .inr ⟨hkeeps, rfl, completeWrite_of_none hkeeps⟩
  | some kept =>
    rw [hpass] at hkeeps
    obtain ⟨before, after, hj, hplace, hw⟩ := hkeeps
    exact .inl ⟨before, kept.1, after, hj, hw, by rw [hplace], completeWrite_of_closest hj hw⟩

/-- **The largest start and the pass agree**: the write taken out is the one that the pass keeps,
erased by its place. -/
theorem completeWrite_eq_onePass (buffer : ObjectHandle) (final : UInt64) (j : Journal) :
    completeWrite buffer final j =
      match closest? buffer final j.pending with
      | none => .error (.notFound .asyncWrite s!"{buffer}@{final}") j
      | some (w, place) =>
        .ok ⟨w.buffer, w.start, final⟩ { j with pending := j.pending.eraseIdx place } := by
  rcases completeWrite_cases buffer final j with
    ⟨before, w, after, hj, hw, hpass, hrun⟩ | ⟨_, hpass, hrun⟩
  · have herase : j.pending.eraseIdx before.length = before ++ after := by
      rw [hj, List.eraseIdx_append_of_length_le (Nat.le_refl _), Nat.sub_self]
      rfl
    rw [hpass, hrun]
    dsimp only
    rw [herase, hw.mayEnd.1]
  · rw [hpass, hrun]

/-- **A write that lands is taken to be the one that starts closest.**  The call succeeds exactly if
some write in flight into the buffer starts at the position or before it.  Then the one that starts
closest, and of several such the oldest, is answered with the position, and the journal is left
without that one write; else the journal is left as it was. -/
theorem completeWrite_takes_closest (j : Journal) (buffer : ObjectHandle) (final : UInt64) :
    ((∃ answer j', completeWrite buffer final j = .ok answer j') ↔
        ∃ w ∈ j.pending, w.buffer = buffer ∧ w.start ≤ final) ∧
      (∀ answer j', completeWrite buffer final j = .ok answer j' →
        ∃ before w after, j.pending = before ++ w :: after ∧ Closest buffer final before w after ∧
          answer = ⟨buffer, w.start, final⟩ ∧ j' = { j with pending := before ++ after }) ∧
      ∀ e j', completeWrite buffer final j = .error e j' →
        e = .notFound .asyncWrite s!"{buffer}@{final}" ∧ j' = j := by
  rcases completeWrite_cases buffer final j with
    ⟨before, w, after, hj, hw, _, hok⟩ | ⟨hnone, _, herror⟩
  · have hmem : w ∈ j.pending := by simp [hj]
    refine ⟨⟨fun _ => ⟨w, hmem, hw.mayEnd⟩, fun _ => ⟨_, _, hok⟩⟩, ?_, ?_⟩
    · intro answer j' h
      cases hok.symm.trans h
      exact ⟨before, w, after, hj, hw, rfl, rfl⟩
    · intro e j' h
      cases hok.symm.trans h
  · refine ⟨⟨?_, ?_⟩, ?_, ?_⟩
    · rintro ⟨answer, j', h⟩
      cases herror.symm.trans h
    · rintro ⟨w, hw, hmay⟩
      exact absurd hmay (hnone w hw)
    · intro answer j' h
      cases herror.symm.trans h
    · intro e j' h
      cases herror.symm.trans h
      exact ⟨rfl, rfl⟩

/-- Writes into three buffers, of which two into one buffer start alike. -/
def tiedWrites : Journal where
  context := ⟨0⟩
  pending := [⟨⟨7⟩, 0⟩, ⟨⟨8⟩, 96⟩, ⟨⟨7⟩, 64⟩, ⟨⟨9⟩, 64⟩, ⟨⟨7⟩, 64⟩, ⟨⟨7⟩, 200⟩]

/-- Of two writes that start closest the older one is taken out, though a write into another buffer
starts closer; where all writes into a buffer start after the position, none is taken out. -/
theorem completeWrite_takes_closest_of_ties :
    (∃ j', completeWrite ⟨7⟩ 100 tiedWrites = .ok ⟨⟨7⟩, 64, 100⟩ j' ∧
        j'.pending = [⟨⟨7⟩, 0⟩, ⟨⟨8⟩, 96⟩, ⟨⟨9⟩, 64⟩, ⟨⟨7⟩, 64⟩, ⟨⟨7⟩, 200⟩] ∧
        ∃ before w after, tiedWrites.pending = before ++ w :: after ∧
          Closest ⟨7⟩ 100 before w after ∧ j' = { tiedWrites with pending := before ++ after }) ∧
      ∃ e j', completeWrite ⟨8⟩ 95 tiedWrites = .error e j' ∧ j' = tiedWrites := by
  constructor
  · have hok : completeWrite ⟨7⟩ 100 tiedWrites = .ok ⟨⟨7⟩, 64, 100⟩ _ := rfl
    obtain ⟨before, w, after, hj, hw, _, hj'⟩ :=
      (completeWrite_takes_closest tiedWrites ⟨7⟩ 100).2.1 _ _ hok
    exact ⟨_, hok, rfl, before, w, after, hj, hw, hj'⟩
  · have herror : completeWrite ⟨8⟩ 95 tiedWrites = .error _ _ := rfl
    exact ⟨_, _, herror, ((completeWrite_takes_closest tiedWrites ⟨8⟩ 95).2.2 _ _ herror).2⟩

end Journal

end Retrace
