/-
# Constructions

An arena is built by calls, one after another, from an empty one or from one that has been read and
found valid, and each call is given handles that are in the arena then.

A handle has 32 bits, and no builder looks whether any are left.  There is hardly room for as many
objects or bodies, but the counter of scopes is read from a file as it is, so a file may put it at
its end.

As long as no call uses handles up, the arena is valid after each of them, none fails, and what is
given out is new.  At the first call that does, that ends, whether or not the program checks its
arithmetic (`soundFor_iff`).  One scope may be enough for it (`unsound_past_the_end`):

| the program | the scope past the end | the arena then |
| --- | --- | --- |
| checks its arithmetic | is not given out, as the call breaks off | is as it was |
| does not | is given out | has no scope any more, not that one either |
-/

import Retrace.Proofs.Arena.Builders
import Retrace.Proofs.Json.Arena

namespace Retrace

namespace Arena

variable {a : Arena}

/-- Whether a construction may begin with an arena: it is empty, or has been read, and so passed
validation. -/
def Begun (a : Arena) : Prop := a = {} ∨ ∃ text, ofDescription text = .ok a

theorem Begun.wellFormed (h : a.Begun) : a.WellFormed := by
  rw [← validate_eq_ok_iff]
  rcases h with rfl | ⟨text, h⟩
  · rfl
  · unfold ofDescription at h
    split at h
    · cases h
    · split at h
      · next hvalid =>
        cases h
        exact hvalid
      · cases h

end Arena

open Arena

/-- An arena that is empty or has been read, and the calls made on it since, oldest first. -/
structure Construction where
  /-- What becomes of a number that leaves its range. -/
  overflow : Overflow
  /-- The arena before the first call. -/
  start : Arena
  /-- It is empty, or has been read. -/
  begun : start.Begun
  /-- The calls. -/
  calls : List Builder

namespace Construction

/-- The arena after a number of calls, of which those that fail or break off leave it as it is. -/
def arena (k : Construction) (n : Nat) : Arena :=
  (k.calls.take n).foldl (fun a c => ((c.run k.overflow a).map (·.2)).getD a) k.start

/-- The handles that the next call gives out after a number of calls; none if it fails or breaks
off. -/
def made (k : Construction) (n : Nat) : List CoreTarget :=
  ((k.calls[n]?.bind fun c => c.run k.overflow (k.arena n)).map (·.1)).getD []

/-- Every call is given handles that are in the arena then, as they are if the calls before have
given them out. -/
def Proper (k : Construction) : Prop :=
  ∀ n c, k.calls[n]? = some c → ∀ t ∈ c.given, (k.arena n).Has t

/-- What a construction should keep for a number of calls: the arena valid before and after each of
them, and everything that is given out new. -/
structure SoundFor (k : Construction) (n : Nat) : Prop where
  /-- The arena is valid before and after each call. -/
  valid : ∀ m ≤ n, (k.arena m).validate = .ok ()
  /-- No call fails or breaks off. -/
  succeeds : ∀ m < n, ∀ c, k.calls[m]? = some c →
    c.run k.overflow (k.arena m) = some (k.made m, k.arena (m + 1))
  /-- No handle that is given out has been in the arena before, or anything that led to it, nor has
  it been given out. -/
  new : ∀ m < n, ∀ t ∈ k.made m,
    (∀ l ≤ m, ¬(k.arena l).Has t ∧ t ∉ (k.arena l).handles) ∧ ∀ l < m, t ∉ k.made l

variable {k : Construction}

theorem step_of_none {m : Nat} (hc : k.calls[m]? = none) :
    k.arena (m + 1) = k.arena m ∧ k.made m = [] := by
  simp [arena, made, List.take_add_one, hc]

theorem step_of_run {m : Nat} {c : Builder} (hc : k.calls[m]? = some c) {fresh : List CoreTarget}
    {a : Arena} (hrun : c.run k.overflow (k.arena m) = some (fresh, a)) :
    k.arena (m + 1) = a ∧ k.made m = fresh := by
  constructor
  · unfold arena at hrun ⊢
    rw [List.take_add_one, hc, List.foldl_append]
    simp [hrun]
  · simp [made, hc, hrun]

/-- One more call has been made that used nothing up, or there is none. -/
theorem Proper.step (hp : k.Proper) {m : Nat}
    (hm : ∀ c, k.calls[m]? = some c → ¬c.UsesUp k.overflow (k.arena m)) :
    (∀ c, k.calls[m]? = some c →
        c.run k.overflow (k.arena m) = some (k.made m, k.arena (m + 1))) ∧
      ∃ given, (∀ t ∈ given, (k.arena m).Has t) ∧
        Adds (k.arena m) (k.arena (m + 1)) given (k.made m) := by
  cases hc : k.calls[m]? with
  | none =>
    obtain ⟨harena, hmade⟩ := step_of_none hc
    rw [harena, hmade]
    exact ⟨nofun, [], nofun, fun t => by simp, nofun, by simp⟩
  | some c =>
    obtain ⟨fresh, a, hrun, hadds⟩ := Builder.run_of_not_usesUp (hp m c hc) (hm c hc)
    obtain ⟨rfl, rfl⟩ := step_of_run hc hrun
    exact ⟨fun d hd => by cases hd; exact hrun, c.given, hp m c hc, hadds⟩

/-- Whether none of the first so many calls uses handles up, which is all that a construction
depends on. -/
def SparesFor (k : Construction) (n : Nat) : Prop :=
  ∀ m < n, ∀ c, k.calls[m]? = some c → ¬c.UsesUp k.overflow (k.arena m)

/-- **The arena remains well formed** for as long as no call uses handles up, however it began. -/
theorem Proper.wellFormed (hp : k.Proper) {n : Nat} (hn : k.SparesFor n) :
    (k.arena n).WellFormed := by
  induction n with
  | zero => exact k.begun.wellFormed
  | succ n ih =>
    obtain ⟨_, given, hgiven, hadds⟩ := hp.step (hn n (Nat.lt_succ_self n))
    exact hadds.wellFormed (ih fun m hm => hn m (Nat.lt_succ_of_lt hm)) hgiven

/-- **What is in the arena remains there**, so that a handle that was given out goes on leading into
it. -/
theorem Proper.has_of_le (hp : k.Proper) {l n : Nat} (hln : l ≤ n) (hn : k.SparesFor n)
    {t : CoreTarget} (ht : (k.arena l).Has t) : (k.arena n).Has t := by
  induction hln with
  | refl => exact ht
  | @step n _ ih =>
    obtain ⟨_, _, _, hadds⟩ := hp.step (hn n (Nat.lt_succ_self n))
    exact (hadds.has_iff t).2 (.inl (ih fun m hm => hn m (Nat.lt_succ_of_lt hm)))

/-- **A construction is sound for its first calls exactly if none of them uses handles up**, in a
program that checks its arithmetic as in one that does not. -/
theorem soundFor_iff (hp : k.Proper) (n : Nat) : k.SoundFor n ↔ k.SparesFor n := by
  constructor
  · intro h m hm c hc hused
    rcases Builder.run_of_usesUp hused (h.succeeds m hm c hc) with ⟨t, ht, hhas⟩ | hnot
    · exact ((h.new m hm t ht).1 m (Nat.le_refl m)).1 hhas
    · exact hnot ((validate_eq_ok_iff _).1 (h.valid (m + 1) hm))
  · intro h
    have hupTo : ∀ m ≤ n, k.SparesFor m := fun m hm l hl => h l (Nat.lt_of_lt_of_le hl hm)
    refine ⟨fun m hm => (validate_eq_ok_iff _).2 (hp.wellFormed (hupTo m hm)),
      fun m hm => (hp.step (h m hm)).1, fun m hm t ht => ?_⟩
    obtain ⟨_, _, _, hadds⟩ := hp.step (h m hm)
    have hearlier : ∀ l ≤ m, ¬(k.arena l).Has t := fun l hl hhas =>
      hadds.new t ht (hp.has_of_le hl (hupTo m (Nat.le_of_lt hm)) hhas)
    refine ⟨fun l hl => ⟨hearlier l hl, fun hhandle => hearlier l hl ?_⟩, fun l hl hmade => ?_⟩
    · exact wellFormed_iff.1 (hp.wellFormed (hupTo l (Nat.le_of_lt (Nat.lt_of_le_of_lt hl hm)))) t
        hhandle
    · obtain ⟨_, _, _, hbefore⟩ := hp.step (h l (Nat.lt_trans hl hm))
      exact hearlier (l + 1) hl ((hbefore.has_iff t).2 (.inr hmade))

/-- An arena with one body, whose counter stands so many scopes before its end.  No scope of it need
ever have been given out. -/
def nearlyFull (left : UInt32) : Arena where
  bodies := #[{}]
  scopeCount := 0xFFFFFFFF - left

/-- Such an arena can be read. -/
theorem begun_nearlyFull (left : UInt32) : (nearlyFull left).Begun :=
  .inr ⟨(nearlyFull left).describe, by rw [ofDescription, parse?_describe]; rfl⟩

/-- Calls of each kind on such an arena: a property is defined again, the one scope that is left is
given out, and a body is parsed late. -/
def ofEachKind (o : Overflow) : Construction where
  overflow := o
  start := nearlyFull 1
  begun := begun_nearlyFull _
  calls := [
    .allocObject, .allocFunction, .defineProperty ⟨0⟩ ⟨"f", .data (some ⟨1⟩)⟩,
    .defineProperty ⟨0⟩ ⟨"f", .accessor none (some ⟨0⟩)⟩, .allocBody (some "main.js") true,
    .addNestedBody ⟨2⟩ ⟨0⟩, .addScope ⟨1⟩, .addRoot "g" ⟨0⟩, .forceParse ⟨2⟩]

theorem proper_ofEachKind (o : Overflow) : (ofEachKind o).Proper := by
  intro n c hc
  match n, hc with
  | 0, rfl | 1, rfl | 2, rfl | 3, rfl | 4, rfl | 5, rfl | 6, rfl | 7, rfl | 8, rfl =>
    cases o <;> decide +kernel

theorem sparesFor_ofEachKind (o : Overflow) : (ofEachKind o).SparesFor 9 := by
  intro m _ c hc
  match m, hc with
  | 0, rfl | 1, rfl | 2, rfl | 3, rfl | 4, rfl | 5, rfl | 6, rfl | 7, rfl | 8, rfl =>
    cases o <;> decide +kernel

/-- All nine calls give out what is new, the last scope among it, and keep the arena valid, with
checks and without. -/
theorem soundFor_iff_ofEachKind :
    ((ofEachKind .checked).Proper ∧ (ofEachKind .checked).SoundFor 9) ∧
      ((ofEachKind .wrapping).Proper ∧ (ofEachKind .wrapping).SoundFor 9) ∧
      (List.range 9).map (ofEachKind .checked).made = [[.object ⟨0⟩], [.object ⟨1⟩, .body ⟨1⟩], [],
        [], [.body ⟨2⟩], [], [.scope ⟨0xFFFFFFFE⟩], [], []] := by
  refine ⟨⟨proper_ofEachKind _, ?_⟩, ⟨proper_ofEachKind _, ?_⟩, by decide +kernel⟩
  · exact (soundFor_iff (proper_ofEachKind .checked) 9).2 (sparesFor_ofEachKind .checked)
  · exact (soundFor_iff (proper_ofEachKind .wrapping) 9).2 (sparesFor_ofEachKind .wrapping)

/-- One scope more, for an arena that has been read with its counter at the end. -/
def pastTheEnd (o : Overflow) : Construction where
  overflow := o
  start := nearlyFull 0
  begun := begun_nearlyFull _
  calls := [.addScope ⟨0⟩]

theorem proper_pastTheEnd (o : Overflow) : (pastTheEnd o).Proper := by
  intro n c hc
  match n, hc with
  | 0, rfl => cases o <;> decide +kernel

/-- **Past its end the counter of scopes gives out nothing, or what is not in the arena.**  The arena
has been read and is valid, and the body is in it.  With checks the call breaks off.  Without them it
gives out a scope, and the counter begins again, so the arena has no scope any more, not that one
either. -/
theorem unsound_past_the_end :
    ((pastTheEnd .checked).Proper ∧ ¬(pastTheEnd .checked).SoundFor 1 ∧
      (Builder.addScope ⟨0⟩).run .checked ((pastTheEnd .checked).arena 0) = none) ∧
    (pastTheEnd .wrapping).Proper ∧ (pastTheEnd .wrapping).made 0 = [.scope ⟨0xFFFFFFFF⟩] ∧
      ((pastTheEnd .wrapping).arena 0).validate = .ok () ∧
      ((pastTheEnd .wrapping).arena 1).validate =
        .error (.violation (.danglingScope 0 ⟨0xFFFFFFFF⟩)) := by
  have hnone : (Builder.addScope ⟨0⟩).run .checked ((pastTheEnd .checked).arena 0) = none := rfl
  refine ⟨⟨proper_pastTheEnd _, fun h => ?_, hnone⟩, proper_pastTheEnd _, by decide +kernel, rfl, rfl⟩
  have hsome := h.succeeds 0 Nat.zero_lt_one _ rfl
  exact absurd (hnone.symm.trans hsome) nofun

end Construction

end Retrace
