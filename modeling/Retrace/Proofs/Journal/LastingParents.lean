/-
# Parents last

Once a journal has told the parent of a body, it tells the same after any further calls, as long as
code is not forgotten; but for one thing: when the body itself is registered, it has no parent from
then on (`parent_lasts`).  Loaders may differ from call to call, may nest one body in many others or in
itself, and may change what they answer.

| a later call | leaves the parent because |
| --- | --- |
| finds the body nested elsewhere | a search finds only what was not known |
| begins its search with it | the same holds there, where the search comes back to it |
| registers it again | it had no parent already |

The specification has parents entered by two operations, and dropped by one, all at once (section
4.2).
-/

import Mathlib.Data.Nat.Init
import Retrace.Proofs.Journal.KnownParents
import Retrace.Proofs.Journal.TopLevelCode

namespace Retrace

namespace Journal

variable {σ : Type} {c : Call σ} {t : Journal × σ} {j : Journal} {body : BodyHandle}
  {x : Option BodyHandle}

/-- **A step leaves the parent of a body as it was**, unless it registers the body, which then has
none. -/
theorem CodeStep.parent_of_parent (hs : CodeStep c t j) (ho : CodeInOrder t.1)
    (hc : c.forgetsCode = false) (hb : t.1.parent body = .ok x) :
    c.Registers t body ∧ j.parent body = .ok none ∨
      ¬ c.Registers t body ∧ j.parent body = .ok x := by
  by_cases hr : c.Registers t body
  · have htop := (hs.isTopLevel_iff hc body).2 (.inr hr)
    exact .inl ⟨hr, (parent_eq_ok_iff j).2 (((ho.step hs).parentless body).2 htop)⟩
  refine .inr ⟨hr, ?_⟩
  rw [parent_eq_ok_iff] at hb ⊢
  have hknown := OrderedMap.contains_of_get? hb
  cases hs with
  | same _ _ hs =>
    rw [hs.parents]
    exact hb
  | @registered loader origin root counter found st hcall htop hn _ =>
    have hne : root ≠ body := by
      rintro rfl
      exact hr ⟨loader, origin, counter, _, _, hcall,
        registerCode_of_nestedParents htop hn origin counter⟩
    rw [get?_parents_addLoad_of_ne _ hne,
      get?_parents_adopt_of_known (nestedParents_spec hn).unknown hknown]
    exact hb
  | loaded _ hn =>
    rw [get?_parents_adopt_of_known (nestedParents_spec hn).unknown hknown]
    exact hb
  | cleared hcall =>
    rw [hcall] at hc
    cases hc

namespace History

/-- Whether one of the calls from one number of calls up to another registers a body, with
success. -/
def RegisteredBetween (h : History σ) (m n : Nat) (body : BodyHandle) : Prop :=
  ∃ k, m ≤ k ∧ k < n ∧ h.RegistersNext k body

theorem not_registeredBetween_self (h : History σ) (m : Nat) (body : BodyHandle) :
    ¬ h.RegisteredBetween m m body :=
  fun ⟨_, hmk, hkm, _⟩ => Nat.not_lt.2 hmk hkm

theorem registeredBetween_succ_iff (h : History σ) {m n : Nat} (hmn : m ≤ n) (body : BodyHandle) :
    h.RegisteredBetween m (n + 1) body ↔ h.RegisteredBetween m n body ∨ h.RegistersNext n body := by
  constructor
  · rintro ⟨k, hmk, hkn, hr⟩
    rcases Nat.lt_succ_iff_lt_or_eq.1 hkn with hkn | rfl
    · exact .inl ⟨k, hmk, hkn, hr⟩
    · exact .inr hr
  · rintro (⟨k, hmk, hkn, hr⟩ | hr)
    · exact ⟨k, hmk, Nat.lt_succ_of_lt hkn, hr⟩
    · exact ⟨n, hmn, Nat.lt_succ_self n, hr⟩

/-- The next call leaves the parent of a body as it was, unless it registers the body. -/
theorem parent_succ (h : History σ) {n : Nat} (hc : h.forgetsCode n = false)
    (hb : (h.journal n).parent body = .ok x) :
    h.RegistersNext n body ∧ (h.journal (n + 1)).parent body = .ok none ∨
      ¬ h.RegistersNext n body ∧ (h.journal (n + 1)).parent body = .ok x := by
  rcases h.journal_succ n with ⟨hnone, he⟩ | ⟨c, hsome, hs⟩
  · rw [he]
    exact .inr ⟨h.not_registersNext_of_none hnone body, hb⟩
  · rw [h.forgetsCode_of_some hsome] at hc
    rw [h.registersNext_of_some hsome]
    exact hs.parent_of_parent (h.codeInOrder n) hc hb

end History

/-- **A parent that has been told lasts.**  After any calls of any history, whatever loaders they come
with and whichever of them fail: if the journal tells the parent of a body, or that it has none, and
then code is not forgotten, then it tells the same after any further calls none of which registers the
body with success; and after any further calls one of which does, that it has no parent. -/
theorem parent_lasts (h : History σ) {m n : Nat} (hmn : m ≤ n)
    (hkept : ∀ k, m ≤ k → k < n → h.forgetsCode k = false)
    (hb : (h.journal m).parent body = .ok x) :
    (¬ h.RegisteredBetween m n body → (h.journal n).parent body = .ok x) ∧
      (h.RegisteredBetween m n body → (h.journal n).parent body = .ok none) := by
  induction n, hmn using Nat.le_induction with
  | base => exact ⟨fun _ => hb, fun hr => absurd hr (h.not_registeredBetween_self m body)⟩
  | succ n hmn ih =>
    have hc := hkept n hmn (Nat.lt_succ_self n)
    obtain ⟨hsame, hnone⟩ := ih fun k hmk hkn => hkept k hmk (Nat.lt_succ_of_lt hkn)
    rw [h.registeredBetween_succ_iff hmn, not_or]
    constructor
    · rintro ⟨hbetween, hnext⟩
      rcases h.parent_succ hc (hsame hbetween) with ⟨hr, _⟩ | ⟨_, hs⟩
      · exact absurd hr hnext
      · exact hs
    · intro hr
      by_cases hbetween : h.RegisteredBetween m n body
      · -- It had no parent already, and registering it again makes no difference.
        rcases h.parent_succ hc (hnone hbetween) with ⟨_, hs⟩ | ⟨_, hs⟩ <;> exact hs
      · rcases h.parent_succ hc (hsame hbetween) with ⟨_, hs⟩ | ⟨hnext, _⟩
        · exact hs
        · exact absurd (hr.resolve_left hbetween) hnext

/-- Two bodies that both nest a third one. -/
def sharingArena : Arena where
  bodies := #[{ nested := [⟨2⟩] }, { nested := [⟨2⟩] }, {}]

/-- The two are loaded one after the other, and then the third is registered. -/
def sharingHistory : History Arena where
  context := ⟨0⟩
  calls := [(.forceLoad Arena.loader ⟨0⟩, sharingArena), (.forceLoad Arena.loader ⟨1⟩, sharingArena),
    (.registerCode Arena.loader .eval ⟨2⟩ 1, sharingArena)]

/-- The third body keeps the first one as its parent when it is found in the second one too, and has
none once it is registered. -/
theorem parent_lasts_of_shared_body : (sharingHistory.journal 1).parent ⟨2⟩ = .ok (some ⟨0⟩) ∧
    (∀ k, 1 ≤ k → k < 3 → sharingHistory.forgetsCode k = false) ∧
    (sharingHistory.journal 2).parent ⟨2⟩ = .ok (some ⟨0⟩) ∧
    (sharingHistory.journal 3).parent ⟨2⟩ = .ok none := by
  have h₁ := (sharingHistory.journal_succ_of_some (n := 0) rfl).trans (after_forceLoad (n := 3) rfl)
  have h₂ := sharingHistory.journal_succ_of_some (n := 1) rfl
  rw [h₁, after_forceLoad (n := 3) rfl] at h₂
  have hfirst : (sharingHistory.journal 1).parent ⟨2⟩ = .ok (some ⟨0⟩) := by
    rw [h₁]
    rfl
  have hkept : ∀ k, 1 ≤ k → k < 3 → sharingHistory.forgetsCode k = false := by decide
  have htop : (sharingHistory.journal 2).isTopLevel ⟨2⟩ = false := by
    rw [h₂]
    rfl
  have hsearch : Search.runUpTo Arena.loader (sharingHistory.journal 2).parents.contains 3
      ⟨[⟨2⟩], .empty⟩ sharingArena = .ok ⟨[], .empty⟩ sharingArena := by
    rw [h₂]
    rfl
  have hthird : sharingHistory.RegistersNext 2 ⟨2⟩ :=
    ⟨_, rfl, Arena.loader, .eval, 1, true, _, rfl, registerCode_of_runUpTo htop hsearch .eval 1⟩
  have hsecond : ¬ sharingHistory.RegisteredBetween 1 2 ⟨2⟩ := by
    rintro ⟨k, hk, hk', c, hc, _, _, _, _, _, hcall, _⟩
    obtain rfl : k = 1 := by omega
    cases hc
    cases hcall
  exact ⟨hfirst, hkept,
    (parent_lasts sharingHistory (by decide) (fun k h₁ h₂ => hkept k h₁ (by omega)) hfirst).1 hsecond,
    (parent_lasts sharingHistory (by decide) hkept hfirst).2 ⟨2, by decide, by decide, hthird⟩⟩

end Journal

end Retrace
