/-
# Parents that a journal knows

A journal knows a body if it can tell the parent of it, or that it has none.  Whoever goes from a
body to its parent wants to go on from there, so the parent should be known too.

| a body is entered by | its parent |
| --- | --- |
| `registerCode`, as the code registered | none |
| `registerCode` or `forceLoad`, as nested | the body opened, which is known, or the one loaded |

The last line has the one gap.  Loading a body on its own gives no entry to the body itself, for its
parent cannot be told, and an entry without parent would make it top-level code.  So a parent is
known exactly unless it was loaded on its own while it was not known, and has come to be known in no
other way since (`parent_known_iff`).

By *resolve parent* the specification has none for top-level code, else the lexical parent, and an
error for a body never seen (section 4.2); the parents themselves are asked about here.
-/

import Retrace.Proofs.Journal.History
import Retrace.Arena

namespace Retrace

namespace Journal

variable {σ : Type} {c : Call σ} {t : Journal × σ} {j : Journal} {body p : BodyHandle}

/-- Whether a journal can tell the parent of a body, or that it has none; else the body is not
found. -/
def Knows (j : Journal) (body : BodyHandle) : Prop := ∃ p, j.parent body = .ok p

theorem knows_iff (j : Journal) (body : BodyHandle) :
    j.Knows body ↔ j.parents.contains body = true := by
  simp only [Knows, parent_eq_ok_iff, OrderedMap.contains, Option.isSome_iff_exists]

theorem knows_adopt_iff (j : Journal) (found : OrderedMap BodyHandle BodyHandle)
    (body : BodyHandle) :
    (j.adopt found).Knows body ↔ found.contains body = true ∨ j.Knows body := by
  rw [knows_iff, knows_iff, contains_parents_adopt_iff]

theorem knows_addLoad_iff (j : Journal) (code : LoadedCode) (body : BodyHandle) :
    (j.addLoad code).Knows body ↔ code.body = body ∨ j.Knows body := by
  rw [knows_iff, knows_iff, contains_parents_addLoad_iff]

/-! ## What a step makes of parents -/

/-- What is known stays known, unless all code is forgotten; so no call takes a single entry
away. -/
theorem CodeStep.knows (hs : CodeStep c t j) (hc : c.forgetsCode = false)
    (hb : t.1.Knows body) : j.Knows body := by
  cases hs with
  | same _ _ hs =>
    rw [knows_iff, hs.parents, ← knows_iff]
    exact hb
  | registered => exact (knows_addLoad_iff _ _ _).2 (.inr ((knows_adopt_iff _ _ _).2 (.inr hb)))
  | loaded => exact (knows_adopt_iff _ _ _).2 (.inr hb)
  | cleared hcall =>
    rw [hcall] at hc
    cases hc

/-- A parent found in a search is known once what was found is adopted, but for the body that the
search began with. -/
theorem knows_of_found {loader : CodeLoader σ} {root b : BodyHandle}
    {found : OrderedMap BodyHandle BodyHandle} {st : σ}
    (hn : nestedParents loader t.1.parents.contains root t.2 = .ok found st)
    (hb : found.get? b = some p) : p = root ∨ (t.1.adopt found).Knows p :=
  (parent_found_of_nestedParents hn hb).imp_right fun hf => (knows_adopt_iff _ _ _).2 (.inl hf)

/-- The parent of a body that has one was its parent before, or has been found. -/
theorem parent_adopt_cases {found : OrderedMap BodyHandle BodyHandle} {b : BodyHandle}
    (hb : (j.adopt found).parent b = .ok (some p)) :
    found.get? b = some p ∨ j.parent b = .ok (some p) := by
  rw [parent_eq_ok_iff, get?_parents_adopt, Option.or_eq_some_iff] at hb
  rcases hb with hb | ⟨_, hb⟩
  · obtain ⟨q, hq, hqp⟩ := Option.map_eq_some_iff.1 hb
    cases hqp
    exact .inl hq
  · exact .inr ((parent_eq_ok_iff j).2 hb)

/-- **Where a step leaves a parent**, it was there before, or it is known, or it has been loaded on its
own just now. -/
theorem CodeStep.parent_cases (hs : CodeStep c t j) {b : BodyHandle}
    (hb : j.parent b = .ok (some p)) :
    c.forgetsCode = false ∧ t.1.parent b = .ok (some p) ∨ j.Knows p ∨
      ∃ loader st, c = .forceLoad loader p ∧ forceLoad loader p t = .ok () (j, st) := by
  cases hs with
  | same hc _ hs =>
    rw [Journal.parent, hs.parents] at hb
    exact .inl ⟨hc, hb⟩
  | @registered loader origin body counter found st hcall _ hn _ =>
    by_cases he : body = b
    · rw [parent_eq_ok_iff, ← he, get?_parents_addLoad_self] at hb
      cases hb
    rw [parent_eq_ok_iff, get?_parents_addLoad_of_ne _ he, ← parent_eq_ok_iff] at hb
    rcases parent_adopt_cases hb with hb | hb
    · refine .inr (.inl ((knows_addLoad_iff _ _ _).2 ?_))
      exact (knows_of_found hn hb).imp_left Eq.symm
    · rw [hcall]
      exact .inl ⟨rfl, hb⟩
  | @loaded loader body found st hcall hn =>
    rcases parent_adopt_cases hb with hb | hb
    · rcases knows_of_found hn hb with rfl | hk
      · exact .inr (.inr ⟨loader, st, hcall, forceLoad_of_nestedParents hn⟩)
      · exact .inr (.inl hk)
    · rw [hcall]
      exact .inl ⟨rfl, hb⟩
  | cleared => cases hb

/-! ## Histories -/

namespace History

variable {h : History σ} {n : Nat}

/-- Whether a body has been loaded on its own, with success, and has been known neither then nor at
any time since; nor has code been forgotten since. -/
def LoadedAlone (h : History σ) (n : Nat) (body : BodyHandle) : Prop :=
  ∃ m < n, (∃ loader st st', h.calls[m]? = some (.forceLoad loader body, st) ∧
      forceLoad loader body (h.journal m, st) = .ok () (h.journal (m + 1), st')) ∧
    (∀ k, m ≤ k → k ≤ n → ¬ (h.journal k).Knows body) ∧
    ∀ k, m < k → k < n → h.forgetsCode k = false

theorem LoadedAlone.succ (ha : h.LoadedAlone n body) (hc : h.forgetsCode n = false)
    (hk : ¬ (h.journal (n + 1)).Knows body) : h.LoadedAlone (n + 1) body := by
  obtain ⟨m, hm, hload, hunknown, hkept⟩ := ha
  refine ⟨m, by omega, hload, fun k hmk hk' => ?_, fun k hmk hk' => ?_⟩
  · rcases Nat.le_or_eq_of_le_succ hk' with hk' | rfl
    · exact hunknown k hmk hk'
    · exact hk
  · rcases Nat.lt_succ_iff_lt_or_eq.1 hk' with hk' | rfl
    · exact hkept k hmk hk'
    · exact hc

/-- **A parent is known or was loaded alone**, after any number of calls. -/
theorem knows_or_loadedAlone (h : History σ) (n : Nat) :
    ∀ b p, (h.journal n).parent b = .ok (some p) →
      (h.journal n).Knows p ∨ h.LoadedAlone n p := by
  induction n with
  | zero =>
    intro b p hb
    cases hb
  | succ n ih =>
    intro b p hb
    by_cases hk : (h.journal (n + 1)).Knows p
    · exact .inl hk
    right
    rcases h.journal_succ n with ⟨hc, he⟩ | ⟨c, hc, hs⟩
    · -- The history is at its end, and the journal is as it was.
      have hkeep : h.forgetsCode n = false := by rw [forgetsCode, hc]; rfl
      rw [he] at hb hk
      exact ((ih b p hb).resolve_left hk).succ hkeep (by rwa [he])
    rcases hs.parent_cases hb with ⟨hkeep, hb⟩ | hknown | ⟨loader, st, hcall, hload⟩
    · have hbefore : ¬ (h.journal n).Knows p := fun hp => hk (hs.knows hkeep hp)
      refine ((ih b p hb).resolve_left hbefore).succ ?_ hk
      rw [h.forgetsCode_of_some hc]
      exact hkeep
    · exact absurd hknown hk
    · obtain ⟨call, st₀⟩ := c
      obtain rfl : call = .forceLoad loader p := hcall
      refine ⟨n, by omega, ⟨loader, st₀, st, hc, hload⟩, fun k hnk hk' => ?_, fun k hnk hk' => ?_⟩
      · rcases Nat.le_or_eq_of_le_succ hk' with hk' | rfl
        · obtain rfl : k = n := by omega
          exact fun hp => hk (hs.knows rfl hp)
        · exact hk
      · omega

end History

/-- **A parent is known exactly unless it was loaded alone.**  After any calls of any history,
whatever loaders they come with and whichever of them fail: if a body has a parent, then the journal
can tell the parent of that, or that it has none, if and only if it is not the case that the parent
was loaded on its own, with success, since code was last forgotten, and has been known neither then
nor at any time since. -/
theorem parent_known_iff (h : History σ) (n : Nat) {b p : BodyHandle}
    (hb : (h.journal n).parent b = .ok (some p)) :
    (∃ q, (h.journal n).parent p = .ok q) ↔ ¬ h.LoadedAlone n p := by
  constructor
  · rintro hk ⟨m, hm, _, hunknown, _⟩
    exact hunknown n (by omega) (Nat.le_refl n) hk
  · exact fun hnot => (h.knows_or_loadedAlone n b p hb).resolve_right hnot

/-- Two pairs of bodies, in each of which the one nests the other. -/
def pairedArena : Arena where
  bodies := #[{ nested := [⟨1⟩] }, {}, { nested := [⟨3⟩] }, {}]

/-- The first body of one pair is loaded on its own; that of the other is registered, and loaded
again. -/
def pairedHistory : History Arena where
  context := ⟨0⟩
  calls := [(.forceLoad Arena.loader ⟨0⟩, pairedArena),
    (.registerCode Arena.loader .script ⟨2⟩ 1, pairedArena),
    (.forceLoad Arena.loader ⟨2⟩, pairedArena)]

theorem parents_pairedHistory : (pairedHistory.journal 1).parent ⟨1⟩ = .ok (some ⟨0⟩) ∧
    (pairedHistory.journal 1).parent ⟨0⟩ = .error (.notFound .functionBody "body0") ∧
    (pairedHistory.journal 3).parent ⟨1⟩ = .ok (some ⟨0⟩) ∧
    (pairedHistory.journal 3).parent ⟨0⟩ = .error (.notFound .functionBody "body0") ∧
    (pairedHistory.journal 3).parent ⟨3⟩ = .ok (some ⟨2⟩) ∧
    (pairedHistory.journal 3).parent ⟨2⟩ = .ok none := by
  have h₁ := (pairedHistory.journal_succ_of_some (n := 0) rfl).trans (after_forceLoad (n := 3) rfl)
  have h₂ := pairedHistory.journal_succ_of_some (n := 1) rfl
  rw [h₁, after_registerCode (n := 3) rfl rfl] at h₂
  have h₃ := pairedHistory.journal_succ_of_some (n := 2) rfl
  rw [h₂, after_forceLoad (n := 3) rfl] at h₃
  rw [h₁, h₃]
  exact ⟨rfl, rfl, rfl, rfl, rfl, rfl⟩

/-- Of two parents the one is not known, so it was loaded alone; the other is top-level code, so it
was not, though it was loaded on its own too. -/
theorem parent_known_in_pairs : (pairedHistory.journal 3).parent ⟨1⟩ = .ok (some ⟨0⟩) ∧
    pairedHistory.LoadedAlone 3 ⟨0⟩ ∧ (pairedHistory.journal 3).parent ⟨3⟩ = .ok (some ⟨2⟩) ∧
    ¬ pairedHistory.LoadedAlone 3 ⟨2⟩ := by
  obtain ⟨_, _, hone, hzero, hthree, htwo⟩ := parents_pairedHistory
  refine ⟨hone, Classical.not_not.1 fun hnot => ?_, hthree,
    (parent_known_iff pairedHistory 3 hthree).1 ⟨_, htwo⟩⟩
  obtain ⟨q, hq⟩ := (parent_known_iff pairedHistory 3 hone).2 hnot
  cases hzero.symm.trans hq

/-- A body is loaded on its own: the journal tells it as a parent, and does not know it. -/
theorem unknown_parent : ∃ (h : History Arena) (b p : BodyHandle),
    (h.journal 1).parent b = .ok (some p) ∧
      (h.journal 1).parent p = .error (.notFound .functionBody "body0") :=
  ⟨pairedHistory, ⟨1⟩, ⟨0⟩, parents_pairedHistory.1, parents_pairedHistory.2.1⟩

end Journal

end Retrace
