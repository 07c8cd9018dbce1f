/-
# Lexical chains

From a body that a journal tracks, parent after parent leads up to top-level code, and meets no body
twice (`chain_to_topLevel`).  That is so although what bodies nest may go round in circles: a search
gives parents only to what has none, and these lead up to the body that it began with, which is then
top-level or was tracked before.  Registering a body in the middle of a chain cuts the chain short
there.

It takes that a body is loaded on its own only if it is tracked.  One that is not has no entry, and
what it nests would lead up to it and stop there.

The parents are those of the nesting map in the data model (specification, section 3), where an
absent one stands for top-level code.
-/

import Mathlib.Data.List.Chain
import Retrace.Arena
import Retrace.Proofs.Journal.TopLevelCode

namespace Retrace

namespace Journal

variable {σ : Type} {j j' : Journal} {body : BodyHandle} {chain : List BodyHandle}

/-! ## Chains -/

/-- The bodies on the way up from a body to top-level code, parent after parent. -/
inductive Ascends (j : Journal) : BodyHandle → List BodyHandle → Prop where
  /-- Top-level code is the end of the way. -/
  | top {body : BodyHandle} : j.parent body = .ok none → Ascends j body [body]
  /-- A body with a parent comes before the way up from there. -/
  | up {body p : BodyHandle} {chain : List BodyHandle} : j.parent body = .ok (some p) →
      Ascends j p chain → Ascends j body (body :: chain)

/-- There is only one way up. -/
theorem Ascends.unique {other : List BodyHandle} (h : Ascends j body chain)
    (ho : Ascends j body other) : chain = other := by
  induction h generalizing other with
  | top hb =>
    cases ho with
    | top => rfl
    | up hp _ => cases hb.symm.trans hp
  | up hb _ ih =>
    cases ho with
    | top hp => cases hb.symm.trans hp
    | up hp ho =>
      cases hb.symm.trans hp
      rw [ih ho]

/-- The way up from a body on the way is no longer. -/
theorem Ascends.of_mem (h : Ascends j body chain) {q : BodyHandle} (hq : q ∈ chain) :
    ∃ rest, Ascends j q rest ∧ rest.length ≤ chain.length := by
  induction h with
  | top hb =>
    obtain rfl := List.mem_singleton.1 hq
    exact ⟨_, .top hb, Nat.le_refl _⟩
  | up hb hup ih =>
    rcases List.mem_cons.1 hq with rfl | hq
    · exact ⟨_, .up hb hup, Nat.le_refl _⟩
    · obtain ⟨rest, hrest, hlen⟩ := ih hq
      exact ⟨rest, hrest, Nat.le_succ_of_le hlen⟩

/-- No body is met twice: the way up from it would be longer than itself. -/
theorem Ascends.nodup (h : Ascends j body chain) : chain.Nodup := by
  induction h with
  | top => exact List.pairwise_singleton _ _
  | @up b p chain hb hup ih =>
    refine List.nodup_cons.2 ⟨fun hm => ?_, ih⟩
    obtain ⟨rest, hrest, hlen⟩ := hup.of_mem hm
    rw [← (Ascends.up hb hup).unique hrest, List.length_cons] at hlen
    exact absurd hlen (Nat.not_succ_le_self _)

/-- The way ends where there is no parent. -/
theorem Ascends.last (h : Ascends j body chain) :
    ∃ top, chain.getLast? = some top ∧ j.parent top = .ok none := by
  induction h with
  | top hb => exact ⟨_, rfl, hb⟩
  | @up b p chain _ hup ih =>
    obtain ⟨top, htop, hnone⟩ := ih
    refine ⟨top, ?_, hnone⟩
    rw [List.getLast?_cons, htop]
    rfl

/-- Whoever goes from parent to parent goes this way, and no further than its end. -/
theorem Ascends.covers (h : Ascends j body chain) {walk : List BodyHandle}
    (hstart : walk.head? = some body)
    (hwalk : walk.IsChain fun b p => j.parent b = .ok (some p)) : walk <+: chain := by
  induction h generalizing walk with
  | @top b hb =>
    obtain ⟨rest, rfl⟩ := List.head?_eq_some_iff.1 hstart
    cases rest with
    | nil => exact List.prefix_refl _
    | cons q rest => cases hb.symm.trans (List.isChain_cons_cons.1 hwalk).1
  | @up b p chain hb _ ih =>
    obtain ⟨rest, rfl⟩ := List.head?_eq_some_iff.1 hstart
    cases rest with
    | nil => exact List.cons_prefix_cons.2 ⟨rfl, List.nil_prefix⟩
    | cons q rest =>
      obtain ⟨hq, hrest⟩ := List.isChain_cons_cons.1 hwalk
      cases hb.symm.trans hq
      exact List.cons_prefix_cons.2 ⟨rfl, ih rfl hrest⟩

/-! ## What keeps chains whole -/

/-- Every body that is tracked has a way up, so that no chain of parents breaks off or runs in a
ring. -/
def Anchored (j : Journal) : Prop :=
  ∀ body p, j.parent body = .ok p → ∃ chain, Ascends j body chain

/-- Where bodies keep their parents or become top-level, ways up stay ways up, if shorter. -/
theorem Ascends.keeps (h : Ascends j body chain)
    (hkeeps : ∀ b p, j.parent b = .ok p → j'.parent b = .ok p ∨ j'.parent b = .ok none) :
    ∃ chain', Ascends j' body chain' := by
  induction h with
  | top hb => exact ⟨_, .top ((hkeeps _ _ hb).elim id id)⟩
  | up hb _ ih =>
    obtain ⟨chain', hup⟩ := ih
    rcases hkeeps _ _ hb with hb | hb
    · exact ⟨_, .up hb hup⟩
    · exact ⟨_, .top hb⟩

/-- What a search has found has a way up if the body that it began with has one. -/
theorem ascends_of_leadsUp {found : OrderedMap BodyHandle BodyHandle} {root : BodyHandle}
    (hroot : ∃ chain, Ascends j root chain)
    (hfound : ∀ b p, found.get? b = some p → j.parent b = .ok (some p) ∨ j.parent b = .ok none)
    (h : Search.LeadsUp found root body) : ∃ chain, Ascends j body chain := by
  induction h with
  | root => exact hroot
  | nested hb _ ih =>
    obtain ⟨chain, hup⟩ := ih
    rcases hfound _ _ hb with hb | hb
    · exact ⟨_, .up hb hup⟩
    · exact ⟨_, .top hb⟩

/-- Adopting what a search has found keeps chains whole, if the body that it began with was tracked
or becomes top-level. -/
theorem Anchored.grow {found : OrderedMap BodyHandle BodyHandle} {root : BodyHandle}
    (h : Anchored j) (hbelow : Search.Below j.parents.contains root ⟨[], found⟩)
    (hroot : (∃ p, j.parent root = .ok p) ∨ j'.parents.get? root = some none)
    (hparents : ∀ b, j'.parents.get? b = (j.adopt found).parents.get? b ∨
      b = root ∧ j'.parents.get? b = some none) : Anchored j' := by
  have hkeeps : ∀ b p, j.parent b = .ok p → j'.parent b = .ok p ∨ j'.parent b = .ok none := by
    intro b p hb
    simp only [parent_eq_ok_iff] at hb ⊢
    have hk := get?_parents_adopt_of_known hbelow.unknown (OrderedMap.contains_of_get? hb)
    rw [← hb, ← hk]
    exact (hparents b).imp_right And.right
  have hold : ∀ b p, j.parent b = .ok p → ∃ chain, Ascends j' b chain := fun b p hb =>
    (h b p hb).elim fun _ hup => hup.keeps hkeeps
  have htop : ∃ chain, Ascends j' root chain := by
    rcases hroot with ⟨p, hp⟩ | hp
    · exact hold root p hp
    · exact ⟨_, .top ((parent_eq_ok_iff j').2 hp)⟩
  have hfound : ∀ b p, found.get? b = some p →
      j'.parent b = .ok (some p) ∨ j'.parent b = .ok none := by
    intro b p hb
    simp only [parent_eq_ok_iff]
    rw [← get?_parents_adopt_of_found j hb]
    exact (hparents b).imp_right And.right
  intro b p hb
  rcases hparents b with he | ⟨rfl, _⟩
  · rw [parent_eq_ok_iff, he, get?_parents_adopt] at hb
    cases hf : found.get? b with
    | some q =>
      exact ascends_of_leadsUp htop hfound (hbelow.leadsUp b (OrderedMap.contains_of_get? hf))
    | none =>
      rw [hf] at hb
      exact hold b p ((parent_eq_ok_iff j).2 hb)
  · exact htop

/-- **A step keeps chains whole**, if it loads a body on its own only where that is tracked. -/
theorem Anchored.step {c : Call σ} {t : Journal × σ} (h : Anchored t.1) (hs : CodeStep c t j')
    (hload : ∀ loader body, c = .forceLoad loader body → ∃ p, t.1.parent body = .ok p) :
    Anchored j' := by
  cases hs with
  | same _ _ hs =>
    have he : ∀ b, j'.parent b = t.1.parent b := fun b => by
      rw [Journal.parent, hs.parents, Journal.parent]
    intro b p hb
    obtain ⟨chain, hup⟩ := h b p ((he b).symm.trans hb)
    exact hup.keeps fun q r hq => .inl ((he q).trans hq)
  | @registered loader origin body counter found st _ _ hn _ =>
    refine h.grow (nestedParents_spec hn) (.inr (get?_parents_addLoad_self _ _)) fun b => ?_
    by_cases hb : body = b
    · subst hb
      exact .inr ⟨rfl, get?_parents_addLoad_self _ _⟩
    · exact .inl (get?_parents_addLoad_of_ne _ hb)
  | loaded hcall hn =>
    exact h.grow (nestedParents_spec hn) (.inl (hload _ _ hcall)) fun b => .inl rfl
  | cleared =>
    intro b p hb
    cases hb

namespace History

/-- Whether the next call, if it loads a body on its own, loads one that is tracked. -/
def LoadsTracked (h : History σ) (n : Nat) : Prop :=
  ∀ loader body s, h.calls[n]? = some (.forceLoad loader body, s) →
    ∃ p, (h.journal n).parent body = .ok p

theorem anchored (h : History σ) (n : Nat) (hload : ∀ m < n, h.LoadsTracked m) :
    Anchored (h.journal n) := by
  refine h.journal_induction (fun _ _ hb => nomatch hb) n fun m hm c hc hj hs => hj.step hs ?_
  rintro loader body hcall
  exact hload m hm loader body c.2 (by rw [hc, ← hcall])

end History

/-- **Every lexical chain ends at top-level code.**  After any calls of a history in which bodies
are loaded on their own only if they are tracked, whatever loaders the calls come with and whichever
of them fail: from a body whose parent can be told there is a way up, parent after parent, that
meets no body twice and ends at top-level code; and to go from parent to parent is to go
this way. -/
theorem chain_to_topLevel (h : History σ) (n : Nat) (hload : ∀ m < n, h.LoadsTracked m)
    {body : BodyHandle} {p : Option BodyHandle} (hb : (h.journal n).parent body = .ok p) :
    ∃ chain top, Ascends (h.journal n) body chain ∧ chain.Nodup ∧
      chain.getLast? = some top ∧ (h.journal n).isTopLevel top = true ∧
      ∀ walk : List BodyHandle, walk.head? = some body →
        walk.IsChain (fun b q => (h.journal n).parent b = .ok (some q)) → walk <+: chain := by
  obtain ⟨chain, hup⟩ := h.anchored n hload body p hb
  obtain ⟨top, hlast, htop⟩ := hup.last
  have htop' := ((h.codeInOrder n).parentless top).1 ((parent_eq_ok_iff _).1 htop)
  exact ⟨chain, top, hup, hup.nodup, hlast, htop', fun _ hstart hwalk => hup.covers hstart hwalk⟩

/-- Three bodies, each nested in the one before, and the first in the last. -/
def ringArena : Arena where
  bodies := #[{ deferred := true, nested := [⟨1⟩] }, { nested := [⟨2⟩] },
    { nested := [⟨0⟩, ⟨2⟩] }]

/-- The same bodies later: the last one nests one more, which nests another and the second. -/
def grownArena : Arena where
  bodies := #[{ nested := [⟨1⟩] }, { nested := [⟨2⟩] }, { nested := [⟨0⟩, ⟨2⟩, ⟨3⟩] },
    { nested := [⟨4⟩, ⟨1⟩] }, {}]

/-- The first body is registered; when the ring has grown, the last one is loaded again and the
second one is registered. -/
def ringHistory : History Arena where
  context := ⟨0⟩
  calls := [(.registerCode Arena.loader .script ⟨0⟩ 1, ringArena),
    (.forceLoad Arena.loader ⟨2⟩, grownArena), (.registerCode Arena.loader .eval ⟨1⟩ 2, grownArena)]

theorem parents_ringHistory : (ringHistory.journal 1).parent ⟨2⟩ = .ok (some ⟨1⟩) ∧
    (ringHistory.journal 3).parent ⟨4⟩ = .ok (some ⟨3⟩) ∧
    (ringHistory.journal 3).parent ⟨3⟩ = .ok (some ⟨2⟩) ∧
    (ringHistory.journal 3).parent ⟨2⟩ = .ok (some ⟨1⟩) ∧
    (ringHistory.journal 3).parent ⟨1⟩ = .ok none := by
  have h₁ := (ringHistory.journal_succ_of_some (n := 0) rfl).trans
    (after_registerCode (n := 4) rfl rfl .script 1)
  have h₂ := ringHistory.journal_succ_of_some (n := 1) rfl
  rw [h₁, after_forceLoad (n := 6) rfl] at h₂
  have h₃ := ringHistory.journal_succ_of_some (n := 2) rfl
  rw [h₂, after_registerCode (n := 6) rfl rfl] at h₃
  rw [h₁, h₃]
  exact ⟨rfl, rfl, rfl, rfl, rfl⟩

/-- In the ring that has grown, the way up goes on past the body that was loaded again, and ends at
the one registered last. -/
theorem chain_to_topLevel_in_ring : (∀ m < 3, ringHistory.LoadsTracked m) ∧
    (ringHistory.journal 3).parent ⟨4⟩ = .ok (some ⟨3⟩) ∧
    ∃ chain top, Ascends (ringHistory.journal 3) ⟨4⟩ chain ∧ chain.Nodup ∧
      chain.getLast? = some top ∧ (ringHistory.journal 3).isTopLevel top = true ∧
      (∀ walk : List BodyHandle, walk.head? = some ⟨4⟩ →
        walk.IsChain (fun b q => (ringHistory.journal 3).parent b = .ok (some q)) →
          walk <+: chain) ∧
      chain = [⟨4⟩, ⟨3⟩, ⟨2⟩, ⟨1⟩] := by
  obtain ⟨hloaded, h₄, h₃, h₂, h₁⟩ := parents_ringHistory
  have htracked : ∀ m < 3, ringHistory.LoadsTracked m := by
    intro m hm loader body s hc
    match m, hm with
    | 0, _ | 2, _ => simp [ringHistory] at hc
    | 1, _ =>
      obtain ⟨⟨_, rfl⟩, _⟩ : (Arena.loader = loader ∧ ⟨2⟩ = body) ∧ grownArena = s := by
        simpa [ringHistory] using hc
      exact ⟨_, hloaded⟩
  obtain ⟨chain, top, hup, hnodup, hlast, htop, hwalk⟩ :=
    chain_to_topLevel ringHistory 3 htracked h₄
  exact ⟨htracked, h₄, chain, top, hup, hnodup, hlast, htop, hwalk,
    hup.unique (.up h₄ (.up h₃ (.up h₂ (.top h₁))))⟩

end Journal

end Retrace
