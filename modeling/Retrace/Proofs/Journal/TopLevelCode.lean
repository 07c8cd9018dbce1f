/-
# Top-level code is registered once, everywhere

A journal tells in six places which code is top-level: the lists of scripts, dynamic functions and
evals, the set of bodies that `isTopLevel` asks, the pinned bodies, and the bodies that have no parent.
They never disagree, and the lists are what the answers of the calls made them (`topLevel_agrees`).

| place | kept in step by |
| --- | --- |
| the lists | code is added only if the set has not its body |
| the set | adding code adds its body, and nothing else does |
| the pins | adding code pins its body once, and nothing else pins a body |
| the parents | a search finds what has no entry, so an entry without parent is never replaced |

These are the lists of *register loaded code* and what it pins (specification, section 4.2), and the
absent parent by which the data model tells top-level code (section 3).
-/

import Retrace.Proofs.Journal.History

namespace Retrace

/-! ## The three lists together -/

namespace CodeLists

/-- Appending code lengthens the list of its origin, and no other. -/
theorem of_add (l : CodeLists) (code : LoadedCode) (origin : CodeOrigin) :
    (l.add code).of origin = l.of origin ++ if code.origin = origin then [code] else [] := by
  obtain ⟨body, kind, counter, sourceName⟩ := code
  cases kind <;> cases origin <;> simp [add, of]

/-- The code listed after one more has been appended is that one and what was listed before. -/
theorem perm_all_add (l : CodeLists) (code : LoadedCode) :
    (l.add code).all.Perm (code :: l.all) := by
  obtain ⟨body, kind, counter, sourceName⟩ := code
  cases kind with
  | script =>
    simp only [add, all, List.append_assoc, List.singleton_append]
    exact List.perm_middle
  | newFunction =>
    simp only [add, all, List.append_assoc, List.singleton_append]
    rw [← List.append_assoc, ← List.append_assoc]
    exact List.perm_middle
  | eval =>
    simp only [add, all]
    rw [← List.append_assoc]
    exact List.perm_append_singleton _ _

end CodeLists

namespace Journal

variable {σ : Type}

/-! ## What keeps the places in step -/

/-- All places agree on which code is top-level: the three lists, the set of bodies, the pins and
the parents. -/
structure CodeInOrder (j : Journal) : Prop where
  /-- No body is listed twice, be it in one list or in two. -/
  distinct : (j.loadedCode.map (·.body)).Nodup
  /-- The bodies that are listed are those of top-level code. -/
  listed : ∀ body, body ∈ j.loadedCode.map (·.body) ↔ j.isTopLevel body = true
  /-- The bodies of top-level code are pinned once, and no others. -/
  pinned : ∀ body, j.pinnedBodies.counts.get? body = if j.isTopLevel body then some 1 else none
  /-- The bodies of top-level code have entries without parent, and no others. -/
  parentless : ∀ body, j.parents.get? body = some none ↔ j.isTopLevel body = true

theorem codeInOrder_fresh (ctx : ContextId) : CodeInOrder { context := ctx } where
  distinct := .nil
  listed _ := by simp [loadedCode, CodeLists.all]
  pinned _ := rfl
  parentless _ := by simp

theorem CodeInOrder.ofSameCode {j j' : Journal} (h : CodeInOrder j) (hs : SameCode j j') :
    CodeInOrder j' where
  distinct := by
    rw [loadedCode, hs.lists]
    exact h.distinct
  listed body := by
    rw [loadedCode, hs.lists, hs.isTopLevel]
    exact h.listed body
  pinned body := by
    rw [hs.pinnedBodies, hs.isTopLevel]
    exact h.pinned body
  parentless body := by
    rw [hs.parents, hs.isTopLevel]
    exact h.parentless body

/-- Adopting what was not known leaves the places in step, since all of it gets a parent and none of
it is top-level. -/
theorem CodeInOrder.adopt {j : Journal} (h : CodeInOrder j)
    {found : OrderedMap BodyHandle BodyHandle}
    (hnew : ∀ b, found.contains b = true → j.parents.contains b = false) :
    CodeInOrder (j.adopt found) where
  distinct := h.distinct
  listed := h.listed
  pinned := h.pinned
  parentless body := by
    refine Iff.trans ?_ (h.parentless body)
    rw [get?_parents_adopt]
    cases hf : found.get? body with
    | none => exact Iff.rfl
    | some p =>
      -- A body that has been found has a parent, and had no entry before.
      have hnone : j.parents.get? body = none :=
        j.parents.get?_eq_none_iff.2 (hnew body (OrderedMap.contains_of_get? hf))
      simp [hnone]

/-- Adding code whose body is not listed leaves the places in step. -/
theorem CodeInOrder.addLoad {j : Journal} (h : CodeInOrder j) {code : LoadedCode}
    (hnew : j.isTopLevel code.body = false) : CodeInOrder (j.addLoad code) where
  distinct := by
    have hmem : code.body ∉ j.loadedCode.map (·.body) := by
      rw [h.listed, hnew]
      exact Bool.false_ne_true
    exact ((j.lists.perm_all_add code).map (·.body)).nodup_iff.2
      (List.nodup_cons.2 ⟨hmem, h.distinct⟩)
  listed body := by
    rw [isTopLevel_addLoad_iff, ← h.listed body]
    refine ((j.lists.perm_all_add code).map (·.body)).mem_iff.trans ?_
    rw [List.map_cons, List.mem_cons, or_comm, @eq_comm _ body]
    rfl
  pinned body := by
    have hcount : j.pinnedBodies.count code.body = 0 := by
      rw [PinSet.count, h.pinned, hnew]
      rfl
    show (j.pinnedBodies.counts.insert code.body (j.pinnedBodies.count code.body + 1)).get? body = _
    by_cases hb : code.body = body
    · subst hb
      rw [OrderedMap.get?_insert_self, hcount,
        if_pos ((isTopLevel_addLoad_iff j code _).2 (.inr rfl))]
    · have htop : (j.addLoad code).isTopLevel body = j.isTopLevel body := by
        rw [Bool.eq_iff_iff, isTopLevel_addLoad_iff, or_iff_left hb]
      rw [OrderedMap.get?_insert_of_ne _ _ hb, h.pinned, htop]
  parentless body := by
    rw [isTopLevel_addLoad_iff]
    by_cases hb : code.body = body
    · subst hb
      simp [get?_parents_addLoad_self]
    · rw [get?_parents_addLoad_of_ne j hb, or_iff_left hb]
      exact h.parentless body

/-- **A step leaves the places in step**, whichever of the four it is. -/
theorem CodeInOrder.step {c : Call σ} {t : Journal × σ} {j : Journal} (h : CodeInOrder t.1)
    (hs : CodeStep c t j) : CodeInOrder j := by
  cases hs with
  | same _ _ hs => exact h.ofSameCode hs
  | registered _ htop hn _ => exact (h.adopt (nestedParents_spec hn).unknown).addLoad htop
  | loaded _ hn => exact h.adopt (nestedParents_spec hn).unknown
  | cleared => exact (codeInOrder_fresh t.1.context).ofSameCode ⟨rfl, rfl, rfl, rfl⟩

namespace History

theorem codeInOrder (h : History σ) (n : Nat) : CodeInOrder (h.journal n) :=
  h.journal_induction (codeInOrder_fresh h.context) n fun _ _ _ _ hj hs => hj.step hs

/-- Each list holds what has been registered of its origin by the answers, in that order. -/
theorem loadsOf_eq_registrations (h : History σ) (n : Nat) (origin : CodeOrigin) :
    (h.journal n).loadsOf origin =
      (h.registrations n).filter fun code => code.origin = origin := by
  induction n with
  | zero => cases origin <;> rfl
  | succ n ih =>
    rw [registrations]
    rcases h.journal_succ n with ⟨hc, he⟩ | ⟨c, hc, hs⟩
    · rw [he, ih, forgetsCode, newCode?, hc]
      simp
    · rw [h.forgetsCode_of_some hc, h.newCode?_of_some hc]
      generalize h.journal (n + 1) = j at hs ⊢
      cases hs with
      | same hf hn hs =>
        rw [hf, hn, loadsOf, hs.lists, ← loadsOf, ih]
        simp
      | registered hcall _ _ hn =>
        rw [hn, hcall, loadsOf, addLoad, CodeLists.of_add]
        simp only [Call.forgetsCode, Bool.false_eq_true, if_false, Option.toList_some,
          List.filter_append, ← ih]
        refine congrArg ((h.journal n).loadsOf origin ++ ·) ?_
        simp [List.filter_cons]
      | loaded hcall _ =>
        rw [hcall]
        simp only [Call.forgetsCode, Bool.false_eq_true, if_false, Call.newCode?,
          Option.toList_none, List.append_nil, ← ih]
        rfl
      | cleared hcall =>
        rw [hcall]
        cases origin <;> rfl

/-- A body is top-level exactly if the answers say that it has been registered. -/
theorem isTopLevel_iff_registered (h : History σ) (n : Nat) (body : BodyHandle) :
    (h.journal n).isTopLevel body = true ↔ body ∈ (h.registrations n).map (·.body) := by
  have hlisted : ∀ code, code ∈ (h.journal n).loadedCode ↔ code ∈ h.registrations n := by
    intro code
    have hof : ∀ origin, code ∈ (h.journal n).loadsOf origin ↔
        code ∈ h.registrations n ∧ code.origin = origin := by
      intro origin
      rw [h.loadsOf_eq_registrations, List.mem_filter, decide_eq_true_eq]
    have hscript := hof .script
    have hnew := hof .newFunction
    have heval := hof .eval
    simp only [loadsOf, CodeLists.of] at hscript hnew heval
    rw [loadedCode, CodeLists.all, List.mem_append, List.mem_append, hscript, hnew, heval]
    cases code.origin <;> simp
  rw [← (h.codeInOrder n).listed, List.mem_map, List.mem_map]
  simp only [hlisted]

end History

/-- **Top-level code is registered once, everywhere.**  After any calls of any history, whatever
loaders they come with and whichever of them fail: no body is listed twice; the bodies that are
listed are those of which `isTopLevel` holds, those that are pinned, each of them once, and those
that have no parent; and the list of each origin holds, in the order of the calls, the code that
these have answered to be new since code was last forgotten, and no other. -/
theorem topLevel_agrees (h : History σ) (n : Nat) :
    ((h.journal n).loadedCode.map (·.body)).Nodup ∧
      (∀ body, body ∈ (h.journal n).loadedCode.map (·.body) ↔
        (h.journal n).isTopLevel body = true) ∧
      (∀ body, body ∈ (h.journal n).pinnedBodies.handles ↔
        (h.journal n).isTopLevel body = true) ∧
      (∀ body, (h.journal n).pinnedBodies.count body =
        if (h.journal n).isTopLevel body then 1 else 0) ∧
      (∀ body, (h.journal n).parent body = .ok none ↔ (h.journal n).isTopLevel body = true) ∧
      ∀ origin, (h.journal n).loadsOf origin =
        (h.registrations n).filter fun code => code.origin = origin := by
  have ho := h.codeInOrder n
  refine ⟨ho.distinct, ho.listed, fun body => ?_, fun body => ?_, fun body => ?_,
    h.loadsOf_eq_registrations n⟩
  · rw [PinSet.mem_handles_iff, PinSet.contains, OrderedMap.contains, ho.pinned]
    cases (h.journal n).isTopLevel body <;> simp
  · rw [PinSet.count, ho.pinned]
    cases (h.journal n).isTopLevel body <;> rfl
  · rw [parent_eq_ok_iff, ho.parentless]

end Journal

end Retrace
