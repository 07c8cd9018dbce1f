/-
# What a journal tracks of settled code

A journal covers the bodies that have been loaded (`Journal.Covers`) if it tracks all that is nested in
them, directly or not, and nothing else but top-level code.  A call that loads one more body leaves it
so, as long as the loader settles (`Journal.Covers.after`).

| why all that is nested is tracked | |
| --- | --- |
| a search opens all that it finds | `Covers.adopt` |
| it does not look into what is tracked, but what that nests is tracked already | `Covers.closed` |
| what has been parsed stays as it was | `Covers.grow` |
| a search that fails leaves nothing behind but what it has parsed | `Call.loads_cases` |

By *force-load for tracking* one call reaches every nested body (specification, section 4.2); here
that is carried on from call to call.
-/

import Retrace.Proofs.Journal.SettledCode
import Retrace.Proofs.Journal.TopLevelCode

namespace Retrace

namespace Journal

variable {σ : Type} {loader : CodeLoader σ} {Later : σ → σ → Prop}

/-! ## What is covered -/

/-- A journal tracks all that is nested in the bodies that have been loaded, and no more than that but
for top-level code. -/
structure Covers (code : NestedCode) (loaded : BodyHandle → Prop) (j : Journal) : Prop where
  /-- What is tracked is tracked with all that it nests. -/
  closed : code.Closed j.parents.contains
  /-- What has been loaded could be parsed, and what it nests is tracked. -/
  opened : ∀ body, loaded body → code.Surveyed j.parents.contains body
  /-- Top-level code has been loaded. -/
  topLevel : ∀ body, j.isTopLevel body = true → loaded body
  /-- The parents nest what they are parents of. -/
  nests : ∀ body p, j.parents.get? body = some (some p) → code.Nests p body
  /-- What is tracked is top-level code, or nested in what has been loaded. -/
  within : ∀ body, j.parents.contains body = true → j.isTopLevel body = true ∨
    ∃ outer, loaded outer ∧ Relation.TransGen code.Nests outer body

section

variable {code code' : NestedCode} {loaded : BodyHandle → Prop} {j j' : Journal}

theorem covers_fresh (code : NestedCode) (ctx : ContextId) :
    Covers code (fun _ => False) { context := ctx } where
  closed _ hb := nomatch hb
  opened _ hb := hb.elim
  topLevel _ hb := nomatch hb
  nests _ _ hb := nomatch hb
  within _ hb := nomatch hb

theorem Covers.congr {loaded' : BodyHandle → Prop} (h : Covers code loaded j)
    (hl : ∀ body, loaded' body ↔ loaded body) : Covers code loaded' j := by
  obtain rfl : loaded' = loaded := funext fun body => propext (hl body)
  exact h

theorem Covers.ofSameCode (h : Covers code loaded j) (hs : SameCode j j') :
    Covers code loaded j' where
  closed := by
    rw [hs.parents]
    exact h.closed
  opened := by
    rw [hs.parents]
    exact h.opened
  topLevel body := by
    rw [hs.isTopLevel]
    exact h.topLevel body
  nests := by
    rw [hs.parents]
    exact h.nests
  within body := by
    rw [hs.parents, hs.isTopLevel]
    exact h.within body

/-- Parsing more leaves tracked what has been, as what was parsed nests what it nested. -/
theorem Covers.grow (h : Covers code loaded j) (hg : code.Grows code') : Covers code' loaded j where
  closed := h.closed.grow hg
  opened body hb := (h.opened body hb).grow hg
  topLevel := h.topLevel
  nests body p hp := hg.nests p body (h.nests body p hp)
  within body hb := (h.within body hb).imp_right fun ⟨outer, ho, hw⟩ =>
    ⟨outer, ho, Relation.TransGen.mono hg.nests _ _ hw⟩

/-- What has been found is nested in the body that the search began with. -/
theorem transGen_of_found {known : BodyHandle → Bool} {root body : BodyHandle}
    {found : OrderedMap BodyHandle BodyHandle}
    (ho : Search.Opened code known root ⟨[], found⟩)
    (hparents : ∀ b p, found.get? b = some p → p = root ∨ found.contains p = true)
    (hb : found.contains body = true) : Relation.TransGen code.Nests root body := by
  obtain ⟨p, hp⟩ := Option.isSome_iff_exists.1 hb
  have hroot : code.Within root p := by
    rcases hparents body p hp with rfl | hf
    · exact .refl
    · exact ho.within_of_found hf
  exact .tail' hroot (ho.nests body p hp)

/-- **Adopting what a search has found leaves tracked all that is nested**, also in the body that the
search began with. -/
theorem Covers.adopt {root : BodyHandle} {found : OrderedMap BodyHandle BodyHandle}
    (h : Covers code loaded j) (ho : Search.Opened code j.parents.contains root ⟨[], found⟩)
    (hparents : ∀ b p, found.get? b = some p → p = root ∨ found.contains p = true) :
    Covers code (fun body => body = root ∨ loaded body) (j.adopt found) := by
  -- What a search has opened nests only what it found, or what it did not look for.
  have hopened : ∀ body, body = root ∨ found.contains body = true →
      code.Surveyed (j.adopt found).parents.contains body := by
    intro body hb
    obtain ⟨hr, hc⟩ := (ho.opened body hb).resolve_left List.not_mem_nil
    exact ⟨hr, fun inner hi => (contains_parents_adopt_iff j found inner).2 (hc inner hi).symm⟩
  have hold : ∀ body, j.parents.contains body = true →
      (j.adopt found).parents.contains body = true :=
    fun body hb => (contains_parents_adopt_iff j found body).2 (.inr hb)
  refine { closed := ?_, opened := ?_, topLevel := ?_, nests := ?_, within := ?_ }
  · intro body hb
    rcases (contains_parents_adopt_iff j found body).1 hb with hf | hk
    · exact hopened body (.inr hf)
    · exact (h.closed.surveyed hk).mono hold
  · rintro body (hroot | hb)
    · exact hopened body (.inl hroot)
    · exact (h.opened body hb).mono hold
  · exact fun body hb => .inr (h.topLevel body hb)
  · intro body p hp
    rw [get?_parents_adopt, Option.or_eq_some_iff] at hp
    rcases hp with hp | ⟨_, hp⟩
    · obtain ⟨q, hq, hqp⟩ := Option.map_eq_some_iff.1 hp
      cases hqp
      exact ho.nests body p hq
    · exact h.nests body p hp
  · intro body hb
    rcases (contains_parents_adopt_iff j found body).1 hb with hf | hk
    · exact .inr ⟨root, .inl rfl, transGen_of_found ho hparents hf⟩
    · exact (h.within body hk).imp_right fun ⟨outer, hl, hw⟩ => ⟨outer, .inr hl, hw⟩

/-- Adding top-level code that has been loaded leaves tracked all that is nested. -/
theorem Covers.addLoad (h : Covers code loaded j) {new : LoadedCode} (hb : loaded new.body) :
    Covers code loaded (j.addLoad new) := by
  have hold : ∀ body, j.parents.contains body = true →
      (j.addLoad new).parents.contains body = true :=
    fun body hb => (contains_parents_addLoad_iff j new body).2 (.inr hb)
  refine { closed := ?_, opened := ?_, topLevel := ?_, nests := ?_, within := ?_ }
  · intro body hbody
    rcases (contains_parents_addLoad_iff j new body).1 hbody with rfl | hk
    · exact (h.opened _ hb).mono hold
    · exact (h.closed.surveyed hk).mono hold
  · exact fun body hbody => (h.opened body hbody).mono hold
  · intro body htop
    rcases (isTopLevel_addLoad_iff j new body).1 htop with htop | rfl
    · exact h.topLevel body htop
    · exact hb
  · intro body p hp
    by_cases he : new.body = body
    · rw [← he, get?_parents_addLoad_self] at hp
      cases hp
    · rw [get?_parents_addLoad_of_ne j he] at hp
      exact h.nests body p hp
  · intro body hbody
    rw [isTopLevel_addLoad_iff]
    rcases (contains_parents_addLoad_iff j new body).1 hbody with he | hk
    · exact .inl (.inr he)
    · exact (h.within body hk).imp_left .inl

end

/-! ## What a call loads -/

/-- Whether a call loads a body, be it to register it or on its own, and succeeds. -/
def Call.Loads : Call σ → Journal × σ → BodyHandle → Prop
  | registerCode loader origin root counter, t, body => body = root ∧
      ∃ new t', Journal.registerCode loader origin root counter t = .ok new t'
  | forceLoad loader root, t, body => body = root ∧
      ∃ t', Journal.forceLoad loader root t = .ok () t'
  | _, _, _ => False

/-- If a call loads code, it does so with a certain loader. -/
def Call.Uses (loader : CodeLoader σ) : Call σ → Prop
  | registerCode used _ _ _ => used = loader
  | forceLoad used _ => used = loader
  | _ => True

section

variable {c : Call σ} {t : Journal × σ}

/-- A call forgets all code; or it leaves the code alone, and loads at most what is top-level code
already; or it adopts what is nested in the one body that it loads, and maybe adds that as code. -/
theorem Call.loads_cases (hc : c.Uses loader) (t : Journal × σ) :
    c.forgetsCode = true ∧ (c.run.after t).2 = t.2 ∨
      (SameCode t.1 (c.run.after t).1 ∧ (∀ body, c.Loads t body → t.1.isTopLevel body = true) ∧
        ((c.run.after t).2 = t.2 ∨ ∃ root e,
          nestedParents loader t.1.parents.contains root t.2 = .error e (c.run.after t).2)) ∨
      ∃ root found,
        nestedParents loader t.1.parents.contains root t.2 = .ok found (c.run.after t).2 ∧
          (∀ body, c.Loads t body ↔ body = root) ∧
            ((c.run.after t).1 = t.1.adopt found ∨
              ∃ new, new.body = root ∧ (c.run.after t).1 = (t.1.adopt found).addLoad new) := by
  cases c with
  | scheduleWrite | clearPending | pinWeak =>
    exact .inr (.inl ⟨⟨rfl, rfl, rfl, rfl⟩, fun _ hl => hl.elim, .inl rfl⟩)
  | completeWrite buffer final =>
    rw [Call.run, Action.after_map_beside]
    exact .inr (.inl ⟨sameCode_completeWrite buffer final t.1, fun _ hl => hl.elim, .inl rfl⟩)
  | unpinWeak obj =>
    rw [Call.run, Action.after_map_beside]
    exact .inr (.inl ⟨⟨rfl, rfl, rfl, rfl⟩, fun _ hl => hl.elim, .inl rfl⟩)
  | clearLoads => exact .inl ⟨rfl, rfl⟩
  | registerCode used origin root counter =>
    obtain rfl : used = loader := hc
    rw [Call.run, Action.after_map]
    rcases registerCode_cases used origin root counter t with
      ⟨htop, he⟩ | ⟨_, ⟨e, st, hn, he⟩ | ⟨found, st, hn, he⟩⟩
    · rw [Action.after_of_eq_ok he]
      refine .inr (.inl ⟨.refl t.1, ?_, .inl rfl⟩)
      rintro body ⟨rfl, _⟩
      exact htop
    · rw [Action.after_of_eq_error he]
      refine .inr (.inl ⟨.refl t.1, ?_, .inr ⟨root, e, hn⟩⟩)
      rintro body ⟨_, _, _, hok⟩
      cases he.symm.trans hok
    · rw [Action.after_of_eq_ok he]
      refine .inr (.inr ⟨root, found, hn, fun _ => and_iff_left ⟨_, _, he⟩, ?_⟩)
      exact .inr ⟨_, rfl, rfl⟩
  | forceLoad used root =>
    obtain rfl : used = loader := hc
    rw [Call.run, Action.after_map]
    rcases forceLoad_cases used root t with ⟨e, st, hn, he⟩ | ⟨found, st, hn, he⟩
    · rw [Action.after_of_eq_error he]
      refine .inr (.inl ⟨.refl t.1, ?_, .inr ⟨root, e, hn⟩⟩)
      rintro body ⟨_, _, hok⟩
      cases he.symm.trans hok
    · rw [Action.after_of_eq_ok he]
      exact .inr (.inr ⟨root, found, hn, fun _ => and_iff_left ⟨_, he⟩, .inl rfl⟩)

/-- **What a call makes of its surroundings may become of them**, be it refused or not. -/
theorem Call.later_after (hl : loader.Settles Later) (hc : c.Uses loader) (t : Journal × σ) :
    Later t.2 (c.run.after t).2 := by
  rcases Call.loads_cases hc t with
    ⟨_, hst⟩ | ⟨_, _, hst | ⟨root, e, hn⟩⟩ | ⟨root, found, hn, _⟩
  · exact hst ▸ hl.refl t.2
  · exact hst ▸ hl.refl t.2
  · exact later_of_nestedParents_eq_error hl hn
  · exact (opened_of_nestedParents hl hn).1

/-- **After a call all is tracked that is nested in what had been loaded, and in what it loads.** -/
theorem Covers.after {loaded : BodyHandle → Prop} (hl : loader.Settles Later)
    (hc : c.Uses loader) (hf : c.forgetsCode = false)
    (h : Covers (loader.settled Later t.2) loaded t.1) :
    Covers (loader.settled Later (c.run.after t).2) (fun body => c.Loads t body ∨ loaded body)
      (c.run.after t).1 := by
  have hgrown := h.grow (hl.grows (Call.later_after hl hc t))
  rcases Call.loads_cases hc t with
    ⟨hforgets, _⟩ | ⟨hsame, htop, _⟩ | ⟨root, found, hn, hroot, hj⟩
  · cases hf.symm.trans hforgets
  · refine (hgrown.ofSameCode hsame).congr fun body => ?_
    exact or_iff_right_of_imp fun hb => h.topLevel body (htop body hb)
  · have hadopt := hgrown.adopt (opened_of_nestedParents hl hn).2
      fun b p => parent_found_of_nestedParents hn
    refine Covers.congr ?_ fun body => or_congr_left (hroot body)
    rcases hj with hj | ⟨new, rfl, hj⟩
    · rw [hj]
      exact hadopt
    · rw [hj]
      exact hadopt.addLoad (.inl rfl)

end

end Journal

end Retrace
