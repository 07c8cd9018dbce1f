/-
# Searches in code that stays as it is

A loader shows steady code (`CodeLoader.Shows`) if it refuses always the same bodies, and tells of
each of the others, once it is parsed, always the same bodies nested in it.  Then a search can be
told by the code alone:

| the search | |
| --- | --- |
| succeeds | if and only if nothing that cannot be parsed is within the body that it began with |
| finds | all that is within that body and was not known, each under a body that nests it |

This takes that what is known can be parsed, and nests only what is known too (`NestedCode.Closed`):
the search does not look there.  An arena shows the code that it holds, `refusing` takes bodies out.

The specification leaves it to the engine how a body is parsed (section 6); this is the engine that
always gives the same answers.
-/

import Mathlib.Logic.Relation
import Retrace.Arena
import Retrace.Proofs.Journal.Nesting

namespace Retrace

/-- Code that stays as it is: which bodies can be parsed, and what each of them nests, do not change
while it is loaded. -/
structure NestedCode where
  /-- The bodies that cannot be parsed. -/
  refused : BodyHandle → Prop
  /-- The bodies nested directly in each of the others. -/
  nested : BodyHandle → List BodyHandle

namespace NestedCode

variable {code : NestedCode}

/-- The one body nests the other directly. -/
def Nests (code : NestedCode) (outer inner : BodyHandle) : Prop := inner ∈ code.nested outer

/-- The other body is the one, or nested in it, directly or not, whether or not the bodies on the way
are refused. -/
def Within (code : NestedCode) (outer inner : BodyHandle) : Prop :=
  Relation.ReflTransGen code.Nests outer inner

/-- Nothing within a body is refused, so that it can be loaded to its last nested body. -/
def Sound (code : NestedCode) (body : BodyHandle) : Prop :=
  ∀ inner, code.Within body inner → ¬code.refused inner

/-- Bodies that can be parsed, with all that they nest. -/
def Closed (code : NestedCode) (known : BodyHandle → Bool) : Prop :=
  ∀ outer, known outer = true →
    ¬code.refused outer ∧ ∀ inner, code.Nests outer inner → known inner = true

/-- What is known is known with all that is within. -/
theorem Closed.within {known : BodyHandle → Bool} (h : code.Closed known) {outer inner : BodyHandle}
    (ho : known outer = true) (hw : code.Within outer inner) : known inner = true := by
  induction hw with
  | refl => exact ho
  | tail _ hn ih => exact (h _ ih).2 _ hn

end NestedCode

/-- A loader shows steady code, as long as its surroundings are good; and they stay good. -/
structure CodeLoader.Shows {σ : Type} (loader : CodeLoader σ) (code : NestedCode)
    (good : σ → Prop) : Prop where
  /-- What is refused is always refused. -/
  refuses : ∀ st body, good st → code.refused body →
    ∃ e st', loader.forceParse body st = .error e st' ∧ good st'
  /-- What is not is always parsed, and then nests what it always nests. -/
  parses : ∀ st body, good st → ¬code.refused body →
    ∃ st', loader.forceParse body st = .ok () st' ∧
      loader.nestedBodies st' body = code.nested body ∧ good st'

namespace CodeLoader.Shows

variable {σ : Type} {loader : CodeLoader σ} {code : NestedCode} {good : σ → Prop}
  {body : BodyHandle} {st st' : σ}

theorem of_ok (h : loader.Shows code good) (hg : good st)
    (hp : loader.forceParse body st = .ok () st') :
    ¬code.refused body ∧ loader.nestedBodies st' body = code.nested body ∧ good st' := by
  by_cases hr : code.refused body
  · obtain ⟨e, st₁, he, _⟩ := h.refuses st body hg hr
    cases he.symm.trans hp
  · obtain ⟨st₁, he, hn, hg'⟩ := h.parses st body hg hr
    cases he.symm.trans hp
    exact ⟨hr, hn, hg'⟩

theorem of_error {e : Error} (h : loader.Shows code good) (hg : good st)
    (hp : loader.forceParse body st = .error e st') : code.refused body ∧ good st' := by
  by_cases hr : code.refused body
  · obtain ⟨e₁, st₁, he, hg'⟩ := h.refuses st body hg hr
    cases he.symm.trans hp
    exact ⟨hr, hg'⟩
  · obtain ⟨st₁, he, _⟩ := h.parses st body hg hr
    cases he.symm.trans hp

/-- Refusing further bodies leaves the code steady: fewer can be parsed, and the others nest what
they did. -/
theorem refusing (h : loader.Shows code good) (refused : List BodyHandle) :
    (loader.refusing refused).Shows
      { code with refused := fun body => body ∈ refused ∨ code.refused body } good where
  refuses st body hg hr := by
    by_cases hm : body ∈ refused
    · exact ⟨_, st, if_pos hm, hg⟩
    · obtain ⟨e, st', he, hg'⟩ := h.refuses st body hg (hr.resolve_left hm)
      exact ⟨e, st', (if_neg hm).trans he, hg'⟩
  parses st body hg hr := by
    obtain ⟨hm, hr⟩ := not_or.1 hr
    obtain ⟨st', he, hn, hg'⟩ := h.parses st body hg hr
    exact ⟨st', (if_neg hm).trans he, hn, hg'⟩

end CodeLoader.Shows

/-! ## Arenas -/

namespace Arena

/-- The code of an arena: a body that is not there cannot be parsed. -/
def code (a : Arena) : NestedCode where
  refused body := a.body? body = none
  nested body := ((a.body? body).map (·.nested)).getD []

/-- Two arenas have the same bodies, which nest the same, whatever has been parsed of them. -/
def SameNesting (a a' : Arena) : Prop :=
  ∀ body, (a'.body? body).map (·.nested) = (a.body? body).map (·.nested)

theorem SameNesting.code_eq {a a' : Arena} (h : SameNesting a a') : a'.code = a.code := by
  have hnone : ∀ body, a'.body? body = none ↔ a.body? body = none := fun body => by
    rw [← Option.map_eq_none_iff, h body, Option.map_eq_none_iff]
  unfold code
  congr 1
  · exact funext fun body => propext (hnone body)
  · exact funext fun body => congrArg (·.getD []) (h body)

theorem body?_setBody (a : Arena) {body : BodyHandle} {b : ArenaBody} (hb : a.body? body = some b)
    (b' : ArenaBody) (other : BodyHandle) :
    (a.setBody body b').body? other = if other = body then some b' else a.body? other := by
  have hlt : body.index.toNat < a.bodies.size := (Array.getElem?_eq_some_iff.1 hb).1
  unfold setBody body?
  rw [Array.getElem?_setIfInBounds]
  by_cases he : other = body
  · rw [he, if_pos rfl, if_pos hlt, if_pos rfl]
  · have hne : body.index.toNat ≠ other.index.toNat := fun hi =>
      he (Numbered.number_injective hi.symm)
    rw [if_neg hne, if_neg he]

theorem forceParse_of_none {a : Arena} {body : BodyHandle} (h : a.body? body = none) :
    forceParse body a = .error (.notFound .functionBody (toString body)) a := by
  rw [forceParse, h]

theorem forceParse_of_some {a : Arena} {body : BodyHandle} {b : ArenaBody}
    (h : a.body? body = some b) : forceParse body a = .ok () (if b.deferred then
      { a.setBody body { b with deferred := false } with parseCount := a.parseCount + 1 }
      else a) := by
  rw [forceParse, h]
  dsimp only
  cases b.deferred <;> rfl

/-- **An arena shows the code that it holds**, whatever has been parsed of it. -/
theorem loader_shows (a : Arena) : loader.Shows a.code (SameNesting a) where
  refuses st body hg hr := by
    rw [← hg.code_eq] at hr
    exact ⟨_, st, forceParse_of_none hr, hg⟩
  parses st body hg hr := by
    rw [← hg.code_eq] at hr ⊢
    obtain ⟨b, hb⟩ := Option.ne_none_iff_exists'.1 hr
    have hnested : st.code.nested body = b.nested := by
      show ((st.body? body).map (·.nested)).getD [] = b.nested
      rw [hb]
      rfl
    rw [hnested]
    refine ⟨_, forceParse_of_some hb, ?_⟩
    cases hd : b.deferred with
    | false =>
      refine ⟨?_, hg⟩
      show nestedBodies st body = b.nested
      rw [nestedBodies, hb]
      simp [hd]
    | true =>
      have hset := st.body?_setBody hb { b with deferred := false }
      refine ⟨?_, fun other => ?_⟩
      · show nestedBodies (st.setBody body { b with deferred := false }) body = b.nested
        rw [nestedBodies, hset, if_pos rfl]
        rfl
      · show ((st.setBody body { b with deferred := false }).body? other).map (·.nested) = _
        rw [← hg other, hset]
        by_cases he : other = body
        · rw [if_pos he, he, hb]
          rfl
        · rw [if_neg he]

end Arena

/-! ## Searches -/

namespace Search

variable {σ : Type} {loader : CodeLoader σ} {known : BodyHandle → Bool} {code : NestedCode}
  {root : BodyHandle}

/-- What has been found leads up to the body that the search began with because it is within. -/
theorem LeadsUp.within {found : OrderedMap BodyHandle BodyHandle}
    (hnests : ∀ b p, found.get? b = some p → code.Nests p b) {body : BodyHandle}
    (h : LeadsUp found root body) : code.Within root body := by
  induction h with
  | root => exact .refl
  | nested hb _ ih => exact ih.tail (hnests _ _ hb)

/-- A search in steady code has opened what is not stacked: that can be parsed, and all that it
nests is known or found. -/
structure Opened (code : NestedCode) (known : BodyHandle → Bool) (root : BodyHandle) (s : Search) :
    Prop where
  /-- What has been found is a tree. -/
  below : Below known root s
  /-- The parents found nest what they were found for. -/
  nests : ∀ b p, s.found.get? b = some p → code.Nests p b
  /-- What is found and not stacked could be parsed, and what it nests is known or found. -/
  opened : ∀ b, b = root ∨ s.found.contains b = true → b ∈ s.stack ∨
    ¬code.refused b ∧ ∀ c, code.Nests b c → known c = true ∨ s.found.contains c = true

theorem opened_start (code : NestedCode) (known : BodyHandle → Bool) (root : BodyHandle) :
    Opened code known root ⟨[root], .empty⟩ where
  below := below_start known root
  nests _ _ hb := nomatch hb
  opened _ hb := .inl (List.mem_singleton.2 (hb.resolve_right nofun))

/-- Opening a body that can be parsed keeps the search in order. -/
theorem Opened.noteAll {body : BodyHandle} {stack : List BodyHandle}
    {found : OrderedMap BodyHandle BodyHandle} (h : Opened code known root ⟨body :: stack, found⟩)
    (hbody : ¬code.refused body) :
    Opened code known root (noteAll known body (code.nested body) ⟨stack, found⟩) := by
  have hn := noted_noteAll known body (code.nested body) ⟨stack, found⟩
  have hbelow := h.below.noteAll (code.nested body)
  generalize Search.noteAll known body (code.nested body) ⟨stack, found⟩ = s' at hn hbelow ⊢
  refine ⟨hbelow, fun b p hb => ?_, fun b hb => ?_⟩
  · rcases hn.added b p hb with hb | ⟨rfl, hc, _⟩
    · exact h.nests b p hb
    · exact hc
  · -- The body on top is open now; what was found before is as it was; what is new is stacked.
    have hold (hb : b = root ∨ found.contains b = true) : b ∈ s'.stack ∨
        ¬code.refused b ∧ ∀ c, code.Nests b c → known c = true ∨ s'.found.contains c = true := by
      rcases h.opened b hb with hs | ⟨hr, hc⟩
      · rcases List.mem_cons.1 hs with rfl | hs
        · exact .inr ⟨hbody, hn.covered⟩
        · exact .inl (hn.waiting b hs)
      · exact .inr ⟨hr, fun c hbc => (hc c hbc).imp_right hn.contains⟩
    rcases hb with hb | hb
    · exact hold (.inl hb)
    · obtain ⟨p, hp⟩ := Option.isSome_iff_exists.1 hb
      rcases hn.added b p hp with hp | ⟨_, _, _, hs⟩
      · exact hold (.inr (OrderedMap.contains_of_get? hp))
      · exact .inl hs

theorem Opened.within_of_mem {s : Search} (h : Opened code known root s) {b : BodyHandle}
    (hb : b ∈ s.stack) : code.Within root b :=
  (h.below.leadsUp_of_mem hb).within h.nests

theorem Opened.within_of_found {s : Search} (h : Opened code known root s) {b : BodyHandle}
    (hb : s.found.contains b = true) : code.Within root b :=
  (h.below.leadsUp b hb).within h.nests

/-- When nothing is left to open, the bodies known and found are closed, with the body that the
search began with. -/
theorem Opened.closed {found : OrderedMap BodyHandle BodyHandle}
    (h : Opened code known root ⟨[], found⟩) (hknown : code.Closed known) :
    code.Closed fun b => decide (b = root) || found.contains b || known b := by
  intro outer ho
  have hcases : (outer = root ∨ found.contains outer = true) ∨ known outer = true := by
    simpa using ho
  rcases hcases with ho | ho
  · obtain ⟨hr, hc⟩ := (h.opened outer ho).resolve_left List.not_mem_nil
    refine ⟨hr, fun inner hi => ?_⟩
    rcases hc inner hi with hk | hf
    · simp [hk]
    · simp [hf]
  · refine ⟨(hknown outer ho).1, fun inner hi => ?_⟩
    simp [(hknown outer ho).2 inner hi]

end Search

variable {σ : Type} {loader : CodeLoader σ} {known : BodyHandle → Bool} {code : NestedCode}
  {good : σ → Prop} {root : BodyHandle} {st : σ}

/-- **A search in steady code opens all that it finds, or comes upon a body that is refused.** -/
theorem nestedParents_of_shows (hl : loader.Shows code good) (hg : good st)
    (known : BodyHandle → Bool) (root : BodyHandle) :
    (∃ found st', nestedParents loader known root st = .ok found st' ∧ good st' ∧
        Search.Opened code known root ⟨[], found⟩) ∨
      ∃ e st', nestedParents loader known root st = .error e st' ∧ good st' ∧
        ∃ body, code.Within root body ∧ code.refused body := by
  have hopened : ∀ {body stack found st st'},
      Search.Opened code known root ⟨body :: stack, found⟩ ∧ good st →
      loader.forceParse body st = .ok () st' →
        Search.Opened code known root
          (Search.noteAll known body (loader.nestedBodies st' body) ⟨stack, found⟩) ∧ good st' := by
    intro body stack found st st' hs hp
    obtain ⟨hr, hn, hg'⟩ := hl.of_ok hs.2 hp
    rw [hn]
    exact ⟨hs.1.noteAll hr, hg'⟩
  rcases Search.run_cases (P := fun s st => Search.Opened code known root s ∧ good st) hopened
      ⟨Search.opened_start code known root, hg⟩ with
    ⟨found, st', he, ho, hg'⟩ | ⟨e, st', he, body, stack, found, st₁, ⟨ho, hg₁⟩, hp⟩
  · exact .inl ⟨found, st', he, hg', ho⟩
  · obtain ⟨hr, hg'⟩ := hl.of_error hg₁ hp
    exact .inr ⟨e, st', he, hg', body, ho.within_of_mem List.mem_cons_self, hr⟩

end Retrace
