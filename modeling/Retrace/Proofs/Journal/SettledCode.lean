/-
# Searches in code that settles as it is parsed

A loader may keep to itself what a body nests until it is parsed, and refuse a body at one time and not
at another.  It settles (`CodeLoader.Settles`) if what it shows of a body stays as it is once the body
has been parsed, through all that it parses later and whatever else may happen between.

What has been parsed by a certain state is then code that only grows (`CodeLoader.Settles.grows`).  A
search that succeeds has opened, in the code of the state in which it ends, all that it finds and the
body that it began with (`nestedParents_of_settles`).  An arena settles, as long as parsed bodies are
left alone (`Arena.loader_settles`).

The specification knows of bodies that are parsed lazily (section 4.2), which is why a loader may
show more later on.
-/

import Retrace.Proofs.Journal.Run
import Retrace.Proofs.Journal.SteadyCode

namespace Retrace

variable {σ : Type} {loader : CodeLoader σ} {Later : σ → σ → Prop} {st st' : σ}
  {body outer inner : BodyHandle}

/-- What a loader shows of a body stays as it is once the body has been parsed.  `Later` tells what may
become of a state. -/
structure CodeLoader.Settles (loader : CodeLoader σ) (Later : σ → σ → Prop) : Prop where
  /-- Nothing has to become of a state. -/
  refl : ∀ st, Later st st
  /-- What may become of a state later on may become of it. -/
  trans : ∀ {a b c}, Later a b → Later b c → Later a c
  /-- A body may be parsed, or refused. -/
  after : ∀ body st, Later st ((loader.forceParse body).after st)
  /-- A body that has been parsed nests from then on what it nests then. -/
  keeps : ∀ {body before st st'}, loader.forceParse body before = .ok () st → Later st st' →
    loader.nestedBodies st' body = loader.nestedBodies st body

/-- By a certain state a body has been parsed with success. -/
def CodeLoader.Parsed (loader : CodeLoader σ) (Later : σ → σ → Prop) (st : σ) (body : BodyHandle) :
    Prop :=
  ∃ before st₁, loader.forceParse body before = .ok () st₁ ∧ Later st₁ st

/-- In a certain state the one body is shown nested directly in the other. -/
def CodeLoader.Nests (loader : CodeLoader σ) (st : σ) (outer inner : BodyHandle) : Prop :=
  inner ∈ loader.nestedBodies st outer

open Classical in
/-- The code that has been parsed by a certain state, where what has not been parsed counts as
refused. -/
noncomputable def CodeLoader.settled (loader : CodeLoader σ) (Later : σ → σ → Prop) (st : σ) :
    NestedCode where
  refused body := ¬loader.Parsed Later st body
  nested body := if loader.Parsed Later st body then loader.nestedBodies st body else []

theorem CodeLoader.nests_settled_iff : (loader.settled Later st).Nests outer inner ↔
    loader.Parsed Later st outer ∧ loader.Nests st outer inner := by
  dsimp only [NestedCode.Nests, settled]
  by_cases hp : loader.Parsed Later st outer
  · rw [if_pos hp]
    exact (and_iff_right hp).symm
  · rw [if_neg hp]
    exact ⟨fun hi => absurd hi List.not_mem_nil, fun ⟨hp', _⟩ => absurd hp' hp⟩

theorem CodeLoader.not_refused_settled_iff :
    ¬(loader.settled Later st).refused body ↔ loader.Parsed Later st body :=
  Classical.not_not

/-- What has been parsed stays so, and nests what it nested. -/
theorem CodeLoader.Settles.keepsParsed (hl : loader.Settles Later) (h : Later st st')
    (hb : loader.Parsed Later st body) : loader.Parsed Later st' body ∧
      loader.nestedBodies st' body = loader.nestedBodies st body := by
  obtain ⟨before, st₁, hp, h₁⟩ := hb
  refine ⟨⟨before, st₁, hp, hl.trans h₁ h⟩, ?_⟩
  rw [hl.keeps hp (hl.trans h₁ h), hl.keeps hp h₁]

/-! ## Code that grows -/

/-- The other code is the one with more bodies, which that refuses. -/
structure NestedCode.Grows (code code' : NestedCode) : Prop where
  /-- What is not refused is not refused then. -/
  parsed : ∀ body, ¬code.refused body → ¬code'.refused body
  /-- It nests what it nested. -/
  same : ∀ outer inner, ¬code.refused outer → (code'.Nests outer inner ↔ code.Nests outer inner)
  /-- What is nested is nested then. -/
  nests : ∀ outer inner, code.Nests outer inner → code'.Nests outer inner

theorem CodeLoader.Settles.grows (hl : loader.Settles Later) (h : Later st st') :
    (loader.settled Later st).Grows (loader.settled Later st') where
  parsed body hb := by
    rw [CodeLoader.not_refused_settled_iff] at hb ⊢
    exact (hl.keepsParsed h hb).1
  same outer inner ho := by
    rw [CodeLoader.not_refused_settled_iff] at ho
    obtain ⟨hp, hn⟩ := hl.keepsParsed h ho
    simp [CodeLoader.nests_settled_iff, CodeLoader.Nests, ho, hp, hn]
  nests outer inner hi := by
    obtain ⟨ho, hi⟩ := CodeLoader.nests_settled_iff.1 hi
    obtain ⟨hp, hn⟩ := hl.keepsParsed h ho
    refine CodeLoader.nests_settled_iff.2 ⟨hp, ?_⟩
    rw [CodeLoader.Nests, hn]
    exact hi

/-- A body could be parsed, and what it nests is known. -/
def NestedCode.Surveyed (code : NestedCode) (known : BodyHandle → Bool) (body : BodyHandle) : Prop :=
  ¬code.refused body ∧ ∀ inner, code.Nests body inner → known inner = true

namespace NestedCode

variable {code code' : NestedCode} {known known' : BodyHandle → Bool}

theorem Surveyed.mono (h : code.Surveyed known body)
    (hknown : ∀ inner, known inner = true → known' inner = true) : code.Surveyed known' body :=
  ⟨h.1, fun inner hi => hknown inner (h.2 inner hi)⟩

theorem Surveyed.grow (h : code.Surveyed known body) (hg : code.Grows code') :
    code'.Surveyed known body :=
  ⟨hg.parsed body h.1, fun inner hi => h.2 inner ((hg.same body inner h.1).1 hi)⟩

theorem Closed.surveyed (h : code.Closed known) (hb : known body = true) :
    code.Surveyed known body :=
  h body hb

/-- What is closed is closed in code that has grown. -/
theorem Closed.grow (h : code.Closed known) (hg : code.Grows code') : code'.Closed known :=
  fun _ ho => (h.surveyed ho).grow hg

end NestedCode

/-- A search under way stays in order when the code grows. -/
theorem Search.Opened.grow {code code' : NestedCode} {known : BodyHandle → Bool}
    {root : BodyHandle} {s : Search} (h : Search.Opened code known root s)
    (hg : code.Grows code') : Search.Opened code' known root s where
  below := h.below
  nests b p hb := hg.nests p b (h.nests b p hb)
  opened b hb := (h.opened b hb).imp_right fun ⟨hr, hc⟩ =>
    ⟨hg.parsed b hr, fun c hi => hc c ((hg.same b c hr).1 hi)⟩

/-! ## Searches -/

theorem CodeLoader.Settles.later_of_ok (hl : loader.Settles Later)
    (hp : loader.forceParse body st = .ok () st') : Later st st' := by
  have h := hl.after body st
  rwa [Action.after_of_eq_ok hp] at h

theorem CodeLoader.Settles.later_of_error (hl : loader.Settles Later) {e : Error}
    (hp : loader.forceParse body st = .error e st') : Later st st' := by
  have h := hl.after body st
  rwa [Action.after_of_eq_error hp] at h

/-- **A search ends in a later state**, and if it succeeds, it has opened there all that it finds. -/
theorem nestedParents_of_settles (hl : loader.Settles Later) (known : BodyHandle → Bool)
    (root : BodyHandle) (st : σ) :
    (∃ found st', nestedParents loader known root st = .ok found st' ∧ Later st st' ∧
        Search.Opened (loader.settled Later st') known root ⟨[], found⟩) ∨
      ∃ e st', nestedParents loader known root st = .error e st' ∧ Later st st' := by
  let P (s : Search) (st₁ : σ) : Prop :=
    Later st st₁ ∧ Search.Opened (loader.settled Later st₁) known root s
  have hopened : ∀ {body stack found st₁ st₂}, P ⟨body :: stack, found⟩ st₁ →
      loader.forceParse body st₁ = .ok () st₂ →
        P (Search.noteAll known body (loader.nestedBodies st₂ body) ⟨stack, found⟩) st₂ := by
    rintro body stack found st₁ st₂ ⟨hlater, ho⟩ hp
    have hstep := hl.later_of_ok hp
    have hbody : loader.Parsed Later st₂ body := ⟨st₁, st₂, hp, hl.refl st₂⟩
    have hnested : (loader.settled Later st₂).nested body = loader.nestedBodies st₂ body :=
      if_pos hbody
    refine ⟨hl.trans hlater hstep, ?_⟩
    rw [← hnested]
    exact (ho.grow (hl.grows hstep)).noteAll (CodeLoader.not_refused_settled_iff.2 hbody)
  have hstart : P ⟨[root], .empty⟩ st := ⟨hl.refl st, Search.opened_start _ known root⟩
  rcases Search.run_cases (P := P) hopened hstart with
    ⟨found, st', he, hlater, ho⟩ | ⟨e, st', he, _, _, _, st₁, ⟨hlater, _⟩, hp⟩
  · exact .inl ⟨found, st', he, hlater, ho⟩
  · exact .inr ⟨e, st', he, hl.trans hlater (hl.later_of_error hp)⟩

theorem opened_of_nestedParents (hl : loader.Settles Later) {known : BodyHandle → Bool}
    {root : BodyHandle} {found : OrderedMap BodyHandle BodyHandle}
    (hn : nestedParents loader known root st = .ok found st') :
    Later st st' ∧ Search.Opened (loader.settled Later st') known root ⟨[], found⟩ := by
  rcases nestedParents_of_settles hl known root st with ⟨_, _, he, h⟩ | ⟨_, _, he, _⟩
  · cases he.symm.trans hn
    exact h
  · cases he.symm.trans hn

theorem later_of_nestedParents_eq_error (hl : loader.Settles Later) {known : BodyHandle → Bool}
    {root : BodyHandle} {e : Error} (hn : nestedParents loader known root st = .error e st') :
    Later st st' := by
  rcases nestedParents_of_settles hl known root st with ⟨_, _, he, _⟩ | ⟨_, _, he, h⟩
  · cases he.symm.trans hn
  · cases he.symm.trans hn
    exact h

/-! ## Arenas -/

namespace Arena

/-- The bodies parsed in the one arena are parsed in the other, and nest what they nested. -/
def KeepsParsed (a a' : Arena) : Prop :=
  ∀ body, a.isParsed body = true →
    a'.isParsed body = true ∧ a'.nestedBodies body = a.nestedBodies body

theorem isParsed_iff (a : Arena) (body : BodyHandle) :
    a.isParsed body = true ↔ ∃ b, a.body? body = some b ∧ b.deferred = false := by
  unfold isParsed
  cases a.body? body <;> simp

theorem KeepsParsed.refl (a : Arena) : KeepsParsed a a := fun _ hp => ⟨hp, rfl⟩

/-- Parsing a body that is there leaves it parsed, and leaves alone what was parsed already. -/
theorem exists_forceParse_of_some {a : Arena} {body : BodyHandle} {b : ArenaBody}
    (hb : a.body? body = some b) : ∃ a', forceParse body a = .ok () a' ∧
      a'.isParsed body = true ∧ KeepsParsed a a' := by
  refine ⟨_, forceParse_of_some hb, ?_⟩
  cases hd : b.deferred with
  | false => exact ⟨(isParsed_iff a body).2 ⟨b, hb, hd⟩, .refl a⟩
  | true =>
    have hset := a.body?_setBody hb { b with deferred := false }
    refine ⟨(isParsed_iff _ body).2 ⟨{ b with deferred := false }, (hset body).trans (if_pos rfl),
      rfl⟩, fun other hp => ?_⟩
    obtain ⟨b', hb', hd'⟩ := (isParsed_iff a other).1 hp
    have hne : other ≠ body := by
      rintro rfl
      cases hb.symm.trans hb'
      cases hd.symm.trans hd'
    have hsame : (a.setBody body { b with deferred := false }).body? other = a.body? other := by
      rw [hset, if_neg hne]
    constructor
    · show isParsed (a.setBody body { b with deferred := false }) other = true
      rw [isParsed, hsame]
      exact hp
    · show nestedBodies (a.setBody body { b with deferred := false }) other = _
      rw [nestedBodies, hsame, nestedBodies]

/-- A body that is not refused is parsed then. -/
theorem isParsed_of_forceParse {a a' : Arena} {body : BodyHandle}
    (hp : Arena.loader.forceParse body a = .ok () a') : a'.isParsed body = true := by
  change forceParse body a = .ok () a' at hp
  cases hb : a.body? body with
  | none => cases (forceParse_of_none hb).symm.trans hp
  | some b =>
    obtain ⟨a₁, he, hparsed, _⟩ := exists_forceParse_of_some hb
    cases he.symm.trans hp
    exact hparsed

/-- **An arena settles**, as long as what has been parsed is left alone. -/
theorem loader_settles : Arena.loader.Settles KeepsParsed where
  refl := .refl
  trans h h' body hb := by
    obtain ⟨hp, hn⟩ := h body hb
    obtain ⟨hp', hn'⟩ := h' body hp
    exact ⟨hp', hn'.trans hn⟩
  after body a := by
    show KeepsParsed a ((forceParse body).after a)
    cases hb : a.body? body with
    | none =>
      rw [Action.after_of_eq_error (forceParse_of_none hb)]
      exact .refl a
    | some b =>
      obtain ⟨a', he, _, hkeeps⟩ := exists_forceParse_of_some hb
      rw [Action.after_of_eq_ok he]
      exact hkeeps
  keeps hp h := (h _ (isParsed_of_forceParse hp)).2

theorem isParsed_of_parsed {a : Arena} {body : BodyHandle}
    (h : Arena.loader.Parsed KeepsParsed a body) : a.isParsed body = true := by
  obtain ⟨_, a₁, hp, hkeeps⟩ := h
  exact (hkeeps body (isParsed_of_forceParse hp)).1

end Arena

end Retrace
