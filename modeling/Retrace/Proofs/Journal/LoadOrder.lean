/-
# Code in whatever order it is loaded

What a journal tells about code that stays as it is does not depend on the order in which this was
registered (`parentage_of_perm`), if no body is nested directly in two others.  A body may become
top-level before the code around it is registered or after; what it nests may be known by then, or
not; and some bodies may be refused, with all around them.

The journal is told by the code and by the bodies that are top-level (`Reflects`), and these
by the calls: a body becomes top-level if and only if a call offers it and nothing within it is
refused (`History.isTopLevel_iff_of_shows`).

The specification asks for the same facts in every run, whatever the history of loading (section 1).
-/

import Retrace.Proofs.Journal.SteadyCode
import Retrace.Proofs.Journal.TopLevelCode

namespace Retrace

namespace Journal

variable {σ : Type} {loader : CodeLoader σ} {code : NestedCode} {good : σ → Prop} {j : Journal}

/-! ## Journals of steady code -/

/-- What a journal tracks is what is within its top-level code, so that the journal can be told from
that code alone. -/
structure Reflects (code : NestedCode) (j : Journal) : Prop where
  /-- What is tracked could be parsed, and what it nests is tracked. -/
  closed : code.Closed j.parents.contains
  /-- A parent nests what it is the parent of. -/
  nests : ∀ body p, j.parents.get? body = some (some p) → code.Nests p body
  /-- What is tracked is within top-level code. -/
  within : ∀ body, j.parents.contains body = true →
    ∃ top, j.isTopLevel top = true ∧ code.Within top body

theorem reflects_fresh (code : NestedCode) (ctx : ContextId) :
    Reflects code { context := ctx } where
  closed _ ho := nomatch ho
  nests _ _ hb := nomatch hb
  within _ hb := nomatch hb

theorem contains_parents_register (j : Journal) (found : OrderedMap BodyHandle BodyHandle)
    (new : LoadedCode) : ((j.adopt found).addLoad new).parents.contains =
      fun body => decide (body = new.body) || found.contains body || j.parents.contains body := by
  funext body
  rw [Bool.eq_iff_iff, contains_parents_addLoad_iff, contains_parents_adopt_iff,
    @eq_comm _ new.body]
  simp only [Bool.or_eq_true, decide_eq_true_eq, or_assoc]

/-- Registering what a search has opened leaves a journal of the code. -/
theorem Reflects.register (h : Reflects code j) {found : OrderedMap BodyHandle BodyHandle}
    {new : LoadedCode} (ho : Search.Opened code j.parents.contains new.body ⟨[], found⟩) :
    Reflects code ((j.adopt found).addLoad new) where
  closed := by
    rw [contains_parents_register]
    exact ho.closed h.closed
  nests body p hb := by
    by_cases hnew : new.body = body
    · subst hnew
      rw [get?_parents_addLoad_self] at hb
      cases hb
    · rw [get?_parents_addLoad_of_ne _ hnew, get?_parents_adopt] at hb
      cases hf : found.get? body with
      | none =>
        rw [hf] at hb
        exact h.nests body p hb
      | some q =>
        rw [hf] at hb
        cases hb
        exact ho.nests body p hf
  within body hb := by
    simp only [contains_parents_register, Bool.or_eq_true, decide_eq_true_eq] at hb
    rcases hb with (rfl | hf) | hk
    · exact ⟨_, (isTopLevel_addLoad_iff _ new _).2 (.inr rfl), .refl⟩
    · exact ⟨_, (isTopLevel_addLoad_iff _ new _).2 (.inr rfl), ho.within_of_found hf⟩
    · obtain ⟨top, htop, hw⟩ := h.within body hk
      exact ⟨top, (isTopLevel_addLoad_iff _ new top).2 (.inl htop), hw⟩

/-- What has been registered is sound: all within it is tracked. -/
theorem Reflects.sound_of_opened (h : Reflects code j) {found : OrderedMap BodyHandle BodyHandle}
    {root : BodyHandle} (ho : Search.Opened code j.parents.contains root ⟨[], found⟩) :
    code.Sound root := fun inner hw =>
  (ho.closed h.closed inner ((ho.closed h.closed).within (by simp) hw)).1

/-- **Registering code that is steady**: the journal stays one of the code, and the body becomes
top-level if and only if nothing within it is refused. -/
theorem Reflects.registerCode {t : Journal × σ} (h : Reflects code t.1)
    (hl : loader.Shows code good) (hg : good t.2) (origin : CodeOrigin) (body : BodyHandle)
    (counter : UInt64) :
    Reflects code ((registerCode loader origin body counter).after t).1 ∧
      ∀ b, ((registerCode loader origin body counter).after t).1.isTopLevel b = true ↔
        t.1.isTopLevel b = true ∨ b = body ∧ code.Sound body := by
  rcases registerCode_cases loader origin body counter t with
    ⟨htop, he⟩ | ⟨_, ⟨e, st, hn, he⟩ | ⟨found, st, hn, he⟩⟩
  · rw [Action.after_of_eq_ok he]
    refine ⟨h, fun b => ⟨.inl, ?_⟩⟩
    rintro (hb | ⟨rfl, _⟩)
    · exact hb
    · exact htop
  · rw [Action.after_of_eq_error he]
    refine ⟨h, fun b => (or_iff_left ?_).symm⟩
    rintro ⟨_, hs⟩
    rcases nestedParents_of_shows hl hg t.1.parents.contains body with
      ⟨found, st', he', _⟩ | ⟨e', st', _, _, inner, hw, hr⟩
    · cases hn.symm.trans he'
    · exact hs inner hw hr
  · rw [Action.after_of_eq_ok he]
    rcases nestedParents_of_shows hl hg t.1.parents.contains body with
      ⟨found', st', he', _, ho⟩ | ⟨e', st', he', _⟩
    · cases hn.symm.trans he'
      refine ⟨h.register ho, fun b => ?_⟩
      rw [isTopLevel_addLoad_iff, and_iff_left (h.sound_of_opened ho), @eq_comm _ b]
      exact Iff.rfl
    · cases hn.symm.trans he'

/-! ## What such a journal answers -/

theorem Reflects.contains_iff (h : Reflects code j) (hj : CodeInOrder j) (body : BodyHandle) :
    j.parents.contains body = true ↔
      ∃ top, j.isTopLevel top = true ∧ code.Within top body := by
  refine ⟨h.within body, fun ⟨top, htop, hw⟩ => h.closed.within ?_ hw⟩
  exact OrderedMap.contains_of_get? ((hj.parentless top).2 htop)

/-- What is within top-level code and not top-level itself has a parent, which nests it. -/
theorem Reflects.parent_of_within (h : Reflects code j) (hj : CodeInOrder j) {top body : BodyHandle}
    (htop : j.isTopLevel top = true) (hw : code.Within top body) (hb : ¬j.isTopLevel body = true) :
    ∃ p, code.Nests p body ∧ j.parent body = .ok (some p) := by
  obtain ⟨p, hp⟩ := Option.isSome_iff_exists.1 ((h.contains_iff hj body).2 ⟨top, htop, hw⟩)
  cases p with
  | none => exact absurd ((hj.parentless body).1 hp) hb
  | some p => exact ⟨p, h.nests body p hp, (parent_eq_ok_iff j).2 hp⟩

/-- What is not within top-level code is not found. -/
theorem Reflects.parent_of_outside (h : Reflects code j) (hj : CodeInOrder j) {body : BodyHandle}
    (hb : ¬∃ top, j.isTopLevel top = true ∧ code.Within top body) :
    j.parent body = .error (.notFound .functionBody (toString body)) := by
  rw [← h.contains_iff hj, Bool.not_eq_true, ← OrderedMap.get?_eq_none_iff] at hb
  exact parent_of_get?_eq_none hb

/-- The body that a call offers to register. -/
def Call.offered? : Call σ → Option BodyHandle
  | registerCode _ _ body _ => some body
  | _ => none

namespace History

variable {h h' : History σ}

/-- All calls register code from one loader, each in good surroundings, and nothing else is
called. -/
def Registers (h : History σ) (loader : CodeLoader σ) (good : σ → Prop) : Prop :=
  ∀ c ∈ h.calls, good c.2 ∧ ∃ origin body counter, c.1 = .registerCode loader origin body counter

/-- The bodies that the calls of a history offer to register, in order. -/
def offered (h : History σ) : List BodyHandle := (h.calls.map (·.1)).filterMap Call.offered?

theorem mem_registered_iff (h : History σ) (body : BodyHandle) :
    body ∈ h.registered ↔ h.last.isTopLevel body = true :=
  (h.isTopLevel_iff_registered _ body).symm

/-- After any number of calls the journal is one of the code, and what is top-level is what has been
offered and is sound. -/
theorem reflects (hl : loader.Shows code good) (hh : h.Registers loader good) (n : Nat) :
    Reflects code (h.journal n) ∧ ∀ body, (h.journal n).isTopLevel body = true ↔
      body ∈ ((h.calls.take n).map (·.1)).filterMap Call.offered? ∧ code.Sound body := by
  induction n with
  | zero => exact ⟨reflects_fresh code h.context, fun body => by simp [journal]⟩
  | succ n ih =>
    rw [List.take_add_one]
    cases hc : h.calls[n]? with
    | none =>
      rw [h.journal_succ_of_none hc]
      simpa using ih
    | some c =>
      obtain ⟨hg, origin, body, counter, hcall⟩ := hh c (List.mem_of_getElem? hc)
      obtain ⟨hr, htop⟩ :=
        ih.1.registerCode (t := (h.journal n, c.2)) hl hg origin body counter
      rw [h.journal_succ_of_some hc, hcall, Call.run, Action.after_map]
      refine ⟨hr, fun b => ?_⟩
      rw [htop, ih.2, Option.toList_some, List.map_append, List.filterMap_append, List.mem_append,
        or_and_right, List.map_singleton, hcall,
        show [Call.registerCode loader origin body counter].filterMap Call.offered? = [body]
          from rfl, List.mem_singleton]
      exact or_congr_right (and_congr_right fun hb => by rw [hb])

theorem reflects_last (hl : loader.Shows code good) (hh : h.Registers loader good) :
    Reflects code h.last := (h.reflects hl hh _).1

/-- **What becomes top-level** is what some call offers and nothing within is refused. -/
theorem isTopLevel_iff_of_shows (hl : loader.Shows code good) (hh : h.Registers loader good)
    (body : BodyHandle) : h.last.isTopLevel body = true ↔ body ∈ h.offered ∧ code.Sound body := by
  have hn := (h.reflects hl hh h.calls.length).2 body
  rwa [List.take_length] at hn

/-- A search leaves the surroundings good, whether it succeeds or fails. -/
theorem good_nestedParents (hl : loader.Shows code good) {st : σ} (hg : good st)
    (known : BodyHandle → Bool) (root : BodyHandle) :
    good ((nestedParents loader known root).after st) := by
  rcases nestedParents_of_shows hl hg known root with ⟨_, _, he, hg', _⟩ | ⟨_, _, he, hg', _⟩
  · rwa [Action.after_of_eq_ok he]
  · rwa [Action.after_of_eq_error he]

/-- So does registering code. -/
theorem good_registerCode (hl : loader.Shows code good) {t : Journal × σ} (hg : good t.2)
    (origin : CodeOrigin) (body : BodyHandle) (counter : UInt64) :
    good ((registerCode loader origin body counter).after t).2 := by
  have hsearch := good_nestedParents hl hg t.1.parents.contains body
  rcases registerCode_cases loader origin body counter t with
    ⟨_, he⟩ | ⟨_, ⟨e, st, hn, he⟩ | ⟨found, st, hn, he⟩⟩
  · rwa [Action.after_of_eq_ok he]
  · rw [Action.after_of_eq_error he]
    rwa [Action.after_of_eq_error hn] at hsearch
  · rw [Action.after_of_eq_ok he]
    rwa [Action.after_of_eq_ok hn] at hsearch

/-- Calls made one right after another are made in good surroundings if the first one is. -/
theorem registers_consecutive (hl : loader.Shows code good) (ctx : ContextId)
    {calls : List (Call σ)}
    (hcalls : ∀ c ∈ calls, ∃ origin body counter, c = .registerCode loader origin body counter)
    {st : σ} (hg : good st) : (consecutive ctx calls st).Registers loader good := by
  suffices ∀ t : Journal × σ, good t.2 → ∀ c ∈ handOver calls t,
      good c.2 ∧ ∃ origin body counter, c.1 = .registerCode loader origin body counter
    from this _ hg
  induction calls with
  | nil => exact fun _ _ _ hc => absurd hc List.not_mem_nil
  | cons d rest ih =>
    intro t ht c hc
    obtain ⟨origin, body, counter, rfl⟩ := hcalls d List.mem_cons_self
    rcases List.mem_cons.1 hc with rfl | hc
    · exact ⟨ht, origin, body, counter, rfl⟩
    · refine ih (fun c hc => hcalls c (List.mem_cons_of_mem _ hc)) _ ?_ c hc
      rw [Call.run, Action.after_map]
      exact good_registerCode hl ht origin body counter

end History

/-- **What is told of nested code does not depend on the order of loading.**  Let a loader show
steady code in which no body is nested directly in two others.  Then two histories of registrations
that are the same but for their order leave the same code: they have registered the same bodies,
pinned them alike, and tell the same parent of every body.  Of what has been registered this is
none; of what else is within such a body it is the one that nests it; and nothing else is found.
Calls made one right after another are such a history (`History.registers_consecutive`). -/
theorem parentage_of_perm (hl : loader.Shows code good)
    (hsingle : ∀ p q body, code.Nests p body → code.Nests q body → p = q) {h h' : History σ}
    (hh : h.Registers loader good) (hh' : h'.Registers loader good)
    (hperm : (h.calls.map (·.1)).Perm (h'.calls.map (·.1))) :
    (∀ body, body ∈ h.registered ↔ body ∈ h'.registered) ∧
      h.last.pinnedBodies = h'.last.pinnedBodies ∧
      (∀ body, h.last.parent body = h'.last.parent body) ∧
      ∀ body,
        (body ∈ h.registered → h.last.parent body = .ok none) ∧
        (body ∉ h.registered → (∃ top ∈ h.registered, code.Within top body) →
          ∃ p, code.Nests p body ∧ h.last.parent body = .ok (some p)) ∧
        (¬(∃ top ∈ h.registered, code.Within top body) →
          h.last.parent body = .error (.notFound .functionBody (toString body))) := by
  have hoffered : ∀ body, body ∈ h.offered ↔ body ∈ h'.offered := fun body =>
    (hperm.filterMap Call.offered?).mem_iff
  have htop (body : BodyHandle) :
      h.last.isTopLevel body = true ↔ h'.last.isTopLevel body = true := by
    rw [History.isTopLevel_iff_of_shows hl hh, History.isTopLevel_iff_of_shows hl hh',
      hoffered]
  have hr := h.reflects_last hl hh
  have hr' := h'.reflects_last hl hh'
  have ho : CodeInOrder h.last := h.codeInOrder _
  have ho' : CodeInOrder h'.last := h'.codeInOrder _
  have hnone {g : History σ} (hg : CodeInOrder g.last) {body : BodyHandle}
      (hb : g.last.isTopLevel body = true) : g.last.parent body = .ok none :=
    (parent_eq_ok_iff _).2 ((hg.parentless body).2 hb)
  simp only [History.mem_registered_iff]
  refine ⟨htop, ?_, fun body => ?_,
    fun body => ⟨hnone ho, fun hb ⟨top, ht, hw⟩ => ?_, fun hb => ?_⟩⟩
  · suffices h.last.pinnedBodies.counts = h'.last.pinnedBodies.counts from congrArg PinSet.mk this
    refine OrderedMap.ext_get? fun body => ?_
    rw [ho.pinned, ho'.pinned, Bool.eq_iff_iff.2 (htop body)]
  · by_cases hb : h.last.isTopLevel body = true
    · rw [hnone ho hb, hnone ho' ((htop body).1 hb)]
    · by_cases hw : ∃ top, h.last.isTopLevel top = true ∧ code.Within top body
      · obtain ⟨top, ht, hw⟩ := hw
        obtain ⟨p, hp, he⟩ := hr.parent_of_within ho ht hw hb
        obtain ⟨q, hq, he'⟩ := hr'.parent_of_within ho' ((htop top).1 ht) hw (mt (htop body).2 hb)
        rw [he, he', hsingle p q body hp hq]
      · rw [hr.parent_of_outside ho hw, hr'.parent_of_outside ho' ?_]
        simpa only [htop] using hw
  · exact hr.parent_of_within ho ht hw hb
  · exact hr.parent_of_outside ho hb

/-- Two bodies that nest each other, the second one also a third; a body that nests itself and a
last one. -/
def tangledArena : Arena where
  bodies := #[{ deferred := true, nested := [⟨1⟩] }, { nested := [⟨0⟩, ⟨2⟩] }, { deferred := true },
    { nested := [⟨3⟩, ⟨4⟩] }, {}]

/-- The arena as a parser that refuses the last body. -/
def tangledLoader : CodeLoader Arena := Arena.loader.refusing [⟨4⟩]

/-- The code that this parser shows. -/
def tangledCode : NestedCode :=
  { tangledArena.code with refused := fun body => body ∈ [⟨4⟩] ∨ tangledArena.code.refused body }

theorem tangledLoader_shows : tangledLoader.Shows tangledCode (Arena.SameNesting tangledArena) :=
  (Arena.loader_shows tangledArena).refusing [⟨4⟩]

/-- Which body nests which. -/
def tangledPairs : List (BodyHandle × BodyHandle) :=
  [(⟨0⟩, ⟨1⟩), (⟨1⟩, ⟨0⟩), (⟨1⟩, ⟨2⟩), (⟨3⟩, ⟨3⟩), (⟨3⟩, ⟨4⟩)]

theorem mem_tangledPairs {p body : BodyHandle} (h : tangledCode.Nests p body) :
    (p, body) ∈ tangledPairs := by
  obtain ⟨i⟩ := p
  change body ∈ ((tangledArena.bodies[i.toNat]?).map (·.nested)).getD [] at h
  have he : i = .ofNat i.toNat := UInt32.ofNat_toNat.symm
  match hi : i.toNat with
  | 0 | 1 | 3 =>
    rw [hi] at he h
    subst he
    simpa [tangledArena, tangledPairs] using h
  | 2 | 4 =>
    rw [hi] at h
    simp [tangledArena] at h
  | n + 5 =>
    rw [hi] at h
    simp [tangledArena] at h

theorem single_tangledCode {p q body : BodyHandle} (hp : tangledCode.Nests p body)
    (hq : tangledCode.Nests q body) : p = q := by
  have hone : ∀ x ∈ tangledPairs, ∀ y ∈ tangledPairs, x.2 = y.2 → x.1 = y.1 := by decide
  exact hone _ (mem_tangledPairs hp) _ (mem_tangledPairs hq) rfl

/-- Nothing is refused within the two bodies that nest each other, or the third. -/
theorem sound_tangledCode {top : BodyHandle} (h : top ∈ [(⟨0⟩ : BodyHandle), ⟨1⟩, ⟨2⟩]) :
    tangledCode.Sound top := by
  have hstay : ∀ x ∈ tangledPairs, x.1 ∈ [(⟨0⟩ : BodyHandle), ⟨1⟩, ⟨2⟩] →
      x.2 ∈ [(⟨0⟩ : BodyHandle), ⟨1⟩, ⟨2⟩] := by decide
  have hparsed : ∀ b ∈ [(⟨0⟩ : BodyHandle), ⟨1⟩, ⟨2⟩],
      ¬(b ∈ [(⟨4⟩ : BodyHandle)] ∨ tangledArena.body? b = none) := by decide
  intro inner hw
  refine hparsed inner ?_
  induction hw with
  | refl => exact h
  | tail _ hn ih => exact hstay _ (mem_tangledPairs hn) ih

/-- Registrations of the first body, of the one that the second nests, and of the one that nests
itself. -/
def tangledCalls : List (Call Arena) :=
  [.registerCode tangledLoader .script ⟨0⟩ 1, .registerCode tangledLoader .eval ⟨2⟩ 2,
    .registerCode tangledLoader .newFunction ⟨3⟩ 3]

/-- Calls made one after another, on a journal and an arena that are fresh. -/
def tangledHistory (calls : List (Call Arena)) : History Arena :=
  .consecutive ⟨0⟩ calls tangledArena

theorem registers_tangledHistory {calls : List (Call Arena)} (h : calls.Perm tangledCalls) :
    (tangledHistory calls).Registers tangledLoader (Arena.SameNesting tangledArena) := by
  refine History.registers_consecutive tangledLoader_shows _ (fun c hc => ?_) fun _ => rfl
  have hc' := h.mem_iff.1 hc
  simp only [tangledCalls, List.mem_cons, List.not_mem_nil, or_false] at hc'
  rcases hc' with rfl | rfl | rfl <;> exact ⟨_, _, _, rfl⟩

/-- In either order two of the three bodies are registered, and the one that was nested has no
parent; the last one is refused with the one that nests it. -/
theorem parentage_of_perm_in_tangle :
    let h := tangledHistory tangledCalls
    let h' := tangledHistory tangledCalls.reverse
    (h.calls.map (·.1)).Perm (h'.calls.map (·.1)) ∧
      (∀ body, body ∈ h.registered ↔ body ∈ h'.registered) ∧
      h.last.pinnedBodies = h'.last.pinnedBodies ∧
      (∀ body, h.last.parent body = h'.last.parent body) ∧
      h.last.parent ⟨0⟩ = .ok none ∧ h.last.parent ⟨1⟩ = .ok (some ⟨0⟩) ∧
      h.last.parent ⟨2⟩ = .ok none ∧
      h.last.parent ⟨3⟩ = .error (.notFound .functionBody (toString (⟨3⟩ : BodyHandle))) := by
  intro h h'
  have hh := registers_tangledHistory (.refl tangledCalls)
  have hh' := registers_tangledHistory (List.reverse_perm tangledCalls)
  have hcalls : h.calls.map (·.1) = tangledCalls := History.map_handOver _ _
  have hperm : (h.calls.map (·.1)).Perm (h'.calls.map (·.1)) := by
    rw [hcalls, show h'.calls.map (·.1) = tangledCalls.reverse from History.map_handOver _ _]
    exact (List.reverse_perm tangledCalls).symm
  obtain ⟨hreg, hpins, hsame, hparent⟩ :=
    parentage_of_perm tangledLoader_shows (fun _ _ _ => single_tangledCode) hh hh' hperm
  have hmem (body : BodyHandle) : body ∈ h.registered ↔
      body ∈ [(⟨0⟩ : BodyHandle), ⟨2⟩, ⟨3⟩] ∧ tangledCode.Sound body := by
    rw [h.mem_registered_iff, History.isTopLevel_iff_of_shows tangledLoader_shows hh,
      History.offered, hcalls]
    rfl
  have h₀ : (⟨0⟩ : BodyHandle) ∈ h.registered :=
    (hmem _).2 ⟨by decide, sound_tangledCode (by decide)⟩
  have h₁ : (⟨1⟩ : BodyHandle) ∉ h.registered := fun hm => absurd ((hmem _).1 hm).1 (by decide)
  have h₂ : (⟨2⟩ : BodyHandle) ∈ h.registered :=
    (hmem _).2 ⟨by decide, sound_tangledCode (by decide)⟩
  have h₀₁ : tangledCode.Nests ⟨0⟩ ⟨1⟩ := List.mem_singleton.2 rfl
  have h₃₄ : tangledCode.Nests ⟨3⟩ ⟨4⟩ := List.mem_cons_of_mem _ (List.mem_singleton.2 rfl)
  refine ⟨hperm, hreg, hpins, hsame, (hparent _).1 h₀, ?_, (hparent _).1 h₂, (hparent _).2.2 ?_⟩
  · obtain ⟨p, hp, he⟩ := (hparent ⟨1⟩).2.1 h₁ ⟨⟨0⟩, h₀, .single h₀₁⟩
    rw [he, single_tangledCode hp h₀₁]
  · rintro ⟨top, ht, hw⟩
    exact ((hmem top).1 ht).2 ⟨4⟩ (hw.tail h₃₄) (.inl (List.mem_singleton.2 rfl))

end Journal

end Retrace
