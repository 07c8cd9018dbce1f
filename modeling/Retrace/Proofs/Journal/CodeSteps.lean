/-
# What a call does to loaded code

Loaded code is accounted for in four places: the lists of top-level code, the set of its bodies, the
lexical parents, and the pinned bodies.  A call changes them in one of four ways (`Call.codeStep`),
and all that is said about a run of calls is derived from these.

| step | made by |
| --- | --- |
| `same` | every call that fails or is not about code, and a registration of what is registered |
| `registered` | `registerCode`, of what is new: it answers yes |
| `loaded` | `forceLoad` |
| `cleared` | `clearLoads` |

The steps gather what the specification says of loaded code, operation by operation (section 4.2).
-/

import Retrace.Proofs.Journal.Nesting
import Retrace.Proofs.Journal.Run

namespace Retrace

namespace Journal

variable {σ : Type}

/-! ## Looking at loaded code -/

theorem parent_eq_ok_iff (j : Journal) {body : BodyHandle} {p : Option BodyHandle} :
    j.parent body = .ok p ↔ j.parents.get? body = some p := by
  unfold parent
  cases j.parents.get? body <;> simp

theorem parent_of_get?_eq_none {j : Journal} {body : BodyHandle} (h : j.parents.get? body = none) :
    j.parent body = .error (.notFound .functionBody (toString body)) := by
  rw [parent, h]

@[simp] theorem isTopLevel_fresh (ctx : ContextId) (body : BodyHandle) :
    isTopLevel { context := ctx } body = false := rfl

theorem isTopLevel_addLoad_iff (j : Journal) (code : LoadedCode) (body : BodyHandle) :
    (j.addLoad code).isTopLevel body = true ↔ j.isTopLevel body = true ∨ code.body = body :=
  (OrderedMap.contains_insert_iff j.topLevelBodies code.body body ()).trans or_comm

/-- What has been found gets the parent found, and other bodies keep theirs. -/
theorem get?_parents_adopt (j : Journal) (found : OrderedMap BodyHandle BodyHandle)
    (body : BodyHandle) :
    (j.adopt found).parents.get? body = ((found.get? body).map some).or (j.parents.get? body) :=
  OrderedMap.get?_insertAll_entries j.parents found some body

theorem get?_parents_addLoad_self (j : Journal) (code : LoadedCode) :
    (j.addLoad code).parents.get? code.body = some none :=
  OrderedMap.get?_insert_self _ _ _

theorem get?_parents_addLoad_of_ne (j : Journal) {code : LoadedCode} {body : BodyHandle}
    (h : code.body ≠ body) : (j.addLoad code).parents.get? body = j.parents.get? body :=
  OrderedMap.get?_insert_of_ne _ _ h

theorem contains_parents_adopt_iff (j : Journal) (found : OrderedMap BodyHandle BodyHandle)
    (body : BodyHandle) : (j.adopt found).parents.contains body = true ↔
      found.contains body = true ∨ j.parents.contains body = true := by
  rw [OrderedMap.contains, get?_parents_adopt, Option.isSome_or, Option.isSome_map, Bool.or_eq_true]
  rfl

theorem contains_parents_addLoad_iff (j : Journal) (code : LoadedCode) (body : BodyHandle) :
    (j.addLoad code).parents.contains body = true ↔
      code.body = body ∨ j.parents.contains body = true :=
  OrderedMap.contains_insert_iff j.parents code.body body none

/-- What was known keeps its parent. -/
theorem get?_parents_adopt_of_known {j : Journal} {found : OrderedMap BodyHandle BodyHandle}
    (hnew : ∀ b, found.contains b = true → j.parents.contains b = false) {body : BodyHandle}
    (h : j.parents.contains body = true) :
    (j.adopt found).parents.get? body = j.parents.get? body := by
  have hf : found.get? body = none := by
    refine Option.not_isSome_iff_eq_none.1 fun hs => ?_
    rw [hnew body hs] at h
    cases h
  rw [get?_parents_adopt, hf]
  rfl

theorem get?_parents_adopt_of_found (j : Journal) {found : OrderedMap BodyHandle BodyHandle}
    {body p : BodyHandle} (h : found.get? body = some p) :
    (j.adopt found).parents.get? body = some (some p) := by
  rw [get?_parents_adopt, h]
  rfl

/-! ## Steps -/

/-- Whether a call forgets all loaded code. -/
def Call.forgetsCode : Call σ → Bool
  | clearLoads => true
  | _ => false

/-- The code that a call registers, if it answers that this is new. -/
def Call.newCode? : Call σ → Journal × σ → Option LoadedCode
  | registerCode loader origin body counter, t =>
    match Journal.registerCode loader origin body counter t with
    | .ok true _ => some ⟨body, origin, counter, loader.sourceName t.2 body⟩
    | _ => none
  | _, _ => none

/-- Whether a call registers a body, and succeeds, be that new or not. -/
def Call.Registers (c : Call σ) (t : Journal × σ) (body : BodyHandle) : Prop :=
  ∃ loader origin counter new t', c = .registerCode loader origin body counter ∧
    Journal.registerCode loader origin body counter t = .ok new t'

/-- The loaded code is as before: what is listed, what is pinned, and every parent. -/
structure SameCode (j j' : Journal) : Prop where
  /-- The lists of top-level code are as before. -/
  lists : j'.lists = j.lists
  /-- So are the bodies of top-level code. -/
  topLevelBodies : j'.topLevelBodies = j.topLevelBodies
  /-- The parents are as before. -/
  parents : j'.parents = j.parents
  /-- The pinned bodies are as before. -/
  pinnedBodies : j'.pinnedBodies = j.pinnedBodies

theorem SameCode.refl (j : Journal) : SameCode j j := ⟨rfl, rfl, rfl, rfl⟩

theorem SameCode.isTopLevel {j j' : Journal} (h : SameCode j j') (body : BodyHandle) :
    j'.isTopLevel body = j.isTopLevel body := by
  rw [Journal.isTopLevel, h.topLevelBodies, Journal.isTopLevel]

/-- What a call does to the loaded code of a journal: nothing, or it adopts what was found, adds
code with what was found, or forgets all. -/
inductive CodeStep (c : Call σ) (t : Journal × σ) : Journal → Prop where
  /-- It leaves the code alone. -/
  | same {j : Journal} : c.forgetsCode = false → c.newCode? t = none → SameCode t.1 j →
      CodeStep c t j
  /-- It registers code that is new, and adopts all that this nests. -/
  | registered {loader : CodeLoader σ} {origin : CodeOrigin} {body : BodyHandle} {counter : UInt64}
      {found : OrderedMap BodyHandle BodyHandle} {st : σ} :
      c = .registerCode loader origin body counter → t.1.isTopLevel body = false →
      nestedParents loader t.1.parents.contains body t.2 = .ok found st →
      c.newCode? t = some ⟨body, origin, counter, loader.sourceName t.2 body⟩ →
      CodeStep c t ((t.1.adopt found).addLoad
        ⟨body, origin, counter, loader.sourceName t.2 body⟩)
  /-- It adopts all that a body nests. -/
  | loaded {loader : CodeLoader σ} {body : BodyHandle}
      {found : OrderedMap BodyHandle BodyHandle} {st : σ} : c = .forceLoad loader body →
      nestedParents loader t.1.parents.contains body t.2 = .ok found st →
      CodeStep c t (t.1.adopt found)
  /-- It forgets all code. -/
  | cleared : c = .clearLoads → CodeStep c t t.1.clearLoads

theorem sameCode_completeWrite (buffer : ObjectHandle) (final : UInt64) (j : Journal) :
    SameCode j ((completeWrite buffer final).after j) := by
  unfold Action.after completeWrite
  cases (j.candidateStarts buffer final).max? <;> exact ⟨rfl, rfl, rfl, rfl⟩

theorem codeStep_registerCode (loader : CodeLoader σ) (origin : CodeOrigin) (body : BodyHandle)
    (counter : UInt64) (t : Journal × σ) : CodeStep (.registerCode loader origin body counter) t
      ((registerCode loader origin body counter).after t).1 := by
  rcases registerCode_cases loader origin body counter t with
    ⟨_, he⟩ | ⟨htop, ⟨e, st, _, he⟩ | ⟨found, st, hn, he⟩⟩
  · rw [Action.after_of_eq_ok he]
    exact .same rfl (by rw [Call.newCode?, he]) (.refl t.1)
  · rw [Action.after_of_eq_error he]
    exact .same rfl (by rw [Call.newCode?, he]) (.refl t.1)
  · rw [Action.after_of_eq_ok he]
    exact .registered rfl htop hn (by rw [Call.newCode?, he])

theorem codeStep_forceLoad (loader : CodeLoader σ) (body : BodyHandle) (t : Journal × σ) :
    CodeStep (.forceLoad loader body) t ((forceLoad loader body).after t).1 := by
  rcases forceLoad_cases loader body t with ⟨e, st, _, he⟩ | ⟨found, st, hn, he⟩
  · rw [Action.after_of_eq_error he]
    exact .same rfl rfl (.refl t.1)
  · rw [Action.after_of_eq_ok he]
    exact .loaded rfl hn

/-- **Every call, whether it succeeds or fails, makes such a step**, with whatever loader it
comes. -/
theorem Call.codeStep (c : Call σ) (t : Journal × σ) : CodeStep c t (c.run.after t).1 := by
  cases c with
  | scheduleWrite | clearPending | pinWeak => exact .same rfl rfl ⟨rfl, rfl, rfl, rfl⟩
  | completeWrite buffer final =>
    rw [Call.run, Action.after_map_beside]
    exact .same rfl rfl (sameCode_completeWrite buffer final t.1)
  | registerCode loader origin body counter =>
    rw [Call.run, Action.after_map]
    exact codeStep_registerCode loader origin body counter t
  | forceLoad loader body =>
    rw [Call.run, Action.after_map]
    exact codeStep_forceLoad loader body t
  | clearLoads => exact .cleared rfl
  | unpinWeak obj =>
    rw [Call.run, Action.after_map_beside]
    exact .same rfl rfl ⟨rfl, rfl, rfl, rfl⟩

/-- A call that forgets all code leaves a journal without code. -/
theorem CodeStep.eq_clearLoads {c : Call σ} {t : Journal × σ} {j : Journal} (hs : CodeStep c t j)
    (hc : c.forgetsCode = true) : j = t.1.clearLoads := by
  cases hs with
  | same hf => cases hf.symm.trans hc
  | registered hcall =>
    rw [hcall] at hc
    cases hc
  | loaded hcall =>
    rw [hcall] at hc
    cases hc
  | cleared => rfl

/-- **A step adds to top-level code what its call registers**, and takes nothing away unless it
forgets all code. -/
theorem CodeStep.isTopLevel_iff {c : Call σ} {t : Journal × σ} {j : Journal} (hs : CodeStep c t j)
    (hc : c.forgetsCode = false) (body : BodyHandle) :
    j.isTopLevel body = true ↔ t.1.isTopLevel body = true ∨ c.Registers t body := by
  cases hs with
  | same _ hnew hs =>
    rw [hs.isTopLevel]
    refine ⟨.inl, fun h => h.elim id ?_⟩
    -- What is registered and not new was top-level code already.
    rintro ⟨loader, origin, counter, new, t', rfl, hrun⟩
    rcases registerCode_cases loader origin body counter t with
      ⟨htop, _⟩ | ⟨_, ⟨_, _, _, he⟩ | ⟨_, _, _, he⟩⟩
    · exact htop
    · cases he.symm.trans hrun
    · rw [Call.newCode?, he] at hnew
      cases hnew
  | @registered loader origin root counter found st hcall htop hn _ =>
    rw [isTopLevel_addLoad_iff]
    refine or_congr_right ⟨?_, ?_⟩
    · rintro rfl
      exact ⟨loader, origin, counter, _, _, hcall,
        registerCode_of_nestedParents htop hn origin counter⟩
    · rintro ⟨_, _, _, _, _, hcall', _⟩
      cases hcall.symm.trans hcall'
      rfl
  | loaded hcall _ =>
    refine ⟨.inl, fun h => h.elim id ?_⟩
    rintro ⟨_, _, _, _, _, hcall', _⟩
    cases hcall.symm.trans hcall'
  | cleared hcall =>
    rw [hcall] at hc
    cases hc

/-! ## Calls whose search is short -/

theorem registerCode_of_runUpTo {loader : CodeLoader σ} {body : BodyHandle} {j : Journal}
    {st st' : σ} {found : OrderedMap BodyHandle BodyHandle} {n : Nat}
    (htop : j.isTopLevel body = false)
    (hrun : Search.runUpTo loader j.parents.contains n ⟨[body], .empty⟩ st = .ok ⟨[], found⟩ st')
    (origin : CodeOrigin) (counter : UInt64) : registerCode loader origin body counter (j, st) =
      .ok true ((j.adopt found).addLoad ⟨body, origin, counter, loader.sourceName st body⟩, st') :=
  registerCode_of_nestedParents (t := (j, st)) htop (Search.run_of_runUpTo hrun) origin counter

theorem after_registerCode {loader : CodeLoader σ} {body : BodyHandle} {j : Journal} {st st' : σ}
    {found : OrderedMap BodyHandle BodyHandle} {n : Nat} (htop : j.isTopLevel body = false)
    (hrun : Search.runUpTo loader j.parents.contains n ⟨[body], .empty⟩ st = .ok ⟨[], found⟩ st')
    (origin : CodeOrigin) (counter : UInt64) :
    ((Call.registerCode loader origin body counter).run.after (j, st)).1 =
      (j.adopt found).addLoad ⟨body, origin, counter, loader.sourceName st body⟩ := by
  rw [Call.run, Action.after_map,
    Action.after_of_eq_ok (registerCode_of_runUpTo htop hrun origin counter)]

theorem after_forceLoad {loader : CodeLoader σ} {body : BodyHandle} {j : Journal} {st st' : σ}
    {found : OrderedMap BodyHandle BodyHandle} {n : Nat}
    (hrun : Search.runUpTo loader j.parents.contains n ⟨[body], .empty⟩ st = .ok ⟨[], found⟩ st') :
    ((Call.forceLoad loader body).run.after (j, st)).1 = j.adopt found := by
  have he := forceLoad_of_nestedParents (t := (j, st)) (Search.run_of_runUpTo hrun)
  rw [Call.run, Action.after_map, Action.after_of_eq_ok he]

end Journal

end Retrace
