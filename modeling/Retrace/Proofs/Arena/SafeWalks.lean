/-
# Walks over valid arenas

An arena may come from a file, and its objects may hold themselves and have two properties of one
name, and its bodies may nest each other.  Once it has passed validation it can be walked over all
the same (`walksSafely`):

| walk | opens | may fail |
| --- | --- | --- |
| for the paths of the image | each object once | where two targets of the arena compute one path |
| for the bodies nested in one | each body once, that one perhaps twice | never |

Neither leaves the arena, as no handle in it does: what can be reached is in the arena
(`WellFormed.has_of_reaches`), and so is what is nested in a body of it
(`WellFormed.has_of_within`).  A search parses bodies on its way, but the arena is valid after each
parse, and shows the same code.

These are the walks of the path resolver and of the journal (specification, sections 4.3 and 4.2),
over the image that the specification has for trying them (section 6).
-/

import Retrace.Proofs.Arena.Valid
import Retrace.Proofs.CorePaths.Ends
import Retrace.Proofs.Journal.CodeSteps
import Retrace.Proofs.Journal.SearchLength

namespace Retrace

theorem PropertyValue.mem_targets_of_reached {value : PropertyValue} {access : Access}
    {target : ObjectHandle} (h : value.reached access = some target) : target ∈ value.targets := by
  cases value <;> cases access <;> simp_all [reached, targets]

/-- What every parse keeps stays good with the rest. -/
theorem CodeLoader.Shows.keeping {σ : Type} {loader : CodeLoader σ} {code : NestedCode}
    {good kept : σ → Prop} (h : loader.Shows code good)
    (hkept : ∀ st body, kept st → kept ((loader.forceParse body).after st)) :
    loader.Shows code fun st => good st ∧ kept st where
  refuses st body hg hr := by
    obtain ⟨e, st', he, hg'⟩ := h.refuses st body hg.1 hr
    have hk := hkept st body hg.2
    rw [Action.after_of_eq_error he] at hk
    exact ⟨e, st', he, hg', hk⟩
  parses st body hg hr := by
    obtain ⟨st', he, hn, hg'⟩ := h.parses st body hg.1 hr
    have hk := hkept st body hg.2
    rw [Action.after_of_eq_ok he] at hk
    exact ⟨st', he, hn, hg', hk⟩

namespace Arena

variable {a : Arena}

/-! ## No way leads out -/

/-- What a step leads to is in the arena, as it is the value, getter or setter of a property of the
object. -/
theorem WellFormed.has_of_leads (h : a.WellFormed) {obj target : ObjectHandle} {s : Step}
    (hl : a.image.Leads obj s target) : a.Has (.object target) := by
  obtain ⟨p, hp, _, hreached⟩ := hl
  change p ∈ a.ownProperties obj at hp
  cases ho : a.object? obj with
  | none => simp [ownProperties, ho] at hp
  | some o =>
    have hmem : p ∈ o.properties := by simpa [ownProperties, ho] using hp
    exact (h.objects o (Array.mem_of_getElem? ho)).targets p hmem target
      (PropertyValue.mem_targets_of_reached hreached)

/-- The body of an object is in the arena. -/
theorem WellFormed.has_of_functionBody (h : a.WellFormed) {obj : ObjectHandle} {body : BodyHandle}
    (hb : a.functionBody obj = some body) : a.Has (.body body) := by
  obtain ⟨o, ho, hbody⟩ := Option.bind_eq_some_iff.1 hb
  exact (h.objects o (Array.mem_of_getElem? ho)).body body hbody

/-- The scopes of a body are in the arena. -/
theorem WellFormed.has_of_debuggerScopes (h : a.WellFormed) {body : BodyHandle}
    {scope : ScopeHandle} (hs : scope ∈ a.debuggerScopes body) : a.Has (.scope scope) := by
  cases hb : a.body? body with
  | none => simp [debuggerScopes, hb] at hs
  | some b =>
    have hmem : scope ∈ b.scopes := by simpa [debuggerScopes, hb] using hs
    exact (h.bodies b (Array.mem_of_getElem? hb)).scopes scope hmem

/-- **What can be reached from the roots is in the arena**, since no handle on the way leads out of
it. -/
theorem WellFormed.has_of_reaches (h : a.WellFormed) {t : CoreTarget}
    (hr : a.image.Reaches a.roots t) : a.Has t := by
  cases hr with
  | root hr => exact h.roots _ hr
  | step _ hl => exact h.has_of_leads hl
  | body _ hb => exact h.has_of_functionBody hb
  | scope _ hs => exact h.has_of_debuggerScopes hs

theorem WellFormed.has_of_nests (h : a.WellFormed) {outer inner : BodyHandle}
    (hn : a.code.Nests outer inner) : a.Has (.body inner) := by
  change inner ∈ ((a.body? outer).map (·.nested)).getD [] at hn
  cases hb : a.body? outer with
  | none => simp [hb] at hn
  | some b =>
    have hmem : inner ∈ b.nested := by simpa [hb] using hn
    exact (h.bodies b (Array.mem_of_getElem? hb)).nested inner hmem

/-- **What is nested in a body of the arena, directly or not, is in the arena.** -/
theorem WellFormed.has_of_within (h : a.WellFormed) {outer inner : BodyHandle}
    (hb : a.Has (.body outer)) (hw : a.code.Within outer inner) : a.Has (.body inner) := by
  cases hw with
  | refl => exact hb
  | tail _ hn => exact h.has_of_nests hn

/-- A body of the arena can be parsed: the arena refuses none but what is not there. -/
theorem not_refused_of_has {body : BodyHandle} (hb : a.Has (.body body)) : ¬a.code.refused body :=
  fun hr => Nat.not_le.2 hb (Array.getElem?_eq_none_iff.1 hr)

/-- The numbers of so many handles, given out one after another. -/
def numbersBelow (n : Nat) : List UInt32 := (List.range n).map Nat.toUInt32

theorem mem_numbersBelow {n : Nat} {i : UInt32} (h : i.toNat < n) : i ∈ numbersBelow n :=
  List.mem_map.2 ⟨i.toNat, List.mem_range.2 h, by simp⟩

theorem length_numbersBelow (n : Nat) : (numbersBelow n).length = n := by
  rw [numbersBelow, List.length_map, List.length_range]

/-- The objects of an arena. -/
def objectHandles (a : Arena) : List ObjectHandle :=
  (numbersBelow a.objects.size).map ObjectHandle.mk

/-- The bodies of an arena. -/
def bodyHandles (a : Arena) : List BodyHandle := (numbersBelow a.bodies.size).map BodyHandle.mk

theorem mem_objectHandles {obj : ObjectHandle} (h : a.Has (.object obj)) : obj ∈ a.objectHandles :=
  List.mem_map.2 ⟨obj.index, mem_numbersBelow h, rfl⟩

theorem mem_bodyHandles {body : BodyHandle} (h : a.Has (.body body)) : body ∈ a.bodyHandles :=
  List.mem_map.2 ⟨body.index, mem_numbersBelow h, rfl⟩

/-! ## Walks over the image -/

/-- The walk over the image ends after no more visits than there are objects, since each is visited
once at most. -/
theorem WellFormed.walkEnds (h : a.WellFormed) :
    Walk.EndsWithin a.image a.roots a.objects.size := by
  have hends : Walk.EndsWithin a.image a.roots a.objectHandles.length :=
    Walk.endsWithin fun obj hr => mem_objectHandles (h.has_of_reaches hr)
  rwa [objectHandles, List.length_map, length_numbersBelow] at hends

/-! ## Searches for nested code -/

/-- Whether another arena has the same targets, and is valid; so is what any parse makes of an
arena. -/
def ValidLike (a a' : Arena) : Prop := a'.WellFormed ∧ ∀ t, a'.Has t ↔ a.Has t

/-- **An arena shows its code, and stays valid**, whatever has been parsed of it. -/
theorem loader_shows_valid (a : Arena) :
    loader.Shows a.code fun st => SameNesting a st ∧ ValidLike a st :=
  a.loader_shows.keeping fun st body hst =>
    ⟨hst.1.forceParse body, fun t => (has_forceParse body st t).trans (hst.2 t)⟩

/-- A search for what a body nests ends after no more bodies than there are, and one. -/
theorem WellFormed.searchEnds (h : a.WellFormed) (known : BodyHandle → Bool) (body : BodyHandle) :
    ∃ n ≤ a.bodies.size + 1, SearchEndsWithin loader known body a n := by
  have hnested : ∀ inner, Relation.TransGen (loader.MayNest a) body inner →
      inner ∈ a.bodyHandles.toFinset := by
    intro inner hn
    obtain ⟨outer, _, hn⟩ := Relation.TransGen.tail'_iff.1 hn
    exact List.mem_toFinset.2 <|
      mem_bodyHandles (h.has_of_nests (a.loader_shows.nests_of_mayNest (fun _ => rfl) hn))
  have hcard : a.bodyHandles.toFinset.card ≤ a.bodies.size := by
    refine a.bodyHandles.toFinset_card_le.trans_eq ?_
    rw [bodyHandles, List.length_map, length_numbersBelow]
  exact ⟨_, Nat.add_le_add_right hcard 1, search_ends loader known body a hnested⟩

/-- **A search from a body of the arena succeeds**, finds what is in the arena, and leaves it
valid. -/
theorem WellFormed.exists_nestedParents (h : a.WellFormed) (known : BodyHandle → Bool)
    {body : BodyHandle} (hb : a.Has (.body body)) :
    ∃ found a', nestedParents loader known body a = .ok found a' ∧ ValidLike a a' ∧
      ∀ b, found.contains b = true → a.Has (.body b) := by
  rcases nestedParents_of_shows a.loader_shows_valid ⟨fun _ => rfl, h, fun _ => Iff.rfl⟩ known body
    with ⟨found, a', hrun, ⟨_, hvalid⟩, hopened⟩ | ⟨e, a', _, _, inner, hw, hr⟩
  · exact ⟨found, a', hrun, hvalid, fun b hf => h.has_of_within hb (hopened.within_of_found hf)⟩
  · exact absurd hr (not_refused_of_has (h.has_of_within hb hw))

end Arena

/-- Whether the bodies that a journal tracks are in an arena, as they are if all code was loaded
from it. -/
def Journal.TracksIn (j : Journal) (a : Arena) : Prop :=
  ∀ body, j.parents.contains body = true → a.Has (.body body)

namespace Arena

variable {a : Arena}

/-- **Code of the arena is registered**, whatever the journal tracks already; and if all of that is
in the arena, so is all that it tracks then. -/
theorem WellFormed.exists_registerCode (h : a.WellFormed) (j : Journal) (origin : CodeOrigin)
    {body : BodyHandle} (counter : UInt64) (hb : a.Has (.body body)) :
    ∃ new j' a', Journal.registerCode loader origin body counter (j, a) = .ok new (j', a') ∧
      ValidLike a a' ∧ (j.TracksIn a → j'.TracksIn a') := by
  rcases Journal.registerCode_cases loader origin body counter (j, a) with
    ⟨_, hrun⟩ | ⟨htop, _⟩
  · exact ⟨false, j, a, hrun, ⟨h, fun _ => Iff.rfl⟩, id⟩
  · obtain ⟨found, a', hn, hvalid, hfound⟩ := h.exists_nestedParents j.parents.contains hb
    refine ⟨true, _, a', Journal.registerCode_of_nestedParents htop hn origin counter, hvalid, ?_⟩
    intro hj b hcontains
    rw [hvalid.2]
    rcases (Journal.contains_parents_addLoad_iff _ _ b).1 hcontains with rfl | hcontains
    · exact hb
    · exact ((Journal.contains_parents_adopt_iff j found b).1 hcontains).elim (hfound b) (hj b)

/-! ## Both walks -/

/-- What the walks over an arena can do: what they may find, where they may fail, and that they
end. -/
structure WalksSafely (a : Arena) : Prop where
  /-- The walk over the image ends after no more visits than there are objects. -/
  walkEnds : Walk.EndsWithin a.image a.roots a.objects.size
  /-- It names only what is in the arena, or fails as two targets of the arena compute one path. -/
  paths : (∃ p, CorePaths.build a.image a.roots = .ok p ∧ ∀ e ∈ p.named, a.Has e.target) ∨
    ∃ path holder wanted, CorePaths.build a.image a.roots =
        .error (.violation (.pathClash path holder wanted)) ∧ holder ≠ wanted ∧
      (a.Has holder ∧ a.image.Computes a.roots path holder) ∧
      a.Has wanted ∧ a.image.Computes a.roots path wanted
  /-- A search for what a body nests ends after no more bodies than there are, and one. -/
  searchEnds : ∀ known body, ∃ n ≤ a.bodies.size + 1, SearchEndsWithin loader known body a n
  /-- Registering a body does not fail.  The arena is valid then with the same targets, and a
  journal that tracked bodies of the arena only still does. -/
  registers : ∀ (j : Journal) (origin : CodeOrigin) (body : BodyHandle) (counter : UInt64),
    a.Has (.body body) → ∃ new j' a',
      Journal.registerCode loader origin body counter (j, a) = .ok new (j', a') ∧
        (a'.validate = .ok () ∧ ∀ t, a'.Has t ↔ a.Has t) ∧ (j.TracksIn a → j'.TracksIn a')

/-- **An arena that has passed validation is safe to walk over**, both for the paths of the image
and for the code nested in its bodies, whatever leads back in it, and however many bodies are still
to be parsed. -/
theorem walksSafely (h : a.validate = .ok ()) : a.WalksSafely := by
  have hw := (validate_eq_ok_iff a).1 h
  refine ⟨hw.walkEnds, ?_, hw.searchEnds, fun j origin body counter hb => ?_⟩
  · rcases CorePaths.build_cases a.image a.roots with
      ⟨p, hp, hcomputed⟩ | ⟨_, herror, path, holder, wanted, rfl, hne, hholder, hwanted⟩
    · exact .inl ⟨p, hp, fun e he => hw.has_of_reaches (hcomputed e he).reaches⟩
    · exact .inr ⟨path, holder, wanted, herror, hne,
        ⟨hw.has_of_reaches hholder.reaches, hholder⟩,
        hw.has_of_reaches hwanted.reaches, hwanted⟩
  · obtain ⟨new, j', a', hrun, ⟨hvalid, hhas⟩, htracks⟩ :=
      hw.exists_registerCode j origin counter hb
    exact ⟨new, j', a', hrun, ⟨(validate_eq_ok_iff a').2 hvalid, hhas⟩, htracks⟩

/-- An object that holds itself and has two properties of one name, and bodies to be parsed yet that
nest each other and themselves. -/
def loopedArena : Arena where
  objects := #[
    { properties := [⟨"x", .data (some ⟨1⟩)⟩, ⟨"self", .data (some ⟨0⟩)⟩,
        ⟨"x", .accessor (some ⟨0⟩) (some ⟨1⟩)⟩] },
    { properties := [⟨"up", .data (some ⟨0⟩)⟩], body := some ⟨0⟩ }]
  bodies := #[
    { deferred := true, nested := [⟨1⟩, ⟨0⟩], scopes := [⟨0⟩, ⟨0⟩] },
    { deferred := true, nested := [⟨2⟩, ⟨0⟩] },
    { deferred := true, nested := [⟨1⟩] }]
  scopeCount := 1
  roots := [⟨"g", ⟨0⟩⟩]

/-- An object that has two properties of one name, which hold different objects. -/
def twinArena : Arena where
  objects := #[{ properties := [⟨"x", .data (some ⟨1⟩)⟩, ⟨"x", .data (some ⟨2⟩)⟩] }, {}, {}]
  roots := [⟨"g", ⟨0⟩⟩]

theorem build_loopedArena : CorePaths.build loopedArena.image loopedArena.roots =
    .ok (.ofNamed [⟨"g", .object ⟨0⟩⟩, ⟨"g.x", .object ⟨1⟩⟩, ⟨"g.x!body", .body ⟨0⟩⟩,
      ⟨"g.x!body!scope[0]", .scope ⟨0⟩⟩]) := by
  refine CorePaths.build_eq_ok_iff.2 ⟨⟨_, []⟩, ?_, rfl⟩
  exact Walk.ofRoots_of_runUpTo (n := 2) (by decide +kernel) rfl

theorem build_twinArena : CorePaths.build twinArena.image twinArena.roots =
    .error (.violation (.pathClash "g.x" (.object ⟨1⟩) (.object ⟨2⟩))) := by
  have hends := ((validate_eq_ok_iff twinArena).1 rfl).walkEnds
  have hrun : (Walk.offerAll {} (Walk.rootOffers twinArena.roots) >>=
      Walk.runUpTo twinArena.image 3) =
        .error (.violation (.pathClash "g.x" (.object ⟨1⟩) (.object ⟨2⟩))) := by
    decide +kernel
  rw [CorePaths.build, hends.ofRoots_eq]
  exact congrArg (Except.map fun w => CorePaths.ofNamed w.named) hrun

/-- Both arenas pass.  In the one everything has its path, and all bodies are parsed once and get
their parents; in the other the two properties have one path. -/
theorem walksSafely_of_loops_and_twins :
    (loopedArena.validate = .ok () ∧ loopedArena.WalksSafely ∧
        (∃ p, CorePaths.build loopedArena.image loopedArena.roots = .ok p ∧
          p.traversalOrder = ["g", "g.x", "g.x!body", "g.x!body!scope[0]"]) ∧
        ∃ j' a', Journal.registerCode loader .script ⟨0⟩ 1 ({ context := ⟨0⟩ }, loopedArena) =
            .ok true (j', a') ∧ a'.validate = .ok () ∧ a'.parseCount = 3 ∧
          j'.parents.entries = [(⟨0⟩, none), (⟨1⟩, some ⟨0⟩), (⟨2⟩, some ⟨1⟩)]) ∧
      twinArena.validate = .ok () ∧ twinArena.WalksSafely ∧
        CorePaths.build twinArena.image twinArena.roots =
          .error (.violation (.pathClash "g.x" (.object ⟨1⟩) (.object ⟨2⟩))) := by
  have hlooped : loopedArena.WalksSafely := walksSafely rfl
  refine ⟨⟨rfl, hlooped, ⟨_, build_loopedArena, rfl⟩, ?_⟩, rfl, walksSafely rfl, build_twinArena⟩
  have hsearch : Search.runUpTo loader (Journal.parents { context := ⟨0⟩ }).contains 4
      ⟨[⟨0⟩], .empty⟩ loopedArena = .ok ⟨[], _⟩ _ := rfl
  have hrun := Journal.registerCode_of_runUpTo (j := { context := ⟨0⟩ }) rfl hsearch .script 1
  obtain ⟨new, j', a', hsafe, ⟨hvalid, _⟩, _⟩ :=
    hlooped.registers { context := ⟨0⟩ } .script ⟨0⟩ 1 (by decide)
  cases hrun.symm.trans hsafe
  exact ⟨_, _, hrun, hvalid, rfl, rfl⟩

end Arena

end Retrace
