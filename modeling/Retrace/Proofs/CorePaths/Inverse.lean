/-
# Paths read both ways

A path leads back to the target whose path it is, and to nothing else (`invertible_of_build`).  Names
of properties may hold separators and marks, so that two routes can spell one path; the walk then
fails, and where it succeeds no path is shared.

| look-up | succeeds exactly on |
| --- | --- |
| `lookupTarget` | all paths |
| `lookupObject`, `lookupBody`, `lookupScope` | the paths of their own kind |

The list of all paths has each of them once, and so is as long as the three indices together.

The maps forward and backward are those of the path resolver (specification, section 4.3), which has
round-trips among its testable properties (section 12).
-/

import Mathlib.Data.Set.Card
import Retrace.Proofs.CorePaths.Resolution

namespace Retrace

namespace CorePaths

variable {image : CoreImage} {roots : List NamedRoot} {p : CorePaths}

/-! ## Look-ups -/

/-- **A path names a target exactly if it is the target's path.** -/
theorem target?_eq_some_iff (h : build image roots = .ok p) {t : CoreTarget} {path : String} :
    p.target? path = some t ↔ p.pathOf? t = some path := by
  rw [pathOf?_eq_some_iff h]
  constructor
  · intro ht
    obtain ⟨e, he, rfl⟩ := Option.map_eq_some_iff.1 ht
    have hp := List.find?_some he
    rw [decide_eq_true_eq] at hp
    rw [← hp]
    exact List.mem_of_find?_eq_some he
  · intro hm
    have hf := find?_eq_some_of_nodup (sound_of_build h).paths hm
    unfold target?
    dsimp only at hf
    rw [hf]
    rfl

theorem lookupTarget_eq_ok_iff {path : String} {t : CoreTarget} :
    p.lookupTarget path = .ok t ↔ p.target? path = some t := by
  unfold lookupTarget
  cases p.target? path <;> simp

theorem lookupObject_eq_ok_iff {path : String} {obj : ObjectHandle} :
    p.lookupObject path = .ok obj ↔ p.target? path = some (.object obj) := by
  unfold lookupObject
  rcases p.target? path with _ | (_ | _ | _) <;> simp

theorem lookupBody_eq_ok_iff {path : String} {body : BodyHandle} :
    p.lookupBody path = .ok body ↔ p.target? path = some (.body body) := by
  unfold lookupBody
  rcases p.target? path with _ | (_ | _ | _) <;> simp

theorem lookupScope_eq_ok_iff {path : String} {scope : ScopeHandle} :
    p.lookupScope path = .ok scope ↔ p.target? path = some (.scope scope) := by
  unfold lookupScope
  rcases p.target? path with _ | (_ | _ | _) <;> simp

theorem objectPath_eq_ok_iff {obj : ObjectHandle} {path : String} :
    p.objectPath obj = .ok path ↔ p.pathOf? (.object obj) = some path := by
  unfold objectPath
  cases p.pathOf? (.object obj) <;> simp

theorem bodyPath_eq_ok_iff {body : BodyHandle} {path : String} :
    p.bodyPath body = .ok path ↔ p.pathOf? (.body body) = some path := by
  unfold bodyPath
  cases p.pathOf? (.body body) <;> simp

/-! ## Counts -/

/-- What has been named falls into three kinds, each of which has an index of its own. -/
theorem length_eq_kinds (l : List CorePath) : l.length = (l.filter (·.target.isObject)).length +
    (l.filter (·.target.isBody)).length + (l.filter (·.target.isScope)).length := by
  induction l with
  | nil => rfl
  | cons e rest ih =>
    obtain ⟨path, t⟩ := e
    cases t <;>
      simp only [List.filter_cons, List.length_cons, CoreTarget.isObject, CoreTarget.isBody,
        CoreTarget.isScope, Bool.false_eq_true, if_true, if_false, ih] <;> omega

/-- **The index of a kind has as many entries as handles of the kind have a path.** -/
theorem encard_eq_size (h : build image roots = .ok p) {α : Type} {make : α → CoreTarget}
    (hinj : Function.Injective make) {kind : CoreTarget → Bool}
    (hkind : ∀ t, kind t = true ↔ ∃ a, make a = t) :
    {a | (p.pathOf? (make a)).isSome = true}.encard =
      (NameIndex.build CorePath.path (p.named.filter fun e => kind e.target)).size := by
  have himage : make '' {a | (p.pathOf? (make a)).isSome = true} =
      (((p.named.filter fun e => kind e.target).map (·.target)).toFinset : Set CoreTarget) := by
    ext t
    simp only [Set.mem_image, Set.mem_ofPred_eq, List.coe_toFinset, List.mem_map, List.mem_filter,
      Option.isSome_iff_exists, pathOf?_eq_some_iff h]
    constructor
    · rintro ⟨a, ⟨path, hm⟩, rfl⟩
      exact ⟨_, ⟨hm, (hkind _).2 ⟨a, rfl⟩⟩, rfl⟩
    · rintro ⟨⟨path, _⟩, ⟨hm, hk⟩, rfl⟩
      obtain ⟨a, rfl⟩ := (hkind _).1 hk
      exact ⟨a, ⟨path, hm⟩, rfl⟩
  have hnodup : ((p.named.filter fun e => kind e.target).map (·.target)).Nodup :=
    (sound_of_build h).targets.sublist (List.filter_sublist.map _)
  rw [← hinj.encard_image, himage, Set.encard_coe_eq_coe_finsetCard,
    List.toFinset_card_of_nodup hnodup, List.length_map, NameIndex.size_build]

/-! ## Both ways -/

/-- Paths that can be read both ways: by kind and for all kinds, from a target to its path and back,
and in the order of naming. -/
structure Invertible (p : CorePaths) : Prop where
  /-- No two targets, of whatever kinds, share a path. -/
  unshared : ∀ s t path, p.pathOf? s = some path → p.pathOf? t = some path → s = t
  /-- A path names the target whose path it is. -/
  target : ∀ path t, p.lookupTarget path = .ok t ↔ p.pathOf? t = some path
  /-- It names an object exactly if it is the path of one. -/
  object : ∀ path obj, p.lookupObject path = .ok obj ↔ p.objectPath obj = .ok path
  /-- It names a body exactly if it is the path of one. -/
  body : ∀ path body, p.lookupBody path = .ok body ↔ p.bodyPath body = .ok path
  /-- It names a scope exactly if it is the path of one. -/
  scope : ∀ path scope, p.lookupScope path = .ok scope ↔ p.scopePath? scope = some path
  /-- The paths listed are those of targets. -/
  listed : ∀ path, path ∈ p.traversalOrder ↔ ∃ t, p.pathOf? t = some path
  /-- No path is listed twice. -/
  once : p.traversalOrder.Nodup
  /-- The object index has as many entries as objects have a path. -/
  objects : {obj | p.isCoreObject obj = true}.encard = p.objects.size
  /-- The body index has as many entries as bodies have a path. -/
  bodies : {body | (p.pathOf? (.body body)).isSome = true}.encard = p.bodies.size
  /-- The scope index has as many entries as scopes have a path. -/
  scopes : {scope | (p.scopePath? scope).isSome = true}.encard = p.scopes.size
  /-- The list is as long as the three indices together. -/
  length : p.traversalOrder.length = p.objects.size + p.bodies.size + p.scopes.size

/-- **Resolution and look-up are inverse**, for every image and all roots for which the walk
succeeds. -/
theorem invertible_of_build (h : build image roots = .ok p) : Invertible p where
  unshared s t path hs ht := by
    rw [pathOf?_eq_some_iff h] at hs ht
    exact congrArg CorePath.target (eq_of_nodup_map (sound_of_build h).paths hs ht rfl)
  target path t := by rw [lookupTarget_eq_ok_iff, target?_eq_some_iff h]
  object path obj := by
    rw [lookupObject_eq_ok_iff, target?_eq_some_iff h, objectPath_eq_ok_iff]
  body path body := by rw [lookupBody_eq_ok_iff, target?_eq_some_iff h, bodyPath_eq_ok_iff]
  scope path scope := by rw [lookupScope_eq_ok_iff, target?_eq_some_iff h, scopePath?]
  listed path := by
    simp only [pathOf?_eq_some_iff h, traversalOrder, List.mem_map]
    constructor
    · rintro ⟨e, he, rfl⟩
      exact ⟨e.target, he⟩
    · rintro ⟨t, hm⟩
      exact ⟨_, hm, rfl⟩
  once := (sound_of_build h).paths
  objects := by
    obtain ⟨w, _, rfl⟩ := build_eq_ok_iff.1 h
    refine encard_eq_size h (fun a b => CoreTarget.object.inj) fun t => ?_
    cases t <;> simp [CoreTarget.isObject]
  bodies := by
    obtain ⟨w, _, rfl⟩ := build_eq_ok_iff.1 h
    refine encard_eq_size h (fun a b => CoreTarget.body.inj) fun t => ?_
    cases t <;> simp [CoreTarget.isBody]
  scopes := by
    obtain ⟨w, _, rfl⟩ := build_eq_ok_iff.1 h
    refine encard_eq_size h (fun a b => CoreTarget.scope.inj) fun t => ?_
    cases t <;> simp [CoreTarget.isScope]
  length := by
    obtain ⟨w, _, rfl⟩ := build_eq_ok_iff.1 h
    rw [traversalOrder, List.length_map, length_eq_kinds]
    simp only [ofNamed, NameIndex.size_build]

/-- An image whose names hold separators and marks, so that an object has a path that looks like
that of a body. -/
def taggedImage : CoreImage where
  ownProperties obj :=
    if obj = ⟨1⟩ then [⟨"c!get", .data (some ⟨4⟩)⟩, ⟨"a.b", .data (some ⟨2⟩)⟩,
      ⟨"a", .data (some ⟨3⟩)⟩, ⟨"c", .accessor none (some ⟨5⟩)⟩]
    else if obj = ⟨3⟩ then [⟨"b!body", .data (some ⟨6⟩)⟩]
    else []
  functionBody obj := if obj = ⟨4⟩ then some ⟨7⟩ else none
  debuggerScopes body := if body = ⟨7⟩ then [⟨8⟩, ⟨8⟩] else []

/-- What a walk over the image from one root names. -/
def taggedNames : List CorePath :=
  [⟨"g", .object ⟨1⟩⟩, ⟨"g.a", .object ⟨3⟩⟩, ⟨"g.a.b", .object ⟨2⟩⟩, ⟨"g.c!set", .object ⟨5⟩⟩,
    ⟨"g.c!get", .object ⟨4⟩⟩, ⟨"g.a.b!body", .object ⟨6⟩⟩, ⟨"g.c!get!body", .body ⟨7⟩⟩,
    ⟨"g.c!get!body!scope[0]", .scope ⟨8⟩⟩]

theorem build_taggedImage : build taggedImage [⟨"g", ⟨1⟩⟩] = .ok (ofNamed taggedNames) := by
  refine build_eq_ok_iff.2 ⟨⟨taggedNames, []⟩, ?_, rfl⟩
  exact Walk.ofRoots_of_runUpTo (n := 6) (by decide +kernel) rfl

/-- What looks like the path of a body is the path of an object here, and names that object only. -/
theorem invertible_taggedImage :
    build taggedImage [⟨"g", ⟨1⟩⟩] = .ok (ofNamed taggedNames) ∧
      Invertible (ofNamed taggedNames) ∧
      (ofNamed taggedNames).objectPath ⟨6⟩ = .ok "g.a.b!body" :=
  ⟨build_taggedImage, invertible_of_build build_taggedImage, by decide⟩

end CorePaths

end Retrace
