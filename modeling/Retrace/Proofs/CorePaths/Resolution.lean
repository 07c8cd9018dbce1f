/-
# Paths and their targets

What the paths of an image answer, in terms of what the walk has named.  A target has a path exactly
if it can be reached (`pathOf?_isSome_iff`), and then it has one path only.  The indices may be filled
in any order (`Enumerates`).

These are the look-ups forward of the path resolver (specification, section 4.3).
-/

import Retrace.Proofs.CorePaths.Reach
import Retrace.Proofs.Distinct
import Retrace.Proofs.Order.NameIndex

namespace Retrace

namespace CorePaths

variable {image : CoreImage} {roots : List NamedRoot} {p : CorePaths}

theorem build_eq_ok_iff : build image roots = .ok p ↔
    ∃ w, Walk.ofRoots image roots = .ok w ∧ p = ofNamed w.named := by
  unfold build
  cases Walk.ofRoots image roots with
  | error err => simp [Except.map]
  | ok w => simp [Except.map, eq_comm]

/-- The walk behind the paths of an image is sound: no target and no path is named twice, and every
path is due. -/
theorem sound_of_build (h : build image roots = .ok p) : Walk.Sound image roots ⟨p.named, []⟩ := by
  obtain ⟨⟨named, queue⟩, hw, rfl⟩ := build_eq_ok_iff.1 h
  obtain ⟨⟨hs, _⟩, rfl⟩ := Walk.sound_and_closed hw
  exact hs

theorem mem_named_of_pathOf? {t : CoreTarget} {path : String} (h : p.pathOf? t = some path) :
    ⟨path, t⟩ ∈ p.named := by
  obtain ⟨e, he, rfl⟩ := Option.map_eq_some_iff.1 h
  have ht := List.find?_some he
  rw [decide_eq_true_eq] at ht
  rw [← ht]
  exact List.mem_of_find?_eq_some he

/-- Where no target is named twice, the path of a target is the one by which it is named. -/
theorem pathOf?_of_mem (hn : (p.named.map (·.target)).Nodup) {t : CoreTarget} {path : String}
    (h : ⟨path, t⟩ ∈ p.named) : p.pathOf? t = some path := by
  have hf := find?_eq_some_of_nodup hn h
  unfold pathOf?
  dsimp only at hf
  rw [hf]
  rfl

/-- **A target has a path exactly if it is named by it.** -/
theorem pathOf?_eq_some_iff (h : build image roots = .ok p) {t : CoreTarget} {path : String} :
    p.pathOf? t = some path ↔ ⟨path, t⟩ ∈ p.named :=
  ⟨mem_named_of_pathOf?, pathOf?_of_mem (sound_of_build h).targets⟩

/-- **A target has a path exactly if it can be reached** from the roots, be it an object, a body or
a scope. -/
theorem pathOf?_isSome_iff (h : build image roots = .ok p) (t : CoreTarget) :
    (p.pathOf? t).isSome = true ↔ image.Reaches roots t := by
  obtain ⟨w, hw, rfl⟩ := build_eq_ok_iff.1 h
  rw [← Walk.isNamed_iff_reaches hw, Walk.isNamed_iff, Option.isSome_iff_exists]
  constructor
  · rintro ⟨path, hp⟩
    exact ⟨_, mem_named_of_pathOf? hp, rfl⟩
  · rintro ⟨e, he, rfl⟩
    exact ⟨e.path, (pathOf?_eq_some_iff h).2 he⟩

/-- **The path of a body is that of an owner, marked.**  Of several owners it is one that has a
path. -/
theorem pathOf?_body (h : build image roots = .ok p) {body : BodyHandle} {path : String}
    (hp : p.pathOf? (.body body) = some path) : ∃ obj owner, image.functionBody obj = some body ∧
      p.pathOf? (.object obj) = some owner ∧ path = Retrace.bodyPath owner := by
  cases (sound_of_build h).owed _ (mem_named_of_pathOf? hp) with
  | body hm hb => exact ⟨_, _, hb, (pathOf?_eq_some_iff h).2 hm, rfl⟩

/-- **The path of a scope is that of a body with a slot that holds it.** -/
theorem pathOf?_scope (h : build image roots = .ok p) {scope : ScopeHandle} {path : String}
    (hp : p.pathOf? (.scope scope) = some path) : ∃ body owner slot,
      (image.debuggerScopes body)[slot]? = some scope ∧ p.pathOf? (.body body) = some owner ∧
      path = scopePath owner slot := by
  cases (sound_of_build h).owed _ (mem_named_of_pathOf? hp) with
  | scope hm hs => exact ⟨_, _, _, hs, (pathOf?_eq_some_iff h).2 hm, rfl⟩

/-! ## Indices -/

/-- Paths whose indices are sorted from what has been named, enumerated in any order, as a table
would list it that keeps no order of its own. -/
structure Enumerates (named : List CorePath) (p : CorePaths) : Prop where
  /-- What has been named, in the order of naming. -/
  order : p.named = named
  /-- The objects come in any order. -/
  objects : ∃ l, l.Perm (named.filter (·.target.isObject)) ∧ p.objects = .build _ l
  /-- So do the bodies. -/
  bodies : ∃ l, l.Perm (named.filter (·.target.isBody)) ∧ p.bodies = .build _ l
  /-- So do the scopes. -/
  scopes : ∃ l, l.Perm (named.filter (·.target.isScope)) ∧ p.scopes = .build _ l

theorem enumerates_of_build (h : build image roots = .ok p) : Enumerates p.named p := by
  obtain ⟨w, _, rfl⟩ := build_eq_ok_iff.1 h
  exact ⟨rfl, ⟨_, .refl _, rfl⟩, ⟨_, .refl _, rfl⟩, ⟨_, .refl _, rfl⟩⟩

theorem pathOf?_congr {q : CorePaths} (h : q.named = p.named) (t : CoreTarget) :
    q.pathOf? t = p.pathOf? t := by
  rw [pathOf?, pathOf?, h]

theorem objectPosition_eq {obj : ObjectHandle} {path : String}
    (h : p.pathOf? (.object obj) = some path) : p.objectPosition obj = p.objects.required path := by
  rw [objectPosition, objectPath, h, ok_bind]

theorem bodyPosition_eq {body : BodyHandle} {path : String}
    (h : p.pathOf? (.body body) = some path) : p.bodyPosition body = p.bodies.required path := by
  rw [bodyPosition, bodyPath, h, ok_bind]

end CorePaths

end Retrace
