/-
# The sorted paths

For each kind of target there is an index of paths, filled in whatever order the targets are
enumerated and then sorted.  Whatever that order was, the indices are exact (`exactlySorted_of_build`):

| of | holds |
| --- | --- |
| each index | its paths ascend strictly, byte by byte, and each target of its kind stands there once |
| positions | every object and every body with a path has one, where it stands |
| a path from outside | it has a position exactly if it is the path of the object there |
| marks, and lines to be printed | they tell each target once: objects, then bodies, then scopes |

This rests on three things: that the walk gives no path to two targets, that sorting loses nothing, and
that the search finds every name in an index of any length.

The indices are those of the path resolver for enumeration and for the mark callback (specification,
section 4.3).
-/

import Retrace.Inspector
import Retrace.Proofs.CorePaths.Inverse
import Retrace.Proofs.CorePaths.Shape
import Retrace.Proofs.Order.Bytes

namespace Retrace

/-! ## Whoever is told what to keep -/

/-- One that is told, target by target, what to keep, and goes from state to state by it, as a
collector does in its mark phase. -/
structure MarkVisitor (σ : Type) where
  /-- It is told an object. -/
  object : ObjectHandle → σ → σ
  /-- It is told a body. -/
  body : BodyHandle → σ → σ
  /-- It is told a scope. -/
  scope : ScopeHandle → σ → σ

namespace MarkVisitor

/-- It is told a target, in the way that is meant for its kind. -/
def visit {σ : Type} (v : MarkVisitor σ) : CoreTarget → σ → σ
  | .object obj => v.object obj
  | .body body => v.body body
  | .scope scope => v.scope scope

/-- One that lists the targets in the order told. -/
def listing : MarkVisitor (List CoreTarget) where
  object obj told := told ++ [.object obj]
  body body told := told ++ [.body body]
  scope scope told := told ++ [.scope scope]

/-- One that collects marks. -/
def collecting : MarkVisitor Marks where
  object obj m := m ++ CorePaths.mark (.object obj)
  body body m := m ++ CorePaths.mark (.body body)
  scope scope m := m ++ CorePaths.mark (.scope scope)

theorem visit_listing (t : CoreTarget) (told : List CoreTarget) :
    listing.visit t told = told ++ [t] := by
  cases t <;> rfl

theorem visit_collecting (t : CoreTarget) (m : Marks) :
    collecting.visit t m = m ++ CorePaths.mark t := by
  cases t <;> rfl

end MarkVisitor

namespace CorePaths

variable {image : CoreImage} {roots : List NamedRoot} {p q : CorePaths}

/-- Tells a visitor every target in sorted order: objects, then bodies, then scopes, each in the
order of its index. -/
def tell {σ : Type} (p : CorePaths) (v : MarkVisitor σ) (s : σ) : σ :=
  p.sorted.foldl (fun s e => v.visit e.target s) s

/-- The marks are what a visitor collects, so that what holds of all visitors holds of them. -/
theorem marks_eq_tell (p : CorePaths) : p.marks = p.tell .collecting {} := by
  simp only [marks, tell, MarkVisitor.visit_collecting]

theorem tell_listing (p : CorePaths) (told : List CoreTarget) :
    p.tell .listing told = told ++ p.sorted.map (·.target) := by
  unfold tell
  induction p.sorted generalizing told with
  | nil => rw [List.foldl_nil, List.map_nil, List.append_nil]
  | cons e rest ih =>
    rw [List.foldl_cons, ih, MarkVisitor.visit_listing, List.map_cons, List.append_assoc,
      List.singleton_append]

/-- Every visitor is told what one that lists it has in its list. -/
theorem tell_eq_foldl {σ : Type} (p : CorePaths) (v : MarkVisitor σ) (s : σ) :
    p.tell v s = (p.tell .listing []).foldl (fun s t => v.visit t s) s := by
  rw [tell_listing, List.nil_append, List.foldl_map, tell]

/-! ## One index -/

/-- An index of the targets of one kind, as it should be: sorted by path, without repetitions, and
with nothing missing or made up. -/
structure IndexExact (p : CorePaths) (kind : CoreTarget → Bool)
    (x : NameIndex CorePath (·.path)) : Prop where
  /-- The paths ascend strictly, byte by byte. -/
  ascending : x.toList.Pairwise fun a b => bytes a.path < bytes b.path
  /-- The entries are the targets of the kind that have a path, each with its path. -/
  entries : ∀ e, e ∈ x.toList ↔ kind e.target = true ∧ p.pathOf? e.target = some e.path
  /-- Each of these targets stands there once. -/
  once : ∀ t, (x.toList.map (·.target)).count t =
    if kind t = true ∧ (p.pathOf? t).isSome = true then 1 else 0

/-- **An index filled in any order is exact**, as sorting loses nothing and equal paths do not
occur. -/
theorem indexExact_build (h : build image roots = .ok p) (hq : q.named = p.named)
    {kind : CoreTarget → Bool} {l : List CorePath}
    (hl : l.Perm (p.named.filter fun e => kind e.target)) : IndexExact q kind (.build _ l) := by
  have hs := sound_of_build h
  have hperm : (NameIndex.build CorePath.path l).toList.Perm _ := (NameIndex.perm_build l).trans hl
  have entries : ∀ e, e ∈ (NameIndex.build CorePath.path l).toList ↔
      kind e.target = true ∧ q.pathOf? e.target = some e.path := fun e => by
    rw [hperm.mem_iff, List.mem_filter, pathOf?_congr hq, pathOf?_eq_some_iff h, and_comm]
  refine ⟨?_, entries, fun t => ?_⟩
  · have hnodup : (l.map CorePath.path).Nodup :=
      (hl.map _).nodup_iff.2 (hs.paths.sublist (List.filter_sublist.map _))
    have hlt := NameIndex.pairwise_lt_names_build hnodup
    rw [NameIndex.names, List.pairwise_map] at hlt
    exact hlt.imp (lt_iff_bytes_lt _ _).1
  · have hnodup : ((NameIndex.build CorePath.path l).toList.map (·.target)).Nodup :=
      (hperm.map _).nodup_iff.2 (hs.targets.sublist (List.filter_sublist.map _))
    have hmem : t ∈ (NameIndex.build CorePath.path l).toList.map (·.target) ↔
        kind t = true ∧ (q.pathOf? t).isSome = true := by
      rw [List.mem_map, Option.isSome_iff_exists]
      constructor
      · rintro ⟨e, he, rfl⟩
        exact ((entries e).1 he).imp_right fun hp => ⟨_, hp⟩
      · rintro ⟨hk, path, hp⟩
        exact ⟨⟨path, t⟩, (entries _).2 ⟨hk, hp⟩, rfl⟩
    rw [hnodup.count]
    exact if_congr hmem rfl rfl

/-! ## Positions -/

variable {kind : CoreTarget → Bool} {l : List CorePath}

theorem IndexExact.nodup_names {x : NameIndex CorePath (·.path)} (hx : IndexExact p kind x) :
    x.names.Nodup := by
  rw [NameIndex.names, List.Nodup, List.pairwise_map]
  refine hx.ascending.imp fun {a b} hlt he => ?_
  rw [he] at hlt
  exact List.lt_irrefl _ hlt

/-- **The path of a target is found, and where it stands the target stands.** -/
theorem IndexExact.required (hx : IndexExact p kind (.build _ l)) {t : CoreTarget} {path : String}
    (hk : kind t = true) (hp : p.pathOf? t = some path) :
    ∃ k, (NameIndex.build CorePath.path l).required path = .ok k ∧
      (NameIndex.build CorePath.path l).get? k = some ⟨path, t⟩ := by
  have hmem := (hx.entries ⟨path, t⟩).2 ⟨hk, hp⟩
  obtain ⟨k, hreq⟩ := NameIndex.required_build_of_mem
    (List.mem_map.2 ⟨_, (NameIndex.perm_build l).mem_iff.1 hmem, rfl⟩)
  obtain ⟨e, he, hpath⟩ := (NameIndex.position?_eq_some_iff_get? (NameIndex.ordered_build l)
    hx.nodup_names).1 (NameIndex.required_eq_ok_iff.1 hreq)
  -- The entry that stands there has the same path, so it is the same one.
  have hemem := Array.mem_toList_iff.2 (Array.mem_of_getElem? he)
  obtain rfl := eq_of_nodup_map hx.nodup_names hemem hmem hpath
  exact ⟨k, hreq, he⟩

theorem objectAt_eq_ok_iff {k : Nat} {obj : ObjectHandle} :
    p.objectAt k = .ok obj ↔ ∃ path, p.objects.get? k = some ⟨path, .object obj⟩ := by
  unfold objectAt
  cases p.objects.get? k with
  | none => simp
  | some e =>
    obtain ⟨path, t⟩ := e
    cases t <;> simp

/-- **A path from outside is found exactly where an object stands whose path it is.** -/
theorem IndexExact.positionOfPath?_eq_some_iff
    (hx : IndexExact p CoreTarget.isObject p.objects) (hl : p.objects = .build _ l)
    {path : String} {k : Nat} : p.positionOfPath? path = some k ↔
      ∃ obj, p.objectAt k = .ok obj ∧ p.objectPath obj = .ok path := by
  have hordered : p.objects.Ordered := by
    rw [hl]
    exact NameIndex.ordered_build l
  have hentry : ∀ e, p.objects.get? k = some e →
      e.target.isObject = true ∧ p.pathOf? e.target = some e.path := fun e he =>
    (hx.entries e).1 (Array.mem_toList_iff.2 (Array.mem_of_getElem? he))
  rw [positionOfPath?, NameIndex.position?_eq_some_iff_get? hordered hx.nodup_names]
  constructor
  · rintro ⟨⟨_, t⟩, he, rfl⟩
    obtain ⟨hobject, hpath⟩ := hentry _ he
    cases t with
    | object obj => exact ⟨obj, objectAt_eq_ok_iff.2 ⟨_, he⟩, objectPath_eq_ok_iff.2 hpath⟩
    | body => cases hobject
    | scope => cases hobject
  · rintro ⟨obj, hat, hpath⟩
    obtain ⟨path', he⟩ := objectAt_eq_ok_iff.1 hat
    have hsame := (hentry _ he).2.symm.trans (objectPath_eq_ok_iff.1 hpath)
    exact ⟨_, he, Option.some.inj hsame⟩

/-! ## Lines -/

/-- The line to be printed for a target with a path. -/
def line (t : CoreTarget) (path : String) : String := s!"{Inspector.kindOf t}\t{path}"

/-- What follows the first tab of a line is the path. -/
theorem dropWhile_line (t : CoreTarget) (path : String) :
    (line t path).toList.dropWhile (· ≠ '\t') = '\t' :: path.toList := by
  have hl : (line t path).toList = (Inspector.kindOf t).toList ++ '\t' :: path.toList := by
    simp only [line, String.toList_append, toString]
    rw [List.append_assoc]
    rfl
  have hkind : ((Inspector.kindOf t).toList.all fun c => c ≠ '\t') = true := by
    cases t <;> simp [Inspector.kindOf]
  rw [hl, List.dropWhile_append_of_pos (List.all_eq_true.1 hkind),
    List.dropWhile_cons_of_neg (by decide)]

theorem path_eq_of_line_eq {s t : CoreTarget} {a b : String} (h : line s a = line t b) :
    a = b := by
  have ha := dropWhile_line s a
  rw [h, dropWhile_line] at ha
  exact (String.toList_inj.1 (List.cons.inj ha).2).symm

/-- The word for each kind. -/
theorem kindOf_eq (t : CoreTarget) : (t.isObject = true → Inspector.kindOf t = "object") ∧
    (t.isBody = true → Inspector.kindOf t = "body") ∧
    (t.isScope = true → Inspector.kindOf t = "scope") := by
  cases t <;> simp [CoreTarget.isObject, CoreTarget.isBody, CoreTarget.isScope, Inspector.kindOf]

/-- The lines for the targets of one kind begin with the word for it. -/
theorem IndexExact.map_line {x : NameIndex CorePath (·.path)} (hx : IndexExact p kind x)
    (word : String) (hword : ∀ t, kind t = true → Inspector.kindOf t = word) :
    (x.toList.map fun e => s!"{Inspector.kindOf e.target}\t{e.path}") =
      x.toList.map fun e => s!"{word}\t{e.path}" :=
  List.map_congr_left fun e he => by rw [hword _ ((hx.entries e).1 he).1]

/-! ## All kinds -/

/-- Core paths that are sorted as they should be: the three indices, the positions in them, and what
is listed, marked and printed by them. -/
structure ExactlySorted (p : CorePaths) : Prop where
  /-- The index of objects is exact. -/
  objects : IndexExact p CoreTarget.isObject p.objects
  /-- The index of bodies is exact. -/
  bodies : IndexExact p CoreTarget.isBody p.bodies
  /-- The index of scopes is exact. -/
  scopes : IndexExact p CoreTarget.isScope p.scopes
  /-- Every object with a path has a position, and is found there. -/
  objectPosition : ∀ obj, p.isCoreObject obj = true →
    ∃ k, p.objectPosition obj = .ok k ∧ p.objectAt k = .ok obj
  /-- Every body with a path has a position, and is found there. -/
  bodyPosition : ∀ body path, p.pathOf? (.body body) = some path →
    ∃ k, p.bodyPosition body = .ok k ∧ p.bodies.get? k = some ⟨path, .body body⟩
  /-- A path from outside has a position exactly if it is the path of the object there. -/
  positionOfPath : ∀ path k, p.positionOfPath? path = some k ↔
    ∃ obj, p.objectAt k = .ok obj ∧ p.objectPath obj = .ok path
  /-- The marks are what a visitor collects. -/
  marks : p.marks = p.tell .collecting {}
  /-- Every visitor is told the same targets in the same order. -/
  visitors : ∀ {σ : Type} (v : MarkVisitor σ) (s : σ),
    p.tell v s = (p.tell .listing []).foldl (fun s t => v.visit t s) s
  /-- It is told the objects, then the bodies, then the scopes, each in the order of its
  index. -/
  told : p.tell .listing [] = p.objects.toList.map (·.target) ++ p.bodies.toList.map (·.target) ++
    p.scopes.toList.map (·.target)
  /-- It is told each target that has a path, and no other, and each of them once. -/
  toldOnce : ∀ t, (p.tell .listing []).count t = if (p.pathOf? t).isSome = true then 1 else 0
  /-- So are the lines to be printed. -/
  lines : Inspector.pathLines p = (p.objects.toList.map fun e => s!"object\t{e.path}") ++
    (p.bodies.toList.map fun e => s!"body\t{e.path}") ++
    (p.scopes.toList.map fun e => s!"scope\t{e.path}")
  /-- Each target that has a path has its line, and no line stands there twice. -/
  linesOnce : (Inspector.pathLines p).Nodup ∧
    ∀ l, l ∈ Inspector.pathLines p ↔ ∃ t path, p.pathOf? t = some path ∧ l = line t path

/-- The sorted paths are those of the targets that have one, each with its target. -/
theorem mem_sorted_iff (ho : IndexExact p CoreTarget.isObject p.objects)
    (hb : IndexExact p CoreTarget.isBody p.bodies) (hs : IndexExact p CoreTarget.isScope p.scopes)
    (e : CorePath) : e ∈ p.sorted ↔ p.pathOf? e.target = some e.path := by
  rw [sorted, List.mem_append, List.mem_append, ho.entries, hb.entries, hs.entries]
  cases e.target <;> simp [CoreTarget.isObject, CoreTarget.isBody, CoreTarget.isScope]

/-- Each target that has a path stands among the sorted ones once. -/
theorem count_sorted (ho : IndexExact p CoreTarget.isObject p.objects)
    (hb : IndexExact p CoreTarget.isBody p.bodies) (hs : IndexExact p CoreTarget.isScope p.scopes)
    (t : CoreTarget) :
    (p.sorted.map (·.target)).count t = if (p.pathOf? t).isSome = true then 1 else 0 := by
  rw [sorted, List.map_append, List.map_append, List.count_append, List.count_append, ho.once,
    hb.once, hs.once]
  cases t <;> simp [CoreTarget.isObject, CoreTarget.isBody, CoreTarget.isScope]

/-- **The sorted paths are exact**, for every image and all roots for which the walk succeeds, in
whatever order the targets are enumerated when the indices are filled. -/
theorem exactlySorted_of_build (h : build image roots = .ok p) :
    ∀ q, Enumerates p.named q → ExactlySorted q := by
  intro q hq
  obtain ⟨lo, hlo, hobjects⟩ := hq.objects
  obtain ⟨lb, hlb, hbodies⟩ := hq.bodies
  obtain ⟨ls, hls, hscopes⟩ := hq.scopes
  have ho := indexExact_build h hq.order hlo
  have hb := indexExact_build h hq.order hlb
  have hs := indexExact_build h hq.order hls
  rw [← hobjects] at ho
  rw [← hbodies] at hb
  rw [← hscopes] at hs
  have hmem := mem_sorted_iff ho hb hs
  have htold : q.tell .listing [] = q.sorted.map (·.target) := tell_listing q []
  -- Entries of different targets have different lines, for no path is shared.
  have hsame : ∀ e ∈ q.sorted, ∀ e' ∈ q.sorted, e.path = e'.path → e = e' := fun e he e' he' hp => by
    rw [hmem, pathOf?_congr hq.order, pathOf?_eq_some_iff h] at he he'
    exact eq_of_nodup_map (sound_of_build h).paths he he' hp
  have hnodup : (q.sorted.map (·.target)).Nodup := by
    rw [List.nodup_iff_count_le_one]
    intro t
    rw [count_sorted ho hb hs]
    split <;> omega
  refine ⟨ho, hb, hs, fun obj hobj => ?_, fun body path hbody => ?_, fun path k => ?_,
    marks_eq_tell q, fun v s => tell_eq_foldl q v s, ?_, fun t => ?_, ?_, ?_, fun l => ?_⟩
  · obtain ⟨path, hp⟩ := Option.isSome_iff_exists.1 hobj
    obtain ⟨k, hreq, hget⟩ := (hobjects ▸ ho).required (t := .object obj) rfl hp
    rw [← hobjects] at hreq hget
    exact ⟨k, (objectPosition_eq hp).trans hreq, objectAt_eq_ok_iff.2 ⟨path, hget⟩⟩
  · obtain ⟨k, hreq, hget⟩ := (hbodies ▸ hb).required (t := .body body) rfl hbody
    rw [← hbodies] at hreq hget
    exact ⟨k, (bodyPosition_eq hbody).trans hreq, hget⟩
  · exact ho.positionOfPath?_eq_some_iff hobjects
  · rw [htold, sorted, List.map_append, List.map_append]
  · rw [htold, count_sorted ho hb hs]
  · rw [Inspector.pathLines, sorted, List.map_append, List.map_append,
      ho.map_line "object" fun t => (kindOf_eq t).1, hb.map_line "body" fun t => (kindOf_eq t).2.1,
      hs.map_line "scope" fun t => (kindOf_eq t).2.2]
    rfl
  · exact (List.Nodup.of_map _ hnodup).map_on fun e he e' he' hl =>
      hsame e he e' he' (path_eq_of_line_eq hl)
  · rw [Inspector.pathLines, List.mem_map]
    constructor
    · rintro ⟨e, he, rfl⟩
      exact ⟨e.target, e.path, (hmem e).1 he, rfl⟩
    · rintro ⟨t, path, hp, rfl⟩
      exact ⟨⟨path, t⟩, (hmem _).2 hp, rfl⟩

/-- In the image whose names hold separators and marks, with indices filled from the target named last:
the paths of objects ascend though they were named in another order. -/
theorem exactlySorted_fromLast : build taggedImage [⟨"g", ⟨1⟩⟩] = .ok (ofNamed taggedNames) ∧
    ExactlySorted (fromLast taggedNames) ∧
    (fromLast taggedNames).objects.toList.map (·.path) =
      ["g", "g.a", "g.a.b", "g.a.b!body", "g.c!get", "g.c!set"] ∧
    (fromLast taggedNames).objectPosition ⟨5⟩ = .ok 5 ∧
    (fromLast taggedNames).positionOfPath? "g.c!get!body" = none :=
  ⟨build_taggedImage, exactlySorted_of_build build_taggedImage _ (enumerates_fromLast _),
    by decide +kernel, by decide +kernel, by decide +kernel⟩

end CorePaths

end Retrace
