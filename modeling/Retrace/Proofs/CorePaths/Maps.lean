/-
# One list answers as the maps do

Building the maps of `PathMaps` and walking with one list come to the same (`PathMaps.build_answers`).
Either both fail, with the same error, or both succeed, and then

| the maps | the list |
| --- | --- |
| `objectPaths`, `bodyPaths`, `scopePaths` | `pathOf?` |
| `pathTargets` | `target?` |
| `traversalOrder` | `traversalOrder` |
| the sizes | `objectCount`, `bodyCount`, `scopeCount` |
| `PathMaps.objects`, `bodies`, `scopes` | `objects`, `bodies`, `scopes` |

answer alike, for every target, every path and every order in which a map lists its entries.  All other
answers are worked out from these.

The walks go in step (`Follows`).  They differ in when the path of a body is noted; but naming scopes
does not look at the bodies, so it could as well be noted before (`takeBody_eq`).

So the maps of the specification (section 4.3) make answers faster, but no others.
-/

import Retrace.CorePaths.Maps
import Retrace.Proofs.CorePaths.Resolution

namespace Retrace

open Std (HashMap)

/-! ## Looking through a list -/

/-- The path of a target among what has been named: that of the first entry for the target. -/
def pathIn (named : List CorePath) (t : CoreTarget) : Option String :=
  (named.find? fun e => e.target = t).map (·.path)

/-- What a path names among what has been named: the target of the first entry with the path. -/
def targetIn (named : List CorePath) (path : String) : Option CoreTarget :=
  (named.find? fun e => e.path = path).map (·.target)

theorem pathIn_append (named : List CorePath) (e : CorePath) (t : CoreTarget) :
    pathIn (named ++ [e]) t = (pathIn named t).or (if e.target = t then some e.path else none) := by
  unfold pathIn
  rw [List.find?_append, Option.map_or]
  by_cases h : e.target = t <;> simp [h]

theorem targetIn_append (named : List CorePath) (e : CorePath) (path : String) :
    targetIn (named ++ [e]) path =
      (targetIn named path).or (if e.path = path then some e.target else none) := by
  unfold targetIn
  rw [List.find?_append, Option.map_or]
  by_cases h : e.path = path <;> simp [h]

theorem isNamed_eq_isSome (w : Walk) (t : CoreTarget) :
    w.isNamed t = (pathIn w.named t).isSome := by
  rw [pathIn, Option.isSome_map, Walk.isNamed, Bool.eq_iff_iff, List.find?_isSome,
    List.any_eq_true]

/-! ## Maps that hold what has been named -/

/-- The maps hold just what has been named, and in that order. -/
structure PathMaps.Holds (m : PathMaps) (named : List CorePath) : Prop where
  /-- The path of each object. -/
  objects : ∀ obj, m.objectPaths[obj]? = pathIn named (.object obj)
  /-- The path of each body. -/
  bodies : ∀ body, m.bodyPaths[body]? = pathIn named (.body body)
  /-- The path of each scope. -/
  scopes : ∀ scope, m.scopePaths[scope]? = pathIn named (.scope scope)
  /-- What each path names. -/
  targets : ∀ path, m.pathTargets[path]? = targetIn named path
  /-- The paths in the order of naming. -/
  order : m.traversalOrder = named.map (·.path)

/-- The maps with a path claimed for a target: it has a target now, but the target has no path
yet. -/
def PathMaps.claimed (path : String) (t : CoreTarget) (m : PathMaps) : PathMaps :=
  { m with
    pathTargets := m.pathTargets.insert path t
    traversalOrder := m.traversalOrder ++ [path] }

/-- The maps with a path noted for a target, in the map of its kind. -/
def PathMaps.noted (path : String) (m : PathMaps) : CoreTarget → PathMaps
  | .object obj => { m with objectPaths := m.objectPaths.insert obj path }
  | .body body => { m with bodyPaths := m.bodyPaths.insert body path }
  | .scope scope => { m with scopePaths := m.scopePaths.insert scope path }

/-- **A new target under a free path goes into the maps** as it goes to the end of the list. -/
theorem PathMaps.Holds.named {m : PathMaps} {named : List CorePath} (h : m.Holds named)
    {path : String} {t : CoreTarget} (hnew : pathIn named t = none)
    (hfree : targetIn named path = none) :
    ((m.claimed path t).noted path t).Holds (named ++ [⟨path, t⟩]) := by
  have hpath : ∀ s, pathIn (named ++ [⟨path, t⟩]) s =
      if t = s then some path else pathIn named s := fun s => by
    rw [pathIn_append]
    by_cases hs : t = s
    · subst hs
      simp [hnew]
    · simp [hs]
  have htarget : ∀ q, targetIn (named ++ [⟨path, t⟩]) q =
      if path = q then some t else targetIn named q := fun q => by
    rw [targetIn_append]
    by_cases hq : path = q
    · subst hq
      simp [hfree]
    · simp [hq]
  cases t <;> constructor <;>
    simp [PathMaps.noted, PathMaps.claimed, hpath, htarget, HashMap.getElem?_insert, h.objects,
      h.bodies, h.scopes, h.targets, h.order]

/-! ## Walks in step -/

namespace MapWalk

/-- A walk that fills maps is where a walk with one list is. -/
structure Follows (m : MapWalk) (w : Walk) : Prop where
  /-- The maps hold what has been named. -/
  holds : m.toPathMaps.Holds w.named
  /-- The same objects wait. -/
  queue : m.queue = w.queue.map (·.2)
  /-- An object waits with its path. -/
  queued : ∀ q ∈ w.queue, pathIn w.named (.object q.2) = some q.1

/-- Walks in step, or failures by one error: what a walk with maps comes to beside what the walk
with one list comes to. -/
inductive InStep : Except Error MapWalk → Except Error Walk → Prop where
  /-- Both walks go on, in step. -/
  | ok {m : MapWalk} {w : Walk} (h : m.Follows w) : InStep (.ok m) (.ok w)
  /-- Both have failed, by the same error. -/
  | error (e : Error) : InStep (.error e) (.error e)

variable {m : MapWalk} {w : Walk}

theorem InStep.bind {x : Except Error MapWalk} {y : Except Error Walk}
    {f : MapWalk → Except Error MapWalk} {g : Walk → Except Error Walk} (h : InStep x y)
    (hfg : ∀ {m w}, m.Follows w → InStep (f m) (g w)) : InStep (x >>= f) (y >>= g) := by
  cases h with
  | ok h => exact hfg h
  | error e => exact .error e

theorem InStep.cases {x : Except Error MapWalk} {y : Except Error Walk} (h : InStep x y) :
    (∃ e, x = .error e ∧ y = .error e) ∨ ∃ m w, x = .ok m ∧ y = .ok w ∧ m.Follows w := by
  cases h with
  | ok h => exact .inr ⟨_, _, rfl, rfl, h⟩
  | error e => exact .inl ⟨e, rfl, rfl⟩

theorem InStep.foldlM {α : Type} {f : MapWalk → α → Except Error MapWalk}
    {g : Walk → α → Except Error Walk} (hfg : ∀ m w a, m.Follows w → InStep (f m a) (g w a))
    {l : List α} (h : m.Follows w) : InStep (l.foldlM f m) (l.foldlM g w) := by
  induction l generalizing m w with
  | nil => exact .ok h
  | cons a l ih =>
    rw [List.foldlM_cons, List.foldlM_cons]
    exact (hfg m w a h).bind ih

/-- A path is claimed by both, or taken for both and by the same target, so that the errors are the
same. -/
theorem Follows.claim_cases (h : m.Follows w) (path : String) (t : CoreTarget) :
    (∃ e, m.claim path t = .error e ∧ w.claim path t = .error e) ∨
      targetIn w.named path = none ∧
        m.claim path t = .ok { m with toPathMaps := m.toPathMaps.claimed path t } ∧
        w.claim path t = .ok { w with named := w.named ++ [⟨path, t⟩] } := by
  have htargets := h.holds.targets path
  unfold claim Walk.claim
  cases hf : w.named.find? fun e => e.path = path with
  | some e =>
    have hin : targetIn w.named path = some e.target := by rw [targetIn, hf]; rfl
    rw [htargets, hin]
    exact .inl ⟨_, rfl, rfl⟩
  | none =>
    have hin : targetIn w.named path = none := by rw [targetIn, hf]; rfl
    rw [htargets, hin]
    exact .inr ⟨rfl, rfl, rfl⟩

/-- A target that is named goes into the maps and to the end of the list, and nothing else waits. -/
theorem Follows.named (h : m.Follows w) {path : String} {t : CoreTarget}
    (hnew : pathIn w.named t = none) (hfree : targetIn w.named path = none) :
    Follows { m with toPathMaps := (m.toPathMaps.claimed path t).noted path t }
      { w with named := w.named ++ [⟨path, t⟩] } where
  holds := h.holds.named hnew hfree
  queue := h.queue
  queued q hq := by rw [pathIn_append, h.queued q hq, Option.some_or]

theorem Follows.contains_object (h : m.Follows w) (obj : ObjectHandle) :
    m.objectPaths.contains obj = w.isNamed (.object obj) := by
  rw [HashMap.contains_eq_isSome_getElem?, h.holds.objects, isNamed_eq_isSome]

theorem Follows.contains_body (h : m.Follows w) (body : BodyHandle) :
    m.bodyPaths.contains body = w.isNamed (.body body) := by
  rw [HashMap.contains_eq_isSome_getElem?, h.holds.bodies, isNamed_eq_isSome]

theorem Follows.contains_scope (h : m.Follows w) (scope : ScopeHandle) :
    m.scopePaths.contains scope = w.isNamed (.scope scope) := by
  rw [HashMap.contains_eq_isSome_getElem?, h.holds.scopes, isNamed_eq_isSome]

theorem pathIn_eq_none {t : CoreTarget} (h : ¬w.isNamed t = true) : pathIn w.named t = none := by
  rw [isNamed_eq_isSome, Bool.not_eq_true, Option.isSome_eq_false_iff, Option.isNone_iff_eq_none] at h
  exact h

/-- **An object is reached in step**: it has a path for both, or for neither. -/
theorem Follows.reach (h : m.Follows w) (path : String) (obj : ObjectHandle) :
    InStep (m.reach path obj) (w.reach path obj) := by
  unfold MapWalk.reach Walk.reach
  rw [h.contains_object obj]
  by_cases hn : w.isNamed (.object obj) = true
  · rw [if_pos hn, if_pos hn]
    exact .ok h
  · rw [if_neg hn, if_neg hn]
    rcases h.claim_cases path (.object obj) with ⟨e, hm, hw⟩ | ⟨hfree, hm, hw⟩
    · rw [hm, hw]
      exact .error e
    · rw [hm, hw]
      have hnamed := h.named (pathIn_eq_none hn) hfree
      refine .ok ⟨hnamed.holds, ?_, fun q hq => ?_⟩
      · simp [h.queue]
      · rcases List.mem_append.1 hq with hq | hq
        · exact hnamed.queued q hq
        · rw [List.mem_singleton.1 hq, pathIn_append, pathIn_eq_none hn]
          simp

theorem Follows.reachChild (h : m.Follows w) (parent name : String) (tag : Option String)
    (value : Option ObjectHandle) :
    InStep (m.reachChild parent name tag value) (w.reachChild parent name tag value) := by
  cases value with
  | none => exact .ok h
  | some obj =>
    -- An object with a path would be left alone also if it were reached.
    have heq : m.reachChild parent name tag (some obj) = m.reach (childPath parent name tag) obj := by
      by_cases hc : m.objectPaths.contains obj = true <;>
        simp [MapWalk.reachChild, MapWalk.reach, hc]
    rw [heq]
    exact h.reach _ obj

theorem Follows.takeProperty (h : m.Follows w) (parent : String) (p : Property) :
    InStep (m.takeProperty parent p) (w.takeProperty parent p) := by
  unfold MapWalk.takeProperty Walk.takeProperty
  cases p.value with
  | data value => exact h.reachChild parent p.name none value
  | accessor getter setter =>
    refine (h.reachChild parent p.name (some getterTag) getter).bind fun h' => ?_
    exact h'.reachChild parent p.name (some setterTag) setter

theorem Follows.takeScope (h : m.Follows w) (body : String) (scope : ScopeHandle × Nat) :
    InStep (m.takeScope body scope) (w.takeScope body scope) := by
  unfold MapWalk.takeScope Walk.takeScope
  rw [h.contains_scope scope.1]
  by_cases hn : w.isNamed (.scope scope.1) = true
  · rw [if_pos hn, if_pos hn]
    exact .ok h
  · rw [if_neg hn, if_neg hn]
    rcases h.claim_cases (scopePath body scope.2) (.scope scope.1) with ⟨e, hm, hw⟩ | ⟨hfree, hm, hw⟩
    · rw [hm, hw]
      exact .error e
    · rw [hm, hw]
      exact .ok (h.named (pathIn_eq_none hn) hfree)

/-! ## When the path of a body is noted -/

/-- Naming a scope does not look at the bodies, so that it does not matter whether a body has been
noted before. -/
theorem takeScope_noteBody (body : BodyHandle) (path parent : String) (m : MapWalk)
    (scope : ScopeHandle × Nat) : (m.noteBody body path).takeScope parent scope =
      (m.takeScope parent scope).map (noteBody body path) := by
  unfold takeScope claim
  by_cases hc : m.scopePaths.contains scope.1 = true
  · simp [noteBody, hc, Except.map]
  · cases hp : m.pathTargets[scopePath parent scope.2]? <;>
      simp [noteBody, hc, hp, Except.map]

theorem foldlM_takeScope_noteBody (body : BodyHandle) (path parent : String) (m : MapWalk)
    (scopes : List (ScopeHandle × Nat)) : scopes.foldlM (takeScope parent) (m.noteBody body path) =
      (scopes.foldlM (takeScope parent) m).map (noteBody body path) := by
  induction scopes generalizing m with
  | nil => rfl
  | cons scope scopes ih =>
    rw [List.foldlM_cons, List.foldlM_cons, takeScope_noteBody]
    cases m.takeScope parent scope with
    | error e => rfl
    | ok v => exact ih v

/-- **The path of a body might as well be noted before its scopes are named.** -/
theorem takeBody_eq {image : CoreImage} {owner : String} {body : BodyHandle}
    (hc : ¬m.bodyPaths.contains body = true) : m.takeBody image owner body =
      m.claim (bodyPath owner) (.body body) >>= fun m =>
        (image.debuggerScopes body).zipIdx.foldlM (takeScope (bodyPath owner))
          (m.noteBody body (bodyPath owner)) := by
  unfold takeBody
  rw [if_neg hc]
  cases m.claim (bodyPath owner) (.body body) with
  | error e => rfl
  | ok v =>
    rw [ok_bind, ok_bind, foldlM_takeScope_noteBody]
    cases (image.debuggerScopes body).zipIdx.foldlM (takeScope (bodyPath owner)) v <;> rfl

theorem Follows.takeBody (h : m.Follows w) (image : CoreImage) (owner : String) (body : BodyHandle) :
    InStep (m.takeBody image owner body) (w.takeBody image owner body) := by
  by_cases hn : w.isNamed (.body body) = true
  · rw [MapWalk.takeBody, Walk.takeBody, h.contains_body, if_pos hn, if_pos hn]
    exact .ok h
  · rw [takeBody_eq (by rwa [h.contains_body]), Walk.takeBody, if_neg hn]
    rcases h.claim_cases (bodyPath owner) (.body body) with ⟨e, hm, hw⟩ | ⟨hfree, hm, hw⟩
    · rw [hm, hw]
      exact .error e
    · rw [hm, hw, ok_bind, ok_bind]
      have hnamed := h.named (pathIn_eq_none hn) hfree
      exact InStep.foldlM (fun _ _ scope h' => h'.takeScope (bodyPath owner) scope) hnamed

/-! ## Whole walks -/

/-- **An object is visited in step**, if its path is the one that is looked up. -/
theorem Follows.visit (h : m.Follows w) (image : CoreImage) {path : String} {obj : ObjectHandle}
    (hp : pathIn w.named (.object obj) = some path) :
    InStep (m.visit image obj) (w.visit image path obj) := by
  have hpath : m.objectPaths[obj]! = path := by
    rw [HashMap.getElem!_eq_get!_getElem?, h.holds.objects, hp]
    rfl
  unfold MapWalk.visit Walk.visit
  rw [hpath]
  dsimp only
  refine (InStep.foldlM (fun _ _ p h' => h'.takeProperty path p) h).bind fun h' => ?_
  cases image.functionBody obj with
  | none => exact .ok h'
  | some body => exact h'.takeBody image path body

theorem run_nil (image : CoreImage) (maps : PathMaps) :
    run image ⟨maps, []⟩ = .ok ⟨maps, []⟩ := by
  rw [run.eq_def]

theorem run_cons (image : CoreImage) (maps : PathMaps) (obj : ObjectHandle)
    (rest : List ObjectHandle) :
    run image ⟨maps, obj :: rest⟩ = visit image obj ⟨maps, rest⟩ >>= run image := by
  rw [run.eq_def]
  dsimp only
  cases visit image obj ⟨maps, rest⟩ with
  | error e => rw [error_bind]
  | ok m => rw [ok_bind]

/-- The next object that waits is visited in step. -/
theorem Follows.visit_next {maps : PathMaps} {named : List CorePath} {path : String}
    {obj : ObjectHandle} {rest : List (String × ObjectHandle)}
    (h : Follows ⟨maps, obj :: rest.map (·.2)⟩ ⟨named, (path, obj) :: rest⟩) (image : CoreImage) :
    (∃ e, MapWalk.visit image obj ⟨maps, rest.map (·.2)⟩ = .error e ∧
        Walk.visit image path obj ⟨named, rest⟩ = .error e) ∨
      ∃ m w, MapWalk.visit image obj ⟨maps, rest.map (·.2)⟩ = .ok m ∧
        Walk.visit image path obj ⟨named, rest⟩ = .ok w ∧ m.Follows w := by
  have hrest : Follows ⟨maps, rest.map (·.2)⟩ ⟨named, rest⟩ :=
    ⟨h.holds, rfl, fun q hq => h.queued q (List.mem_cons_of_mem _ hq)⟩
  exact (hrest.visit image (h.queued (path, obj) List.mem_cons_self)).cases

/-- **Runs are in step**, by induction on what the walk has to do, which both take up in the same
order. -/
theorem Follows.run (h : m.Follows w) (image : CoreImage) :
    InStep (m.run image) (w.run image) := by
  induction w using Walk.run.induct image generalizing m with
  | case1 named =>
    obtain ⟨maps, queue⟩ := m
    obtain rfl : queue = [] := h.queue
    rw [run_nil, Walk.run_nil]
    exact .ok h
  | case2 named path obj rest v hv ih =>
    obtain ⟨maps, queue⟩ := m
    obtain rfl : queue = obj :: rest.map (·.2) := h.queue
    rw [run_cons, Walk.run_cons, hv, ok_bind]
    rcases h.visit_next image with ⟨e, _, hw⟩ | ⟨u, v', hm, hw, hnext⟩
    · rw [hv] at hw
      cases hw
    · obtain rfl : v = v' := Except.ok.inj (hv.symm.trans hw)
      rw [hm, ok_bind]
      exact ih hnext
  | case3 named path obj rest err hv =>
    obtain ⟨maps, queue⟩ := m
    obtain rfl : queue = obj :: rest.map (·.2) := h.queue
    rw [run_cons, Walk.run_cons, hv, error_bind]
    rcases h.visit_next image with ⟨e, hm, hw⟩ | ⟨u, v', _, hw, _⟩
    · obtain rfl : err = e := Except.error.inj (hv.symm.trans hw)
      rw [hm, error_bind]
      exact .error err
    · rw [hv] at hw
      cases hw

end MapWalk

/-! ## The same answers -/

namespace PathMaps

/-- **A map lists the entries of its kind**, each once, in whatever order. -/
theorem perm_entries {κ : Type} [BEq κ] [Hashable κ] [LawfulBEq κ] {make : κ → CoreTarget}
    (hinj : Function.Injective make) (kind : CoreTarget → Bool)
    (hkind : ∀ t, kind t = true ↔ ∃ k, make k = t) {paths : HashMap κ String}
    {named : List CorePath} (hpaths : ∀ k, paths[k]? = pathIn named (make k))
    (hnodup : (named.map (·.target)).Nodup) :
    (entries make paths).Perm (named.filter fun e => kind e.target) := by
  have hpath : ∀ path t, pathIn named t = some path ↔ ⟨path, t⟩ ∈ named := fun path t =>
    ⟨fun h => CorePaths.mem_named_of_pathOf? (p := .ofNamed named) h,
      fun h => CorePaths.pathOf?_of_mem (p := .ofNamed named) hnodup h⟩
  have hentries : (entries make paths).Nodup := by
    refine List.pairwise_map.2 (HashMap.distinct_keys_toList.imp fun {a b} hne heq => ?_)
    have hkey : a.1 = b.1 := hinj (congrArg CorePath.target heq)
    rw [hkey, BEq.rfl] at hne
    cases hne
  have hfilter : (named.filter fun e => kind e.target).Nodup :=
    ((List.pairwise_map.1 hnodup).imp fun hne he => hne (congrArg _ he)).sublist
      List.filter_sublist
  refine (List.perm_ext_iff_of_nodup hentries hfilter).2 fun e => ?_
  obtain ⟨path, t⟩ := e
  rw [List.mem_filter, ← hpath, hkind, entries, List.mem_map]
  constructor
  · rintro ⟨⟨k, q⟩, hm, he⟩
    cases he
    rw [HashMap.mem_toList_iff_getElem?_eq_some, hpaths] at hm
    exact ⟨hm, k, rfl⟩
  · rintro ⟨hm, k, rfl⟩
    refine ⟨(k, path), ?_, rfl⟩
    rw [HashMap.mem_toList_iff_getElem?_eq_some, hpaths]
    exact hm

/-- What the maps and one list answer alike: every question that can be asked of the paths of an
image once they are worked out. -/
structure Answers (m : PathMaps) (p : CorePaths) : Prop where
  /-- The path of an object. -/
  objectPath : ∀ obj, m.objectPaths[obj]? = p.pathOf? (.object obj)
  /-- The path of a body. -/
  bodyPath : ∀ body, m.bodyPaths[body]? = p.pathOf? (.body body)
  /-- The path of a scope. -/
  scopePath : ∀ scope, m.scopePaths[scope]? = p.pathOf? (.scope scope)
  /-- What a path names. -/
  target : ∀ path, m.pathTargets[path]? = p.target? path
  /-- The paths in the order of naming. -/
  order : m.traversalOrder = p.traversalOrder
  /-- How many objects have a path. -/
  objectCount : m.objectPaths.size = p.objectCount
  /-- How many bodies have a path. -/
  bodyCount : m.bodyPaths.size = p.bodyCount
  /-- How many scopes have a path. -/
  scopeCount : m.scopePaths.size = p.scopeCount
  /-- The index of objects. -/
  objects : m.objects = p.objects
  /-- The index of bodies. -/
  bodies : m.bodies = p.bodies
  /-- The index of scopes. -/
  scopes : m.scopes = p.scopes

/-- A map of one kind has as many entries as targets of the kind have a path, and the same index. -/
theorem size_and_index_eq {κ : Type} [BEq κ] [Hashable κ] [LawfulBEq κ] {make : κ → CoreTarget}
    {kind : CoreTarget → Bool} {paths : HashMap κ String} {named : List CorePath}
    (h : (entries make paths).Perm (named.filter fun e => kind e.target))
    (hnodup : (named.map (·.path)).Nodup) :
    paths.size = named.countP (kind ·.target) ∧
      NameIndex.build CorePath.path (entries make paths) =
        .build _ (named.filter fun e => kind e.target) := by
  constructor
  · have hlength := h.length_eq
    rwa [entries, List.length_map, HashMap.length_toList, ← List.countP_eq_length_filter] at hlength
  · refine NameIndex.build_eq_of_perm h ((h.map _).nodup_iff.2 ?_)
    exact hnodup.sublist (List.filter_sublist.map _)

/-- Maps that hold what a walk has named answer as the walk's paths do. -/
theorem Holds.answers {m : PathMaps} {named : List CorePath} (h : m.Holds named)
    (htargets : (named.map (·.target)).Nodup) (hpaths : (named.map (·.path)).Nodup) :
    m.Answers (.ofNamed named) := by
  have objects := size_and_index_eq (perm_entries (fun _ _ => CoreTarget.object.inj)
    CoreTarget.isObject (fun t => by cases t <;> simp [CoreTarget.isObject]) h.objects htargets) hpaths
  have bodies := size_and_index_eq (perm_entries (fun _ _ => CoreTarget.body.inj)
    CoreTarget.isBody (fun t => by cases t <;> simp [CoreTarget.isBody]) h.bodies htargets) hpaths
  have scopes := size_and_index_eq (perm_entries (fun _ _ => CoreTarget.scope.inj)
    CoreTarget.isScope (fun t => by cases t <;> simp [CoreTarget.isScope]) h.scopes htargets) hpaths
  exact ⟨h.objects, h.bodies, h.scopes, h.targets, h.order, objects.1, bodies.1, scopes.1,
    objects.2, bodies.2, scopes.2⟩

/-- **The maps and one list come to the same**, for every image and all roots: both fail by the same
error, or both succeed and answer alike. -/
theorem build_answers (image : CoreImage) (roots : List NamedRoot) :
    (∃ e, build image roots = .error e ∧ CorePaths.build image roots = .error e) ∨
      ∃ m p, build image roots = .ok m ∧ CorePaths.build image roots = .ok p ∧ m.Answers p := by
  have hempty : MapWalk.Follows {} {} :=
    ⟨⟨fun _ => HashMap.getElem?_empty, fun _ => HashMap.getElem?_empty,
      fun _ => HashMap.getElem?_empty, fun _ => HashMap.getElem?_empty, rfl⟩, rfl, nofun⟩
  have hroots : MapWalk.InStep (roots.foldlM (fun (m : MapWalk) r => m.reach r.name r.object) {})
      (roots.foldlM (fun (w : Walk) r => w.reach r.name r.object) {}) :=
    MapWalk.InStep.foldlM (fun _ _ r h => h.reach r.name r.object) hempty
  have hwalk : MapWalk.InStep (roots.foldlM (fun (m : MapWalk) r => m.reach r.name r.object) {} >>=
      MapWalk.run image) (Walk.ofRoots image roots) := hroots.bind fun h => h.run image
  have hbuild : build image roots = (roots.foldlM (fun (m : MapWalk) r => m.reach r.name r.object)
      {} >>= MapWalk.run image).map (·.toPathMaps) := by
    unfold build
    cases roots.foldlM (fun (m : MapWalk) r => m.reach r.name r.object) {} with
    | error e => rfl
    | ok m =>
      rw [ok_bind, ok_bind]
      cases MapWalk.run image m <;> rfl
  rcases hwalk.cases with ⟨e, hm, hw⟩ | ⟨m, w, hm, hw, hfollows⟩
  · exact .inl ⟨e, by rw [hbuild, hm]; rfl, by rw [CorePaths.build, hw]; rfl⟩
  · have hsound := CorePaths.sound_of_build (CorePaths.build_eq_ok_iff.2 ⟨w, hw, rfl⟩)
    refine .inr ⟨m.toPathMaps, .ofNamed w.named, by rw [hbuild, hm]; rfl,
      CorePaths.build_eq_ok_iff.2 ⟨w, hw, rfl⟩, ?_⟩
    exact hfollows.holds.answers hsound.targets hsound.paths

end PathMaps

end Retrace
