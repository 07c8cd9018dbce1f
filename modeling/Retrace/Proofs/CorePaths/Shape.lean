/-
# Renamed images

Two images have one shape if a renaming of handles carries what can be reached in the one over to the
other.  The order in which properties are enumerated, the handles, properties that hold no object and
whatever cannot be reached may differ.

| of the one image | of the other |
| --- | --- |
| `edges`, `visitOffers` | the same, renamed, since steps have an order of their own |
| `offer`, `offerAll`, `visit`, `run`, `ofRoots` | the same outcome up to the renaming (`Alike`) |
| paths, order of naming, positions | the same |

The renaming has to be injective only where something can be reached; there it is onto as well
(`SameShape.reaches_iff`).

Paths have to be identical across runs of the same build (specification, section 3), in which
nothing but the shape of the image stays.
-/

import Retrace.Proofs.CorePaths.Canonical

namespace Retrace

/-- A renaming of handles, one for each kind.  It need not be injective where nothing can be
reached. -/
structure Renaming where
  /-- The new handle of an object. -/
  object : ObjectHandle → ObjectHandle
  /-- The new handle of a body. -/
  body : BodyHandle → BodyHandle
  /-- The new handle of a scope. -/
  scope : ScopeHandle → ScopeHandle

namespace Renaming

/-- The renamed target. -/
def target (f : Renaming) : CoreTarget → CoreTarget
  | .object obj => .object (f.object obj)
  | .body body => .body (f.body body)
  | .scope scope => .scope (f.scope scope)

/-- The same path for the renamed target. -/
def entry (f : Renaming) (e : CorePath) : CorePath := ⟨e.path, f.target e.target⟩

/-- The walk that has named the renamed targets by the same paths. -/
def walk (f : Renaming) (w : Walk) : Walk :=
  ⟨w.named.map f.entry, w.queue.map fun q => (q.1, f.object q.2)⟩

theorem target_eq_object (f : Renaming) {t : CoreTarget} {obj' : ObjectHandle}
    (h : f.target t = .object obj') : ∃ obj, t = .object obj ∧ f.object obj = obj' := by
  cases t with
  | object obj => exact ⟨obj, rfl, CoreTarget.object.inj h⟩
  | body => cases h
  | scope => cases h

theorem target_eq_body (f : Renaming) {t : CoreTarget} {body' : BodyHandle}
    (h : f.target t = .body body') : ∃ body, t = .body body ∧ f.body body = body' := by
  cases t with
  | object => cases h
  | body body => exact ⟨body, rfl, CoreTarget.body.inj h⟩
  | scope => cases h

theorem waiting_entry (f : Renaming) (e : CorePath) :
    (f.entry e).waiting = e.waiting.map fun q => (q.1, f.object q.2) := by
  obtain ⟨path, t⟩ := e
  cases t <;> rfl

theorem walk_adding (f : Renaming) (w : Walk) (new : List CorePath) :
    f.walk (w.adding new) = (f.walk w).adding (new.map f.entry) := by
  have hwaiting : new.flatMap (fun e => (f.entry e).waiting) =
      (new.flatMap CorePath.waiting).map fun q => (q.1, f.object q.2) := by
    rw [List.map_flatMap]
    exact congrArg (new.flatMap ·) (funext (waiting_entry f))
  simp [walk, Walk.adding, List.flatMap_map, hwaiting]

end Renaming

/-- A renaming carries one image with its roots over to another one. -/
structure SameShape (f : Renaming) (image : CoreImage) (roots : List NamedRoot)
    (image' : CoreImage) (roots' : List NamedRoot) : Prop where
  /-- Different targets that can be reached have different new handles. -/
  injective : ∀ s t, image.Reaches roots s → image.Reaches roots t → f.target s = f.target t → s = t
  /-- The roots have the same names in the same order. -/
  rootList : roots' = roots.map fun r => ⟨r.name, f.object r.object⟩
  /-- The body of an object that can be reached. -/
  functionBody : ∀ obj, image.Reaches roots (.object obj) →
    image'.functionBody (f.object obj) = (image.functionBody obj).map f.body
  /-- The scopes of a body that can be reached, slot by slot. -/
  debuggerScopes : ∀ body, image.Reaches roots (.body body) →
    image'.debuggerScopes (f.body body) = (image.debuggerScopes body).map f.scope
  /-- The steps from an object that can be reached. -/
  leads : ∀ obj, image.Reaches roots (.object obj) → ∀ s target',
    image'.Leads (f.object obj) s target' ↔
      ∃ target, image.Leads obj s target ∧ f.object target = target'

namespace SameShape

variable {f : Renaming} {image image' : CoreImage} {roots roots' : List NamedRoot}

theorem reaches_target (h : SameShape f image roots image' roots') {t : CoreTarget}
    (ht : image.Reaches roots t) : image'.Reaches roots' (f.target t) := by
  induction ht with
  | @root r hr =>
    refine .root (r := ⟨r.name, f.object r.object⟩) ?_
    rw [h.rootList]
    exact List.mem_map.2 ⟨r, hr, rfl⟩
  | step ho hl ih => exact ih.step ((h.leads _ ho _ _).2 ⟨_, hl, rfl⟩)
  | body ho hb ih =>
    refine ih.body ?_
    rw [h.functionBody _ ho, hb]
    rfl
  | scope hb hs ih =>
    refine ih.scope ?_
    rw [h.debuggerScopes _ hb]
    exact List.mem_map.2 ⟨_, hs, rfl⟩

theorem exists_of_reaches (h : SameShape f image roots image' roots') {t' : CoreTarget}
    (ht : image'.Reaches roots' t') : ∃ t, image.Reaches roots t ∧ f.target t = t' := by
  induction ht with
  | root hr' =>
    rw [h.rootList] at hr'
    obtain ⟨r, hr, rfl⟩ := List.mem_map.1 hr'
    exact ⟨_, .root hr, rfl⟩
  | step _ hl' ih =>
    obtain ⟨t, ht, he⟩ := ih
    obtain ⟨obj, rfl, rfl⟩ := f.target_eq_object he
    obtain ⟨target, hl, rfl⟩ := (h.leads obj ht _ _).1 hl'
    exact ⟨_, ht.step hl, rfl⟩
  | body _ hb' ih =>
    obtain ⟨t, ht, he⟩ := ih
    obtain ⟨obj, rfl, rfl⟩ := f.target_eq_object he
    rw [h.functionBody obj ht] at hb'
    obtain ⟨body, hb, rfl⟩ := Option.map_eq_some_iff.1 hb'
    exact ⟨_, ht.body hb, rfl⟩
  | scope _ hs' ih =>
    obtain ⟨t, ht, he⟩ := ih
    obtain ⟨body, rfl, rfl⟩ := f.target_eq_body he
    rw [h.debuggerScopes body ht] at hs'
    obtain ⟨scope, hs, rfl⟩ := List.mem_map.1 hs'
    exact ⟨_, ht.scope hs, rfl⟩

/-- **The renaming is onto what can be reached in the other image.** -/
theorem reaches_iff (h : SameShape f image roots image' roots') (t' : CoreTarget) :
    image'.Reaches roots' t' ↔ ∃ t, image.Reaches roots t ∧ f.target t = t' := by
  refine ⟨h.exists_of_reaches, ?_⟩
  rintro ⟨t, ht, rfl⟩
  exact h.reaches_target ht

end SameShape

/-- The same outcome up to a renaming: failures on both sides, or results of which the second is the
first renamed. -/
inductive Alike (f : Renaming) : Except Error Walk → Except Error Walk → Prop where
  /-- The same walk, renamed. -/
  | ok (w : Walk) : Alike f (.ok w) (.ok (f.walk w))
  /-- Two failures. -/
  | error (err err' : Error) : Alike f (.error err) (.error err')

theorem Alike.bind {f : Renaming} {x x' : Except Error Walk} {g g' : Walk → Except Error Walk}
    (h : Alike f x x') (hg : ∀ w, x = .ok w → Alike f (g w) (g' (f.walk w))) :
    Alike f (x >>= g) (x' >>= g') := by
  cases h with
  | ok w =>
    rw [ok_bind, ok_bind]
    exact hg w rfl
  | error err err' =>
    rw [error_bind, error_bind]
    exact .error err err'

namespace Walk

variable {f : Renaming} {image image' : CoreImage} {roots roots' : List NamedRoot}

/-! ## Offers -/

theorem isNamed_walk {w : Walk} {t : CoreTarget}
    (hf : ∀ e ∈ w.named, f.target e.target = f.target t → e.target = t) :
    (f.walk w).isNamed (f.target t) = w.isNamed t := by
  rw [Bool.eq_iff_iff, isNamed_iff, isNamed_iff]
  constructor
  · rintro ⟨e', he', het⟩
    obtain ⟨e, he, rfl⟩ := List.mem_map.1 he'
    exact ⟨e, he, hf e he het⟩
  · rintro ⟨e, he, rfl⟩
    exact ⟨f.entry e, List.mem_map.2 ⟨e, he, rfl⟩, rfl⟩

theorem offer_walk {w : Walk} {e : CorePath}
    (hf : ∀ o ∈ w.named, f.target o.target = f.target e.target → o.target = e.target) :
    Alike f (w.offer e) ((f.walk w).offer (f.entry e)) := by
  have hnamed : (f.walk w).isNamed (f.entry e).target = w.isNamed e.target := isNamed_walk hf
  have hfree : (∀ o ∈ w.named, o.path ≠ e.path) ↔
      ∀ o ∈ (f.walk w).named, o.path ≠ (f.entry e).path := by
    simp [Renaming.walk, Renaming.entry]
  rcases offer_cases w e with ⟨hn, he⟩ | ⟨hn, ⟨o, ho, hp⟩, err, he⟩ | ⟨hn, hp, he⟩
  · have he' : (f.walk w).offer (f.entry e) = .ok (f.walk w) := if_pos (hnamed.trans hn)
    rw [he, he']
    exact .ok w
  · rcases offer_cases (f.walk w) (f.entry e) with ⟨hn', _⟩ | ⟨_, _, err', he'⟩ | ⟨_, hp', _⟩
    · rw [hnamed, hn] at hn'
      cases hn'
    · rw [he, he']
      exact .error err err'
    · exact absurd hp (hfree.2 hp' o ho)
  · rcases offer_cases (f.walk w) (f.entry e) with ⟨hn', _⟩ | ⟨_, ⟨o, ho, hp'⟩, _⟩ | ⟨_, _, he'⟩
    · rw [hnamed, hn] at hn'
      cases hn'
    · exact absurd hp' (hfree.1 hp o ho)
    · rw [he, he']
      have hw := Renaming.walk_adding f w [e]
      rw [List.map_singleton] at hw
      rw [← hw]
      exact .ok _

/-- **Offers to renamed walks have the same outcome**, as long as no two of the targets get one
handle. -/
theorem offerAll_walk {S : CoreTarget → Prop}
    (hf : ∀ s t, S s → S t → f.target s = f.target t → s = t) {es : List CorePath}
    (hes : ∀ e ∈ es, S e.target) {w : Walk} (hw : ∀ e ∈ w.named, S e.target) :
    Alike f (w.offerAll es) ((f.walk w).offerAll (es.map f.entry)) := by
  induction es generalizing w with
  | nil => exact .ok w
  | cons e es ih =>
    have he := hes e List.mem_cons_self
    rw [List.map_cons, offerAll_cons, offerAll_cons]
    refine (offer_walk fun o ho => hf _ _ (hw o ho) he).bind fun v hv => ?_
    refine ih (fun d hd => hes d (List.mem_cons_of_mem _ hd)) fun o ho => ?_
    rcases offer_cases w e with ⟨_, hv'⟩ | ⟨_, _, err, hv'⟩ | ⟨_, _, hv'⟩
    · rw [hv'] at hv
      cases hv
      exact hw o ho
    · rw [hv'] at hv
      cases hv
    · rw [hv'] at hv
      cases hv
      rcases List.mem_append.1 ho with ho | ho
      · exact hw o ho
      · rw [List.mem_singleton.1 ho]
        exact he

/-! ## Visits -/

theorem mem_map_edges_iff {obj target' : ObjectHandle} {s : Step} :
    (s, target') ∈ (edges image obj).map (fun e => (e.1, f.object e.2)) ↔
      ∃ target, image.Leads obj s target ∧ f.object target = target' := by
  rw [List.mem_map]
  constructor
  · rintro ⟨⟨t, target⟩, hm, he⟩
    cases he
    exact ⟨target, (mem_edges_iff image obj _ target).1 hm, rfl⟩
  · rintro ⟨target, hl, rfl⟩
    exact ⟨(s, target), (mem_edges_iff image obj s target).2 hl, rfl⟩

/-- **The steps from a renamed object are the renamed steps**, whatever order the properties are
enumerated in. -/
theorem edges_renamed (hd : image.DistinctNames) (hd' : image'.DistinctNames)
    (h : SameShape f image roots image' roots') {obj : ObjectHandle}
    (ho : image.Reaches roots (.object obj)) :
    edges image' (f.object obj) = (edges image obj).map fun e => (e.1, f.object e.2) := by
  refine eq_of_pairwise_of_mem_iff (R := fun a b => a.1.Before b.1)
    (fun a => Step.Before.irrefl a.1) (fun hab hbc => Step.Before.trans hab hbc)
    (pairwise_edges hd' _) (List.pairwise_map.2 (pairwise_edges hd obj)) fun a => ?_
  rw [mem_edges_iff, h.leads obj ho, mem_map_edges_iff]

theorem bodyOffers_renamed (h : SameShape f image roots image' roots') {body : BodyHandle}
    (hb : image.Reaches roots (.body body)) (owner : String) :
    bodyOffers image' owner (f.body body) = (bodyOffers image owner body).map f.entry := by
  rw [bodyOffers, h.debuggerScopes body hb, List.zipIdx_map, List.map_map, bodyOffers,
    List.map_cons, List.map_map]
  rfl

theorem visitOffers_renamed (hd : image.DistinctNames) (hd' : image'.DistinctNames)
    (h : SameShape f image roots image' roots') {obj : ObjectHandle}
    (ho : image.Reaches roots (.object obj)) (path : String) :
    visitOffers image' path (f.object obj) = (visitOffers image path obj).map f.entry := by
  rw [visitOffers, edges_renamed hd hd' h ho, h.functionBody obj ho, visitOffers, List.map_append,
    List.map_map, List.map_map]
  congr 1
  cases hb : image.functionBody obj with
  | none => rfl
  | some body =>
    have hoffers := bodyOffers_renamed h (ho.body hb) path
    simpa using hoffers

theorem scopesNamed_walk (h : SameShape f image roots image' roots') {w : Walk}
    (hw : Sound image roots w) : ScopesNamed image' (f.walk w) := by
  intro body' hb' scope' hs'
  obtain ⟨e', he', het'⟩ := (isNamed_iff _ _).1 hb'
  obtain ⟨⟨path, t⟩, he, rfl⟩ := List.mem_map.1 he'
  obtain ⟨body, rfl, rfl⟩ := f.target_eq_body het'
  rw [h.debuggerScopes body (hw.reached _ he)] at hs'
  obtain ⟨scope, hs, rfl⟩ := List.mem_map.1 hs'
  obtain ⟨o, ho, hot⟩ := (isNamed_iff w _).1 (hw.scopes body (isNamed_of_mem he) scope hs)
  refine (isNamed_iff _ _).2 ⟨f.entry o, List.mem_map.2 ⟨o, ho, rfl⟩, ?_⟩
  rw [Renaming.entry, hot]
  rfl

/-- **Visits of an object and of the renamed one have the same outcome.** -/
theorem visit_walk (hd : image.DistinctNames) (hd' : image'.DistinctNames)
    (h : SameShape f image roots image' roots') {named : List CorePath} {path : String}
    {obj : ObjectHandle} {rest : List (String × ObjectHandle)}
    (hw : Sound image roots ⟨named, (path, obj) :: rest⟩) :
    Alike f (visit image path obj ⟨named, rest⟩)
      (visit image' path (f.object obj) (f.walk ⟨named, rest⟩)) := by
  have ho : image.Reaches roots (.object obj) :=
    hw.reached _ (hw.queued (path, obj) List.mem_cons_self)
  rw [visit_eq_offerAll hw.tail.scopes, visit_eq_offerAll (scopesNamed_walk h hw.tail),
    visitOffers_renamed hd hd' h ho]
  exact offerAll_walk h.injective (fun e he => reaches_of_mem_visitOffers ho he) hw.reached

/-! ## Runs -/

/-- **Runs in lockstep.**  From a sound walk and from the renamed one, both fail or both end in walks
of which the second is the first renamed. -/
theorem run_walk (hd : image.DistinctNames) (hd' : image'.DistinctNames)
    (h : SameShape f image roots image' roots') {w : Walk} (hw : Sound image roots w) :
    Alike f (run image w) (run image' (f.walk w)) := by
  have hcons : ∀ named path obj rest,
      f.walk ⟨named, (path, obj) :: rest⟩ =
        ⟨named.map f.entry, (path, f.object obj) :: rest.map fun q => (q.1, f.object q.2)⟩ :=
    fun _ _ _ _ => rfl
  induction w using run.induct image with
  | case1 named =>
    have hnil : f.walk ⟨named, []⟩ = ⟨named.map f.entry, []⟩ := rfl
    rw [hnil, run_nil, run_nil, ← hnil]
    exact .ok _
  | case2 named path obj rest v hv ih =>
    rw [hcons, run_cons, run_cons]
    refine (visit_walk hd hd' h hw).bind fun u hu => ?_
    obtain rfl : v = u := Except.ok.inj (hv.symm.trans hu)
    rw [visit_eq_offerAll hw.tail.scopes] at hv
    obtain ⟨new, ht, rfl⟩ := taken_of_eq_ok hv
    exact ih (hw.visit ht)
  | case3 named path obj rest err hv =>
    rw [hcons, run_cons, run_cons]
    refine (visit_walk hd hd' h hw).bind fun u hu => ?_
    rw [hv] at hu
    cases hu

theorem rootOffers_renamed (f : Renaming) (roots : List NamedRoot) :
    rootOffers (roots.map fun r => ⟨r.name, f.object r.object⟩) =
      (rootOffers roots).map f.entry := by
  rw [rootOffers, rootOffers, List.map_map, List.map_map]
  rfl

/-- **Walks over images of one shape have the same outcome**: both fail, or both name the same by
the same paths. -/
theorem ofRoots_walk (hd : image.DistinctNames) (hd' : image'.DistinctNames)
    (h : SameShape f image roots image' roots') :
    Alike f (ofRoots image roots) (ofRoots image' roots') := by
  have hroots : Alike f (offerAll {} (rootOffers roots)) (offerAll {} (rootOffers roots')) := by
    rw [h.rootList, rootOffers_renamed]
    refine offerAll_walk (w := {}) h.injective (fun e he => ?_) fun e he => absurd he List.not_mem_nil
    obtain ⟨r, hr, rfl⟩ := List.mem_map.1 he
    exact .root hr
  rw [ofRoots_eq, ofRoots_eq]
  refine hroots.bind fun w hw => ?_
  obtain ⟨new, ht, rfl⟩ := taken_of_eq_ok hw
  exact run_walk hd hd' h (sound_roots ht)

end Walk

namespace CorePaths

variable {f : Renaming} {image image' : CoreImage} {roots roots' : List NamedRoot}

/-- Both images fail, or both are named, by the same paths in the same order. -/
theorem build_renamed (hd : image.DistinctNames) (hd' : image'.DistinctNames)
    (h : SameShape f image roots image' roots') :
    (∃ err err', build image roots = .error err ∧ build image' roots' = .error err') ∨
      ∃ named, build image roots = .ok (ofNamed named) ∧
        build image' roots' = .ok (ofNamed (named.map f.entry)) := by
  have hwalk := Walk.ofRoots_walk hd hd' h
  unfold build
  generalize Walk.ofRoots image roots = x at hwalk ⊢
  generalize Walk.ofRoots image' roots' = x' at hwalk ⊢
  cases hwalk with
  | ok w => exact .inr ⟨w.named, rfl, rfl⟩
  | error err err' => exact .inl ⟨err, err', rfl, rfl⟩

/-- **A path has the same position in both indices of one kind of targets**, in whatever order either
is filled. -/
theorem required_renamed {kind : CoreTarget → Bool} (hkind : ∀ t, kind (f.target t) = kind t)
    {named l l' : List CorePath} (hl : l.Perm (named.filter fun e => kind e.target))
    (hl' : l'.Perm ((named.map f.entry).filter fun e => kind e.target)) {e : CorePath}
    (he : e ∈ named) (hk : kind e.target = true) :
    ∃ position, (NameIndex.build CorePath.path l).required e.path = .ok position ∧
      (NameIndex.build CorePath.path l').required e.path = .ok position := by
  have hfilter : (named.map f.entry).filter (fun e => kind e.target) =
      (named.filter fun e => kind e.target).map f.entry := by
    rw [List.filter_map]
    exact congrArg (fun keep => (named.filter keep).map f.entry) (funext fun e => hkind e.target)
  have hpaths : (l.map CorePath.path).Perm (l'.map CorePath.path) := by
    refine (hl.map _).trans ((hl'.map CorePath.path).trans ?_).symm
    rw [hfilter, List.map_map]
    exact .refl _
  have hmem : e.path ∈ l.map CorePath.path :=
    List.mem_map.2 ⟨e, hl.mem_iff.2 (List.mem_filter.2 ⟨he, hk⟩), rfl⟩
  obtain ⟨position, hp⟩ := NameIndex.required_build_of_mem hmem
  exact ⟨position, hp, (NameIndex.required_build_congr hpaths e.path).symm.trans hp⟩

/-- The paths of two images agree up to a renaming of what can be reached: which targets have one,
what it is, when it was given, and where it is in its index. -/
structure SamePaths (f : Renaming) (image : CoreImage) (roots : List NamedRoot)
    (p p' : CorePaths) : Prop where
  /-- The paths are assigned in the same order. -/
  order : p'.traversalOrder = p.traversalOrder
  /-- A target and the renamed one have the same path. -/
  paths : ∀ t, image.Reaches roots t →
    ∃ path, p.pathOf? t = some path ∧ p'.pathOf? (f.target t) = some path
  /-- An object and the renamed one have the same position. -/
  objects : ∀ obj, image.Reaches roots (.object obj) →
    ∃ position, p.objectPosition obj = .ok position ∧
      p'.objectPosition (f.object obj) = .ok position
  /-- A body and the renamed one have the same position. -/
  bodies : ∀ body, image.Reaches roots (.body body) →
    ∃ position, p.bodyPosition body = .ok position ∧ p'.bodyPosition (f.body body) = .ok position

theorem pathOf?_renamed {named : List CorePath} (hb : build image roots = .ok (ofNamed named))
    (hb' : build image' roots' = .ok (ofNamed (named.map f.entry))) {t : CoreTarget}
    (ht : image.Reaches roots t) : ∃ path, ⟨path, t⟩ ∈ named ∧
      (ofNamed named).pathOf? t = some path ∧
      (ofNamed (named.map f.entry)).pathOf? (f.target t) = some path := by
  obtain ⟨path, hsome⟩ := Option.isSome_iff_exists.1 ((pathOf?_isSome_iff hb t).2 ht)
  have hm := mem_named_of_pathOf? hsome
  exact ⟨path, hm, hsome, (pathOf?_eq_some_iff hb').2 (List.mem_map.2 ⟨_, hm, rfl⟩)⟩

theorem samePaths_of_enumerates {named : List CorePath}
    (hb : build image roots = .ok (ofNamed named))
    (hb' : build image' roots' = .ok (ofNamed (named.map f.entry))) {q q' : CorePaths}
    (hq : Enumerates named q) (hq' : Enumerates (named.map f.entry) q') :
    SamePaths f image roots q q' := by
  have hpath : ∀ t, q.pathOf? t = (ofNamed named).pathOf? t := pathOf?_congr hq.order
  have hpath' : ∀ t, q'.pathOf? t = (ofNamed (named.map f.entry)).pathOf? t :=
    pathOf?_congr hq'.order
  refine ⟨?_, fun t ht => ?_, fun obj ho => ?_, fun body hbody => ?_⟩
  · rw [traversalOrder, traversalOrder, hq.order, hq'.order, List.map_map]
    rfl
  · obtain ⟨path, _, hsome, hsome'⟩ := pathOf?_renamed hb hb' ht
    exact ⟨path, (hpath t).trans hsome, (hpath' _).trans hsome'⟩
  · obtain ⟨path, hm, hsome, hsome'⟩ := pathOf?_renamed hb hb' ho
    obtain ⟨l, hl, hobjects⟩ := hq.objects
    obtain ⟨l', hl', hobjects'⟩ := hq'.objects
    rw [objectPosition_eq ((hpath _).trans hsome), hobjects,
      objectPosition_eq ((hpath' _).trans hsome'), hobjects']
    exact required_renamed (fun t => by cases t <;> rfl) hl hl' hm rfl
  · obtain ⟨path, hm, hsome, hsome'⟩ := pathOf?_renamed hb hb' hbody
    obtain ⟨l, hl, hbodies⟩ := hq.bodies
    obtain ⟨l', hl', hbodies'⟩ := hq'.bodies
    rw [bodyPosition_eq ((hpath _).trans hsome), hbodies,
      bodyPosition_eq ((hpath' _).trans hsome'), hbodies']
    exact required_renamed (fun t => by cases t <;> rfl) hl hl' hm rfl

/-- **Paths depend on the shape of an image only.**  Of two images of one shape both have paths or
neither has, and the paths agree, in whatever order the indices are filled. -/
theorem samePaths_of_sameShape (hd : image.DistinctNames) (hd' : image'.DistinctNames)
    (h : SameShape f image roots image' roots') :
    (build image roots).isOk = (build image' roots').isOk ∧
      ∀ p p', build image roots = .ok p → build image' roots' = .ok p' →
        SamePaths f image roots p p' ∧
          ∀ q q', Enumerates p.named q → Enumerates p'.named q' → SamePaths f image roots q q' := by
  rcases build_renamed hd hd' h with ⟨err, err', hb, hb'⟩ | ⟨named, hb, hb'⟩
  · rw [hb, hb']
    refine ⟨rfl, fun p p' hp => ?_⟩
    cases hp
  · refine ⟨by rw [hb, hb']; rfl, fun p p' hp hp' => ?_⟩
    obtain rfl := Except.ok.inj (hb.symm.trans hp)
    obtain rfl := Except.ok.inj (hb'.symm.trans hp')
    exact ⟨samePaths_of_enumerates hb hb' (enumerates_of_build hb) (enumerates_of_build hb'),
      fun q q' hq hq' => samePaths_of_enumerates hb hb' hq hq'⟩

/-- The image `sharedImage` under other handles, with its properties in another order and an object
that cannot be reached. -/
def shuffledImage : CoreImage where
  ownProperties obj :=
    if obj = ⟨40⟩ then [⟨"b", .data (some ⟨10⟩)⟩, ⟨"f", .data (some ⟨20⟩)⟩, ⟨"a", .data none⟩]
    else if obj = ⟨10⟩ then
      [⟨"call", .accessor (some ⟨20⟩) (some ⟨30⟩)⟩, ⟨"self", .data (some ⟨40⟩)⟩]
    else if obj = ⟨1⟩ then [⟨"b", .data (some ⟨40⟩)⟩]
    else []
  functionBody obj := if obj = ⟨20⟩ ∨ obj = ⟨30⟩ then some ⟨2⟩ else none
  debuggerScopes body := if body = ⟨2⟩ then [⟨6⟩, ⟨6⟩, ⟨5⟩] else []

/-- The root of the image. -/
def shuffledRoots : List NamedRoot := [⟨"g", ⟨40⟩⟩]

/-- What becomes of the handles. -/
def shuffle : Renaming where
  object obj :=
    if obj = ⟨1⟩ then ⟨40⟩ else if obj = ⟨2⟩ then ⟨10⟩ else if obj = ⟨3⟩ then ⟨20⟩ else ⟨30⟩
  body _ := ⟨2⟩
  scope scope := if scope = ⟨5⟩ then ⟨6⟩ else ⟨5⟩

theorem distinctNames_shuffledImage : shuffledImage.DistinctNames := by
  intro obj
  unfold shuffledImage
  dsimp only
  split
  · decide
  · split
    · decide
    · split <;> decide

theorem mem_of_reaches_sharedImage {t : CoreTarget} (h : sharedImage.Reaches sharedRoots t) :
    t ∈ sharedNames.map (·.target) := by
  obtain ⟨path, hp⟩ :=
    Option.isSome_iff_exists.1 ((pathOf?_isSome_iff build_sharedImage t).2 h)
  exact List.mem_map.2 ⟨_, mem_named_of_pathOf? hp, rfl⟩

theorem object_of_reaches_sharedImage {obj : ObjectHandle}
    (h : sharedImage.Reaches sharedRoots (.object obj)) :
    obj = ⟨1⟩ ∨ obj = ⟨2⟩ ∨ obj = ⟨3⟩ ∨ obj = ⟨4⟩ := by
  simpa [sharedNames] using mem_of_reaches_sharedImage h

theorem body_of_reaches_sharedImage {body : BodyHandle}
    (h : sharedImage.Reaches sharedRoots (.body body)) : body = ⟨7⟩ := by
  simpa [sharedNames] using mem_of_reaches_sharedImage h

theorem sameShape_shuffledImage :
    SameShape shuffle sharedImage sharedRoots shuffledImage shuffledRoots where
  injective s t hs ht := by
    have hinj : ∀ s ∈ sharedNames.map (·.target), ∀ t ∈ sharedNames.map (·.target),
        shuffle.target s = shuffle.target t → s = t := by decide
    exact hinj s (mem_of_reaches_sharedImage hs) t (mem_of_reaches_sharedImage ht)
  rootList := rfl
  functionBody obj ho := by
    rcases object_of_reaches_sharedImage ho with rfl | rfl | rfl | rfl <;> rfl
  debuggerScopes body hb := by
    obtain rfl := body_of_reaches_sharedImage hb
    rfl
  leads obj ho s target' := by
    have hedges : Walk.edges shuffledImage (shuffle.object obj) =
        (Walk.edges sharedImage obj).map fun e => (e.1, shuffle.object e.2) := by
      rcases object_of_reaches_sharedImage ho with rfl | rfl | rfl | rfl <;> decide +kernel
    rw [← Walk.mem_edges_iff, hedges, Walk.mem_map_edges_iff]

/-- The paths whose indices are filled from the target named last to the one named first, which is
one of the orders in which a table may list them. -/
def fromLast (named : List CorePath) : CorePaths where
  named := named
  objects := .build _ (named.filter (·.target.isObject)).reverse
  bodies := .build _ (named.filter (·.target.isBody)).reverse
  scopes := .build _ (named.filter (·.target.isScope)).reverse

theorem enumerates_fromLast (named : List CorePath) : Enumerates named (fromLast named) :=
  ⟨rfl, ⟨_, List.reverse_perm _, rfl⟩, ⟨_, List.reverse_perm _, rfl⟩, ⟨_, List.reverse_perm _, rfl⟩⟩

theorem samePaths_shuffledImage : sharedImage.DistinctNames ∧ shuffledImage.DistinctNames ∧
    SameShape shuffle sharedImage sharedRoots shuffledImage shuffledRoots ∧
    ∃ p p', build sharedImage sharedRoots = .ok p ∧ build shuffledImage shuffledRoots = .ok p' ∧
      SamePaths shuffle sharedImage sharedRoots p p' ∧
      SamePaths shuffle sharedImage sharedRoots (fromLast p.named) p' := by
  obtain ⟨hok, hsame⟩ := samePaths_of_sameShape distinctNames_sharedImage
    distinctNames_shuffledImage sameShape_shuffledImage
  refine ⟨distinctNames_sharedImage, distinctNames_shuffledImage, sameShape_shuffledImage, ?_⟩
  rw [build_sharedImage] at hok
  cases hp' : build shuffledImage shuffledRoots with
  | error err =>
    rw [hp'] at hok
    cases hok
  | ok p' =>
    obtain ⟨hpp', hqq'⟩ := hsame _ p' build_sharedImage hp'
    refine ⟨_, p', build_sharedImage, rfl, hpp', ?_⟩
    exact hqq' _ p' (enumerates_fromLast _) (enumerates_of_build hp')

end CorePaths

end Retrace
