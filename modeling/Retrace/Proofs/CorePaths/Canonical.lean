/-
# Canonical paths

Objects get their paths by the least routes to them.  The walk does not know of routes: `Ranked` gives
each object that it has named, and each that waits, the route by which it was named, and says that
these routes ascend.

| part | says |
| --- | --- |
| `queue`, `named` | the objects that wait and those that are named are the listed ones, by these routes |
| `ascending` | the routes are listed in their order, what has been visited before what waits |
| `front` | no listed route comes after one that goes on from what waits |

`Covered` says that whatever a route of a visited object leads to is listed by a route that is not
later.  At the end everything has been visited, so every route is covered (`covers_of_leadsTo`), and
`Spelled` says what the paths are without a walk.

The specification gives the algorithm (section 4.3); this is the outcome without it.
-/

import Retrace.Proofs.CorePaths.Resolution

namespace Retrace

namespace Walk

variable {image : CoreImage} {roots : List NamedRoot}

/-- The offer of an object by the path that a route to it spells. -/
def routeOffer (roots : List NamedRoot) (x : Route × ObjectHandle) : CorePath :=
  ⟨x.1.path roots, .object x.2⟩

/-- An object is listed by a route or by one before it, so that the route is not needed for it. -/
def Covers (l : List (Route × ObjectHandle)) (r : Route) (obj : ObjectHandle) : Prop :=
  ∃ q, (q, obj) ∈ l ∧ (q = r ∨ q.Before r)

theorem Covers.mono {l m : List (Route × ObjectHandle)} (hs : l ⊆ m) {r : Route}
    {obj : ObjectHandle} (h : Covers l r obj) : Covers m r obj := by
  obtain ⟨q, hq, hle⟩ := h
  exact ⟨q, hs hq, hle⟩

/-- The routes by which a walk has named its objects: those visited, then those that wait. -/
structure Ranked (image : CoreImage) (roots : List NamedRoot) (w : Walk)
    (done todo : List (Route × ObjectHandle)) : Prop where
  /-- What waits, in that order. -/
  queue : w.queue = todo.map fun x => (x.1.path roots, x.2)
  /-- An object is named by the path that its route spells. -/
  named : ∀ path obj, ⟨path, .object obj⟩ ∈ w.named ↔
    ∃ r, (r, obj) ∈ done ++ todo ∧ r.path roots = path
  /-- No object is listed twice. -/
  objects : ((done ++ todo).map (·.2)).Nodup
  /-- A route leads to its object. -/
  leads : ∀ x ∈ done ++ todo, x.1.LeadsTo image roots x.2
  /-- The routes are in order. -/
  ascending : (done ++ todo).Pairwise fun x y => x.1.Before y.1
  /-- What goes on from an object that waits comes after every listed route. -/
  front : ∀ x ∈ done ++ todo, ∀ y ∈ todo, ∀ s, x.1.Before (y.1.extend s)

theorem Ranked.isNamed_iff {w : Walk} {done todo : List (Route × ObjectHandle)}
    (h : Ranked image roots w done todo) (obj : ObjectHandle) :
    w.isNamed (.object obj) = true ↔ ∃ r, (r, obj) ∈ done ++ todo := by
  rw [Walk.isNamed_iff]
  constructor
  · rintro ⟨⟨path, t⟩, he, rfl⟩
    obtain ⟨r, hr, _⟩ := (h.named path obj).1 he
    exact ⟨r, hr⟩
  · rintro ⟨r, hr⟩
    exact ⟨_, (h.named _ obj).2 ⟨r, hr, rfl⟩, rfl⟩

/-- Taking the first object that waits for its visit leaves the routes ranked: its route is then the
last of those visited. -/
theorem Ranked.pop {named : List CorePath} {queue : List (String × ObjectHandle)}
    {done todo : List (Route × ObjectHandle)} {x : Route × ObjectHandle}
    (h : Ranked image roots ⟨named, queue⟩ done (x :: todo)) :
    Ranked image roots ⟨named, todo.map fun x => (x.1.path roots, x.2)⟩ (done ++ [x]) todo := by
  have happ : done ++ [x] ++ todo = done ++ x :: todo := by simp
  refine ⟨rfl, ?_, ?_, ?_, ?_, ?_⟩
  · rw [happ]
    exact h.named
  · rw [happ]
    exact h.objects
  · rw [happ]
    exact h.leads
  · rw [happ]
    exact h.ascending
  · rw [happ]
    exact fun y hy z hz s => h.front y hy z (List.mem_cons_of_mem _ hz) s

/-- Bodies and scopes have no routes. -/
theorem Ranked.addingOthers {w : Walk} {done todo : List (Route × ObjectHandle)}
    (h : Ranked image roots w done todo) {new : List CorePath}
    (hn : ∀ e ∈ new, ∀ obj, e.target ≠ .object obj) :
    Ranked image roots (w.adding new) done todo := by
  refine ⟨?_, fun path obj => ?_, h.objects, h.leads, h.ascending, h.front⟩
  · have hw : new.flatMap CorePath.waiting = [] := by
      refine List.flatMap_eq_nil_iff.2 fun e he => List.eq_nil_iff_forall_not_mem.2 ?_
      rintro ⟨path, obj⟩ hq
      rw [mem_waiting_iff] at hq
      exact hn e he obj (by rw [hq])
    show w.queue ++ new.flatMap CorePath.waiting = _
    rw [hw, List.append_nil, h.queue]
  · rw [← h.named]
    refine ⟨fun hm => (List.mem_append.1 hm).resolve_right fun hm => hn _ hm obj rfl, fun hm => ?_⟩
    exact List.mem_append.2 (.inl hm)

/-- **Offers in the order of their routes**, all of which come after those listed, keep the routes in
order, and what is offered is then listed by the route of the offer or by one before it. -/
theorem Ranked.take {w v : Walk} {done todo ks : List (Route × ObjectHandle)}
    (h : Ranked image roots w done todo) (hleads : ∀ k ∈ ks, k.1.LeadsTo image roots k.2)
    (hasc : ks.Pairwise fun x y => x.1.Before y.1)
    (hafter : ∀ x ∈ done ++ todo, ∀ k ∈ ks, x.1.Before k.1)
    (hfront : ∀ x ∈ done ++ todo ++ ks, ∀ y ∈ todo ++ ks, ∀ s, x.1.Before (y.1.extend s))
    (ho : w.offerAll (ks.map (routeOffer roots)) = .ok v) :
    ∃ new : List (Route × ObjectHandle), Ranked image roots v done (todo ++ new) ∧
      ∀ k ∈ ks, Covers (done ++ (todo ++ new)) k.1 k.2 := by
  obtain ⟨new, ht, rfl⟩ := taken_of_offerAll hasc ho
  have hsub := ht.sublist.subset
  have happ : done ++ (todo ++ new) = done ++ todo ++ new := (List.append_assoc _ _ _).symm
  refine ⟨new, ⟨?_, fun path obj => ?_, ?_, ?_, ?_, ?_⟩, fun k hk => ?_⟩
  · show w.queue ++ (new.map (routeOffer roots)).flatMap CorePath.waiting = _
    rw [h.queue, List.map_append, List.flatMap_map]
    exact congrArg _ List.map_eq_flatMap.symm
  · show ⟨path, .object obj⟩ ∈ w.named ++ new.map (routeOffer roots) ↔ _
    rw [happ, List.mem_append, h.named, List.mem_map]
    constructor
    · rintro (⟨r, hr, he⟩ | ⟨⟨r, o⟩, hr, he⟩)
      · exact ⟨r, List.mem_append.2 (.inl hr), he⟩
      · cases he
        exact ⟨r, List.mem_append.2 (.inr hr), rfl⟩
    · rintro ⟨r, hr, rfl⟩
      rcases List.mem_append.1 hr with hr | hr
      · exact .inl ⟨r, hr, rfl⟩
      · exact .inr ⟨(r, obj), hr, rfl⟩
  · rw [happ, List.map_append, List.nodup_append]
    refine ⟨h.objects, ?_, fun a ha b hb hab => ?_⟩
    · have hnd := ht.targets
      rw [List.Nodup, List.pairwise_map] at hnd ⊢
      exact hnd.imp fun hne he => hne (congrArg CoreTarget.object he)
    · obtain ⟨⟨r, o⟩, hr, rfl⟩ := List.mem_map.1 ha
      obtain ⟨k, hk, rfl⟩ := List.mem_map.1 hb
      have hf := ht.fresh k hk
      rw [routeOffer, ← hab, (h.isNamed_iff o).2 ⟨r, hr⟩] at hf
      cases hf
  · rw [happ]
    intro x hx
    rcases List.mem_append.1 hx with hx | hx
    · exact h.leads x hx
    · exact hleads x (hsub hx)
  · rw [happ, List.pairwise_append]
    exact ⟨h.ascending, hasc.sublist ht.sublist, fun x hx y hy => hafter x hx y (hsub hy)⟩
  · rw [happ]
    intro x hx y hy s
    refine hfront x ?_ y ?_ s
    · exact (List.mem_append.1 hx).elim (fun hx => List.mem_append.2 (.inl hx))
        fun hx => List.mem_append.2 (.inr (hsub hx))
    · exact (List.mem_append.1 hy).elim (fun hy => List.mem_append.2 (.inl hy))
        fun hy => List.mem_append.2 (.inr (hsub hy))
  · rw [happ]
    rcases ht.covered k hk with hn | ⟨e, he, het, hle⟩
    · obtain ⟨r, hr⟩ := (h.isNamed_iff k.2).1 hn
      exact ⟨r, List.mem_append.2 (.inl hr), .inr (hafter _ hr k hk)⟩
    · obtain ⟨r, o⟩ := e
      obtain rfl := CoreTarget.object.inj het
      refine ⟨r, List.mem_append.2 (.inr he), hle.imp (fun h => ?_) id⟩
      exact congrArg Prod.fst h

/-- Wherever a route leads from the roots or from a visited object, a listed route arrives that is
not later. -/
structure Covered (image : CoreImage) (roots : List NamedRoot)
    (done l : List (Route × ObjectHandle)) : Prop where
  /-- The roots are listed. -/
  roots : ∀ i r, roots[i]? = some r → Covers l ⟨i, []⟩ r.object
  /-- What a visited object leads to is listed. -/
  steps : ∀ x ∈ done, ∀ s target, image.Leads x.2 s target → Covers l (x.1.extend s) target

/-- If every listed object has been visited, every route is covered: by induction on the steps of
the route. -/
theorem covers_of_leadsTo {done : List (Route × ObjectHandle)} (h : Covered image roots done done)
    {r : Route} {obj : ObjectHandle} (hr : r.LeadsTo image roots obj) : Covers done r obj := by
  induction hr with
  | root hi => exact h.roots _ _ hi
  | @step r obj target s _ hl ih =>
    obtain ⟨q, hq, hle⟩ := ih
    obtain ⟨p, hp, hpq⟩ := h.steps _ hq s target hl
    refine ⟨p, hp, ?_⟩
    rcases hle with rfl | hlt
    · exact hpq
    · have hlt' := hlt.extend s s
      rcases hpq with rfl | hpq
      · exact .inr hlt'
      · exact .inr (hpq.trans hlt')

/-- The routes of a walk, ranked and covering, which is what every visit keeps. -/
def Canonical (image : CoreImage) (roots : List NamedRoot) (w : Walk) : Prop :=
  ∃ done todo, Ranked image roots w done todo ∧ Covered image roots done (done ++ todo)

/-! ## Roots and visits -/

/-- The roots with the routes that have no steps; an object that is a root twice has two of them. -/
def rootRoutes (roots : List NamedRoot) : List (Route × ObjectHandle) :=
  roots.zipIdx.map fun r => (⟨r.2, []⟩, r.1.object)

theorem mem_rootRoutes_iff {r : Route} {obj : ObjectHandle} : (r, obj) ∈ rootRoutes roots ↔
    ∃ i n, roots[i]? = some n ∧ r = ⟨i, []⟩ ∧ obj = n.object := by
  unfold rootRoutes
  rw [List.mem_map]
  constructor
  · rintro ⟨⟨n, i⟩, hm, he⟩
    cases he
    exact ⟨i, n, List.mem_zipIdx_iff_getElem?.1 hm, rfl, rfl⟩
  · rintro ⟨i, n, hm, rfl, rfl⟩
    exact ⟨(n, i), List.mem_zipIdx_iff_getElem?.2 hm, rfl⟩

theorem map_rootRoutes (roots : List NamedRoot) :
    (rootRoutes roots).map (routeOffer roots) = rootOffers roots := by
  have hroots : rootOffers roots =
      roots.zipIdx.map fun r => ⟨r.1.name, .object r.1.object⟩ := by
    have hfst := congrArg rootOffers (List.zipIdx_map_fst 0 roots)
    rw [← hfst, rootOffers, List.map_map]
    rfl
  rw [hroots, rootRoutes, List.map_map]
  refine List.map_congr_left fun r hr => ?_
  have hi := List.mem_zipIdx_iff_getElem?.1 hr
  simp [routeOffer, Route.path, hi]

theorem pairwise_rootRoutes (roots : List NamedRoot) :
    (rootRoutes roots).Pairwise fun x y => x.1.Before y.1 := by
  have hlt : (roots.zipIdx.map (·.2)).Pairwise (· < ·) := by
    rw [List.zipIdx_map_snd]
    exact List.pairwise_lt_range'
  rw [List.pairwise_map] at hlt
  rw [rootRoutes, List.pairwise_map]
  exact hlt.imp fun h => .inr ⟨rfl, .inl h⟩

theorem canonical_roots {v : Walk} (ho : offerAll {} (rootOffers roots) = .ok v) :
    Canonical image roots v := by
  have hempty : Ranked image roots {} [] [] :=
    ⟨rfl, by simp, List.nodup_nil, by simp, .nil, by simp⟩
  have hleads : ∀ x ∈ rootRoutes roots, x.1.LeadsTo image roots x.2 := by
    rintro ⟨r, obj⟩ hx
    obtain ⟨i, n, hi, rfl, rfl⟩ := mem_rootRoutes_iff.1 hx
    exact .root hi
  have hfront : ∀ x ∈ rootRoutes roots, ∀ y ∈ rootRoutes roots, ∀ s,
      x.1.Before (y.1.extend s) := by
    rintro ⟨r, obj⟩ hx y _ s
    obtain ⟨i, n, _, rfl, _⟩ := mem_rootRoutes_iff.1 hx
    refine .inl ?_
    rw [Route.length_extend]
    exact Nat.succ_pos _
  rw [← map_rootRoutes] at ho
  obtain ⟨new, hr, hc⟩ := hempty.take hleads (pairwise_rootRoutes roots)
    (fun x hx => absurd hx List.not_mem_nil) hfront ho
  refine ⟨[], [] ++ new, hr, fun i r hi => ?_, fun x hx => absurd hx List.not_mem_nil⟩
  exact hc (⟨i, []⟩, r.object) (mem_rootRoutes_iff.2 ⟨i, r, hi, rfl, rfl⟩)

/-- What an object leads to, with the routes that go on from the route to it, in the order of the
steps. -/
def stepRoutes (image : CoreImage) (x : Route × ObjectHandle) : List (Route × ObjectHandle) :=
  (edges image x.2).map fun e => (x.1.extend e.1, e.2)

theorem mem_stepRoutes_iff {x : Route × ObjectHandle} {r : Route} {target : ObjectHandle} :
    (r, target) ∈ stepRoutes image x ↔ ∃ s, image.Leads x.2 s target ∧ r = x.1.extend s := by
  unfold stepRoutes
  rw [List.mem_map]
  constructor
  · rintro ⟨⟨s, t⟩, hm, he⟩
    cases he
    exact ⟨s, (mem_edges_iff image _ s _).1 hm, rfl⟩
  · rintro ⟨s, hl, rfl⟩
    exact ⟨(s, target), (mem_edges_iff image _ s _).2 hl, rfl⟩

theorem map_stepRoutes (image : CoreImage) (roots : List NamedRoot) (x : Route × ObjectHandle) :
    (stepRoutes image x).map (routeOffer roots) =
      (edges image x.2).map (edgeOffer (x.1.path roots)) := by
  rw [stepRoutes, List.map_map]
  refine List.map_congr_left fun e _ => ?_
  show CorePath.mk ((x.1.extend e.1).path roots) _ = _
  rw [Route.path_extend]
  rfl

/-- The offers of what the first object that waits leads to keep the routes ranked. -/
theorem Ranked.takeSteps (hd : image.DistinctNames) {named : List CorePath}
    {queue : List (String × ObjectHandle)} {done todo : List (Route × ObjectHandle)}
    {x : Route × ObjectHandle} {v : Walk}
    (h : Ranked image roots ⟨named, queue⟩ done (x :: todo))
    (ho : Walk.offerAll ⟨named, todo.map fun x => (x.1.path roots, x.2)⟩
      ((edges image x.2).map (edgeOffer (x.1.path roots))) = .ok v) :
    ∃ new : List (Route × ObjectHandle), Ranked image roots v (done ++ [x]) (todo ++ new) ∧
      ∀ k ∈ stepRoutes image x, Covers (done ++ [x] ++ (todo ++ new)) k.1 k.2 := by
  have happ : done ++ [x] ++ todo = done ++ x :: todo := by simp
  have hstep : ∀ k ∈ stepRoutes image x, ∃ s, image.Leads x.2 s k.2 ∧ k.1 = x.1.extend s :=
    fun _ hk => mem_stepRoutes_iff.1 hk
  have hx : x ∈ done ++ x :: todo := by simp
  rw [← map_stepRoutes] at ho
  refine h.pop.take (fun k hk => ?_) ?_ (fun y hy k hk => ?_) (fun y hy z hz s => ?_) ho
  · obtain ⟨s, hl, he⟩ := hstep k hk
    rw [he]
    exact (h.leads x hx).step hl
  · rw [stepRoutes, List.pairwise_map]
    exact (pairwise_edges hd x.2).imp fun hlt => Route.extend_before_extend _ hlt
  · obtain ⟨s, _, he⟩ := hstep k hk
    rw [he]
    rw [happ] at hy
    exact h.front y hy x List.mem_cons_self s
  · rw [happ] at hy
    have hxz : ∀ z ∈ todo, x.1.Before z.1 := by
      have hasc := h.ascending
      rw [List.pairwise_append, List.pairwise_cons] at hasc
      exact hasc.2.1.1
    rcases List.mem_append.1 hy with hy | hy <;> rcases List.mem_append.1 hz with hz | hz
    · exact h.front y hy z (List.mem_cons_of_mem _ hz) s
    · obtain ⟨t, _, he⟩ := hstep z hz
      rw [he]
      exact (h.front y hy x List.mem_cons_self t).trans (Route.before_extend _ s)
    · obtain ⟨t, _, he⟩ := hstep y hy
      rw [he]
      exact (hxz z hz).extend t s
    · obtain ⟨t, _, he⟩ := hstep y hy
      obtain ⟨u, _, he'⟩ := hstep z hz
      refine .inl ?_
      rw [he, he', Route.length_extend, Route.length_extend, Route.length_extend]
      exact Nat.lt_succ_self _

theorem object_notMem_bodies {path : String} {obj : ObjectHandle} {e : CorePath}
    (he : e ∈ (image.functionBody obj).toList.flatMap (bodyOffers image path))
    (target : ObjectHandle) : e.target ≠ .object target := by
  obtain ⟨body, _, he⟩ := List.mem_flatMap.1 he
  rcases List.mem_cons.1 he with rfl | he
  · exact CoreTarget.noConfusion
  · obtain ⟨s, _, rfl⟩ := List.mem_map.1 he
    exact CoreTarget.noConfusion

/-- **A visit keeps the routes ranked and covering**, whether the steps of the object lead to what
is new or to what has been named. -/
theorem Canonical.visit (hd : image.DistinctNames) {named : List CorePath} {path : String}
    {obj : ObjectHandle} {rest : List (String × ObjectHandle)} {v : Walk}
    (h : Canonical image roots ⟨named, (path, obj) :: rest⟩)
    (ho : Walk.offerAll ⟨named, rest⟩ (visitOffers image path obj) = .ok v) :
    Canonical image roots v := by
  obtain ⟨done, todo, hr, hc⟩ := h
  cases todo with
  | nil => exact absurd hr.queue (List.cons_ne_nil _ _)
  | cons x todo =>
    obtain ⟨hx, rfl⟩ := List.cons.inj hr.queue
    obtain ⟨rfl, rfl⟩ := Prod.mk.inj hx
    rw [visitOffers, offerAll_append] at ho
    cases hu : Walk.offerAll ⟨named, todo.map fun x => (x.1.path roots, x.2)⟩
        ((edges image x.2).map (edgeOffer (x.1.path roots))) with
    | error err =>
      rw [hu] at ho
      cases ho
    | ok u =>
      rw [hu] at ho
      obtain ⟨new, hr', hsteps⟩ := hr.takeSteps hd hu
      obtain ⟨others, ht, rfl⟩ := taken_of_eq_ok ho
      have hothers : ∀ e ∈ others, ∀ obj, e.target ≠ .object obj :=
        fun e he => object_notMem_bodies (ht.sublist.subset he)
      have hsub : done ++ x :: todo ⊆ done ++ [x] ++ (todo ++ new) := by
        have happ : done ++ [x] ++ (todo ++ new) = done ++ x :: todo ++ new := by simp
        rw [happ]
        exact List.subset_append_left _ _
      refine ⟨done ++ [x], todo ++ new, hr'.addingOthers hothers, fun i r hi => ?_,
        fun y hy s target hl => ?_⟩
      · exact (hc.roots i r hi).mono hsub
      · rcases List.mem_append.1 hy with hy | hy
        · exact (hc.steps y hy s target hl).mono hsub
        · obtain rfl := List.mem_singleton.1 hy
          exact hsteps (y.1.extend s, target) (mem_stepRoutes_iff.2 ⟨s, hl, rfl⟩)

/-- **When nothing waits any more, the route of an object is the least one to it.** -/
theorem isLeast_of_mem {w : Walk} {done : List (Route × ObjectHandle)}
    (hr : Ranked image roots w done []) (hc : Covered image roots done done) {r : Route}
    {obj : ObjectHandle} (hm : (r, obj) ∈ done) : r.IsLeast image roots obj := by
  have hobjects := hr.objects
  have hleads := hr.leads
  rw [List.append_nil] at hobjects hleads
  refine ⟨hleads _ hm, fun q hq => ?_⟩
  obtain ⟨q', hq', hle⟩ := covers_of_leadsTo hc hq
  obtain rfl : q' = r := congrArg Prod.fst (eq_of_nodup_map hobjects hq' hm rfl)
  exact hle

/-- **An object is named by the least route to it**, and by no other path. -/
theorem mem_named_iff (hd : image.DistinctNames) {w : Walk} (h : ofRoots image roots = .ok w)
    (path : String) (obj : ObjectHandle) : ⟨path, .object obj⟩ ∈ w.named ↔
      ∃ r : Route, r.IsLeast image roots obj ∧ r.path roots = path := by
  obtain ⟨⟨done, todo, hr, hc⟩, hq⟩ :=
    ofRoots_induction (P := Canonical image roots) h canonical_roots (Canonical.visit hd)
  obtain rfl : todo = [] := List.map_eq_nil_iff.1 (hr.queue.symm.trans hq)
  rw [List.append_nil] at hc
  rw [hr.named, List.append_nil]
  constructor
  · rintro ⟨r, hm, hp⟩
    exact ⟨r, isLeast_of_mem hr hc hm, hp⟩
  · rintro ⟨r, hl, hp⟩
    obtain ⟨q, hm, _⟩ := covers_of_leadsTo hc hl.1
    obtain rfl := (isLeast_of_mem hr hc hm).eq hl
    exact ⟨q, hm, hp⟩

end Walk

namespace CorePaths

variable {image : CoreImage} {roots : List NamedRoot} {p : CorePaths}

/-- What the paths of an image are to be, said without a walk: which targets have one, and which
route spells it. -/
structure Spelled (image : CoreImage) (roots : List NamedRoot) (p : CorePaths) : Prop where
  /-- An object has a path exactly if some route leads to it. -/
  object_isSome : ∀ obj, (p.pathOf? (.object obj)).isSome = true ↔
    ∃ r : Route, r.LeadsTo image roots obj
  /-- It is the path that the least of these routes spells. -/
  object_path : ∀ obj path, p.pathOf? (.object obj) = some path ↔
    ∃ r : Route, r.IsLeast image roots obj ∧ r.path roots = path
  /-- A body has a path exactly if it is that of an object to which a route leads. -/
  body_isSome : ∀ body, (p.pathOf? (.body body)).isSome = true ↔
    ∃ r obj, Route.LeadsTo image roots r obj ∧ image.functionBody obj = some body
  /-- It is the path of such an object, marked. -/
  body_path : ∀ body path, p.pathOf? (.body body) = some path → ∃ obj owner,
    image.functionBody obj = some body ∧ p.pathOf? (.object obj) = some owner ∧
      path = Retrace.bodyPath owner
  /-- A scope has a path exactly if such a body has it in a slot. -/
  scope_isSome : ∀ scope, (p.pathOf? (.scope scope)).isSome = true ↔
    ∃ r obj body, Route.LeadsTo image roots r obj ∧ image.functionBody obj = some body ∧
      scope ∈ image.debuggerScopes body
  /-- It is the path of such a body with the slot. -/
  scope_path : ∀ scope path, p.pathOf? (.scope scope) = some path → ∃ body owner slot,
    (image.debuggerScopes body)[slot]? = some scope ∧ p.pathOf? (.body body) = some owner ∧
      path = scopePath owner slot

/-- **Paths are canonical and complete.**  If no object has two own properties of one name, a walk
that succeeds names every object by the least route to it, and nothing that cannot be reached. -/
theorem spelled_of_build (hd : image.DistinctNames) (h : build image roots = .ok p) :
    Spelled image roots p where
  object_isSome obj := by
    rw [pathOf?_isSome_iff h, Route.reaches_iff]
  object_path obj path := by
    obtain ⟨w, hw, rfl⟩ := build_eq_ok_iff.1 h
    rw [pathOf?_eq_some_iff h]
    exact Walk.mem_named_iff hd hw path obj
  body_isSome body := by
    rw [pathOf?_isSome_iff h]
    constructor
    · rintro (_ | _ | ⟨ho, hb⟩)
      obtain ⟨r, hr⟩ := Route.reaches_iff.1 ho
      exact ⟨r, _, hr, hb⟩
    · rintro ⟨r, obj, hr, hb⟩
      exact hr.reaches.body hb
  body_path _ _ hp := pathOf?_body h hp
  scope_isSome scope := by
    rw [pathOf?_isSome_iff h]
    constructor
    · rintro (_ | _ | _ | ⟨_ | _ | ⟨ho, hb⟩, hs⟩)
      obtain ⟨r, hr⟩ := Route.reaches_iff.1 ho
      exact ⟨r, _, _, hr, hb, hs⟩
    · rintro ⟨r, obj, body, hr, hb, hs⟩
      exact (hr.reaches.body hb).scope hs
  scope_path _ _ hp := pathOf?_scope h hp

/-- An image with a cycle, an object that two steps lead to, and a body that two objects have. -/
def sharedImage : CoreImage where
  ownProperties obj :=
    if obj = ⟨1⟩ then [⟨"size", .data none⟩, ⟨"f", .data (some ⟨3⟩)⟩, ⟨"b", .data (some ⟨2⟩)⟩]
    else if obj = ⟨2⟩ then [⟨"self", .data (some ⟨1⟩)⟩, ⟨"call", .accessor (some ⟨3⟩) (some ⟨4⟩)⟩]
    else []
  functionBody obj := if obj = ⟨3⟩ ∨ obj = ⟨4⟩ then some ⟨7⟩ else none
  debuggerScopes body := if body = ⟨7⟩ then [⟨5⟩, ⟨5⟩, ⟨6⟩] else []

/-- The root of the image. -/
def sharedRoots : List NamedRoot := [⟨"g", ⟨1⟩⟩]

/-- What a walk over the image names. -/
def sharedNames : List CorePath :=
  [⟨"g", .object ⟨1⟩⟩, ⟨"g.b", .object ⟨2⟩⟩, ⟨"g.f", .object ⟨3⟩⟩, ⟨"g.b.call!set", .object ⟨4⟩⟩,
    ⟨"g.f!body", .body ⟨7⟩⟩, ⟨"g.f!body!scope[0]", .scope ⟨5⟩⟩, ⟨"g.f!body!scope[2]", .scope ⟨6⟩⟩]

theorem distinctNames_sharedImage : sharedImage.DistinctNames := by
  intro obj
  unfold sharedImage
  dsimp only
  split
  · decide
  · split <;> decide

theorem build_sharedImage : build sharedImage sharedRoots = .ok (ofNamed sharedNames) := by
  refine build_eq_ok_iff.2 ⟨⟨sharedNames, []⟩, ?_, rfl⟩
  exact Walk.ofRoots_of_runUpTo (n := 4) (by decide +kernel) rfl

theorem spelled_sharedImage : sharedImage.DistinctNames ∧
    build sharedImage sharedRoots = .ok (ofNamed sharedNames) ∧
    Spelled sharedImage sharedRoots (ofNamed sharedNames) :=
  ⟨distinctNames_sharedImage, build_sharedImage,
    spelled_of_build distinctNames_sharedImage build_sharedImage⟩

end CorePaths

end Retrace
