/-
# What a walk names

A walk that ends has named exactly what can be reached from the roots (`isNamed_iff_reaches`).

| invariant | says |
| --- | --- |
| `Sound` | what is named can be reached, once, by a path of its own that something named owes it |
| `Closed` | the roots are named, and what a named object leads to is named unless it still waits |

A visit keeps both, and a run is visits until nothing waits (`run_cases`).

The specification has every value followed that has no path yet (section 4.3); that nothing is
missed by it, and nothing made up, is shown here.
-/

import Retrace.CorePaths
import Retrace.Proofs.CorePaths.Offer

namespace Retrace

/-- The paths that are due once some targets have theirs: roots have their names, and what a named
target leads to has that path with a token more. -/
inductive Owed (image : CoreImage) (roots : List NamedRoot) (named : List CorePath) :
    CorePath → Prop where
  /-- A root is due its name. -/
  | root {r : NamedRoot} : r ∈ roots → Owed image roots named ⟨r.name, .object r.object⟩
  /-- What a step leads to is due the path of the step. -/
  | step {path : String} {obj target : ObjectHandle} {s : Step} : ⟨path, .object obj⟩ ∈ named →
      image.Leads obj s target → Owed image roots named ⟨s.path path, .object target⟩
  /-- A body is due the path of its owner, marked. -/
  | body {path : String} {obj : ObjectHandle} {body : BodyHandle} : ⟨path, .object obj⟩ ∈ named →
      image.functionBody obj = some body → Owed image roots named ⟨bodyPath path, .body body⟩
  /-- A scope is due the path of its body with a slot that holds it. -/
  | scope {path : String} {body : BodyHandle} {slot : Nat} {scope : ScopeHandle} :
      ⟨path, .body body⟩ ∈ named → (image.debuggerScopes body)[slot]? = some scope →
      Owed image roots named ⟨scopePath path slot, .scope scope⟩

theorem Owed.mono {image : CoreImage} {roots : List NamedRoot} {named named' : List CorePath}
    (hs : named ⊆ named') {e : CorePath} (h : Owed image roots named e) :
    Owed image roots named' e := by
  cases h with
  | root hr => exact .root hr
  | step hm hl => exact .step (hs hm) hl
  | body hm hb => exact .body (hs hm) hb
  | scope hm hg => exact .scope (hs hm) hg

namespace Walk

variable {image : CoreImage} {roots : List NamedRoot}

/-! ## Runs -/

theorem run_nil (image : CoreImage) (named : List CorePath) :
    run image ⟨named, []⟩ = .ok ⟨named, []⟩ := by
  rw [run.eq_def]

theorem run_cons (image : CoreImage) (named : List CorePath) (path : String) (obj : ObjectHandle)
    (rest : List (String × ObjectHandle)) : run image ⟨named, (path, obj) :: rest⟩ =
      visit image path obj ⟨named, rest⟩ >>= run image := by
  rw [run.eq_def]
  dsimp only
  split
  · rename_i v hv
    rw [hv, ok_bind]
  · rename_i err hv
    rw [hv, error_bind]

/-- A run cut off after a number of visits, so that walks over an image that is written out can be
evaluated. -/
def runUpTo (image : CoreImage) : Nat → Walk → Except Error Walk
  | 0, w => .ok w
  | _, ⟨named, []⟩ => .ok ⟨named, []⟩
  | n + 1, ⟨named, (path, obj) :: rest⟩ => visit image path obj ⟨named, rest⟩ >>= runUpTo image n

theorem runUpTo_cons (image : CoreImage) (n : Nat) (named : List CorePath) (path : String)
    (obj : ObjectHandle) (rest : List (String × ObjectHandle)) :
    runUpTo image (n + 1) ⟨named, (path, obj) :: rest⟩ =
      visit image path obj ⟨named, rest⟩ >>= runUpTo image n := rfl

theorem runUpTo_nil (image : CoreImage) (n : Nat) (named : List CorePath) :
    runUpTo image n ⟨named, []⟩ = .ok ⟨named, []⟩ := by
  cases n <;> rfl

/-- A run that is not cut short is the run. -/
theorem run_of_runUpTo {n : Nat} {w w' : Walk} (h : runUpTo image n w = .ok w')
    (hq : w'.queue = []) : run image w = .ok w' := by
  induction n generalizing w with
  | zero =>
    obtain ⟨named', queue'⟩ := w'
    subst hq
    obtain rfl : w = ⟨named', []⟩ := Except.ok.inj h
    exact run_nil image named'
  | succ n ih =>
    obtain ⟨named, queue⟩ := w
    cases queue with
    | nil =>
      rw [runUpTo_nil] at h
      rw [run_nil, h]
    | cons q rest =>
      rw [runUpTo_cons] at h
      rw [run_cons]
      cases hv : visit image q.1 q.2 ⟨named, rest⟩ with
      | error err =>
        rw [hv, error_bind] at h
        cases h
      | ok v =>
        rw [hv, ok_bind] at h
        rw [ok_bind]
        exact ih h

/-- **What every visit keeps, a run keeps**: up to its end, when nothing waits, or up to the visit
that fails. -/
theorem run_cases {P : Walk → Prop}
    (visited : ∀ {named path obj rest w'}, P ⟨named, (path, obj) :: rest⟩ →
      visit image path obj ⟨named, rest⟩ = .ok w' → P w') {w : Walk} (hw : P w) :
    (∃ w', run image w = .ok w' ∧ P w' ∧ w'.queue = []) ∨
      ∃ err, run image w = .error err ∧ ∃ named path obj rest,
        P ⟨named, (path, obj) :: rest⟩ ∧ visit image path obj ⟨named, rest⟩ = .error err := by
  induction w using run.induct image with
  | case1 named => exact .inl ⟨_, run_nil image named, hw, rfl⟩
  | case2 named path obj rest v hv ih =>
    rw [run_cons, hv, ok_bind]
    exact ih (visited hw hv)
  | case3 named path obj rest err hv =>
    refine .inr ⟨err, ?_, named, path, obj, rest, hw, hv⟩
    rw [run_cons, hv, error_bind]

/-! ## Soundness -/

/-- What a walk has named follows from the image and the roots. -/
structure Sound (image : CoreImage) (roots : List NamedRoot) (w : Walk) : Prop where
  /-- No target is named twice. -/
  targets : (w.named.map (·.target)).Nodup
  /-- No path is used twice. -/
  paths : (w.named.map (·.path)).Nodup
  /-- Everything named can be reached. -/
  reached : ∀ e ∈ w.named, image.Reaches roots e.target
  /-- Everything named has a path that is due to it. -/
  owed : ∀ e ∈ w.named, Owed image roots w.named e
  /-- What waits is named. -/
  queued : ∀ q ∈ w.queue, ⟨q.1, .object q.2⟩ ∈ w.named
  /-- The scopes of a named body are named. -/
  scopes : ScopesNamed image w

theorem mem_waiting_iff {e : CorePath} {path : String} {obj : ObjectHandle} :
    (path, obj) ∈ e.waiting ↔ e = ⟨path, .object obj⟩ := by
  obtain ⟨p, t⟩ := e
  cases t <;> simp [CorePath.waiting, eq_comm]

/-- **What offers take keeps a walk sound**, if it can be reached and its paths are due. -/
theorem Sound.adding {w : Walk} (h : Sound image roots w) {es new : List CorePath}
    {R : CorePath → CorePath → Prop} (ht : Taken w id R es new)
    (hreach : ∀ e ∈ new, image.Reaches roots e.target)
    (howed : ∀ e ∈ new, Owed image roots (w.adding new).named e)
    (hscopes : ScopesNamed image (w.adding new)) : Sound image roots (w.adding new) where
  targets := by
    show ((w.named ++ new).map _).Nodup
    rw [List.map_append, List.nodup_append]
    refine ⟨h.targets, ht.targets, fun a ha b hb hab => ?_⟩
    obtain ⟨e, he, rfl⟩ := List.mem_map.1 ha
    obtain ⟨k, hk, rfl⟩ := List.mem_map.1 hb
    have hf := ht.fresh k hk
    rw [id, ← hab, isNamed_of_mem he] at hf
    cases hf
  paths := by
    show ((w.named ++ new).map _).Nodup
    rw [List.map_append, List.nodup_append]
    refine ⟨h.paths, ht.paths, fun a ha b hb hab => ?_⟩
    obtain ⟨e, he, rfl⟩ := List.mem_map.1 ha
    obtain ⟨k, hk, rfl⟩ := List.mem_map.1 hb
    exact ht.free k hk e he hab
  reached e he := (List.mem_append.1 he).elim (h.reached e) (hreach e)
  owed e he := (List.mem_append.1 he).elim
    (fun he => (h.owed e he).mono (List.subset_append_left _ _)) (howed e)
  queued q hq := by
    rcases List.mem_append.1 hq with hq | hq
    · exact List.mem_append.2 (.inl (h.queued q hq))
    · obtain ⟨e, he, hqe⟩ := List.mem_flatMap.1 hq
      rw [← mem_waiting_iff.1 hqe]
      exact List.mem_append.2 (.inr he)
  scopes := hscopes

/-- A sound walk from which something waiting is taken is sound. -/
theorem Sound.tail {named : List CorePath} {q : String × ObjectHandle}
    {rest : List (String × ObjectHandle)} (h : Sound image roots ⟨named, q :: rest⟩) :
    Sound image roots ⟨named, rest⟩ :=
  ⟨h.targets, h.paths, h.reached, h.owed, fun p hp => h.queued p (List.mem_cons_of_mem _ hp),
    h.scopes⟩

/-- The three kinds of offers that a visit makes: what a step leads to, the body, and a scope of the
body. -/
theorem mem_visitOffers {path : String} {obj : ObjectHandle} {e : CorePath}
    (h : e ∈ visitOffers image path obj) :
    (∃ s target, image.Leads obj s target ∧ e = ⟨s.path path, .object target⟩) ∨
      (∃ body, image.functionBody obj = some body ∧ e = ⟨bodyPath path, .body body⟩) ∨
      ∃ body slot scope, image.functionBody obj = some body ∧
        (image.debuggerScopes body)[slot]? = some scope ∧
        e = ⟨scopePath (bodyPath path) slot, .scope scope⟩ := by
  rcases List.mem_append.1 h with h | h
  · obtain ⟨⟨s, target⟩, hm, rfl⟩ := List.mem_map.1 h
    exact .inl ⟨s, target, (mem_edges_iff image obj s target).1 hm, rfl⟩
  · obtain ⟨body, hb, h⟩ := List.mem_flatMap.1 h
    have hb' : image.functionBody obj = some body := Option.mem_toList.1 hb
    rcases List.mem_cons.1 h with rfl | h
    · exact .inr (.inl ⟨body, hb', rfl⟩)
    · obtain ⟨⟨scope, slot⟩, hm, rfl⟩ := List.mem_map.1 h
      exact .inr (.inr ⟨body, slot, scope, hb', List.mem_zipIdx_iff_getElem?.1 hm, rfl⟩)

theorem step_mem_visitOffers {path : String} {obj target : ObjectHandle} {s : Step}
    (h : image.Leads obj s target) :
    ⟨s.path path, .object target⟩ ∈ visitOffers image path obj :=
  List.mem_append.2 (.inl (List.mem_map.2 ⟨(s, target), (mem_edges_iff image obj s target).2 h, rfl⟩))

theorem bodyOffers_subset {path : String} {obj : ObjectHandle} {body : BodyHandle}
    (h : image.functionBody obj = some body) :
    bodyOffers image path body ⊆ visitOffers image path obj := by
  intro e he
  refine List.mem_append.2 (.inr (List.mem_flatMap.2 ⟨body, ?_, he⟩))
  rw [h]
  exact List.mem_singleton.2 rfl

theorem scope_mem_bodyOffers (path : String) {body : BodyHandle} {scope : ScopeHandle}
    (h : scope ∈ image.debuggerScopes body) :
    ∃ e ∈ bodyOffers image path body, e.target = .scope scope := by
  obtain ⟨slot, hs⟩ := List.mem_iff_getElem?.1 h
  refine ⟨⟨scopePath (bodyPath path) slot, .scope scope⟩, ?_, rfl⟩
  refine List.mem_cons_of_mem _ (List.mem_map.2 ⟨(scope, slot), ?_, rfl⟩)
  exact List.mem_zipIdx_iff_getElem?.2 hs

/-- What the visit of an object that is reached offers is reached. -/
theorem reaches_of_mem_visitOffers {path : String} {obj : ObjectHandle}
    (h : image.Reaches roots (.object obj)) {e : CorePath} (he : e ∈ visitOffers image path obj) :
    image.Reaches roots e.target := by
  rcases mem_visitOffers he with ⟨s, target, hl, rfl⟩ | ⟨body, hb, rfl⟩ | ⟨body, slot, scope, hb, hs, rfl⟩
  · exact h.step hl
  · exact h.body hb
  · exact (h.body hb).scope (List.mem_of_getElem? hs)

/-- Everything that a run of offers was made is named after it. -/
theorem Taken.isNamed {w : Walk} {es new : List CorePath} {R : CorePath → CorePath → Prop}
    (ht : Taken w id R es new) {e : CorePath} (he : e ∈ es) :
    (w.adding new).isNamed e.target = true := by
  rw [isNamed_adding]
  rcases ht.covered e he with hn | ⟨k, hk, hkt, _⟩
  · exact .inl hn
  · exact .inr ⟨k, hk, hkt⟩

/-- After a visit the bodies that are named are named with all their scopes. -/
theorem scopesNamed_visit {w : Walk} (hw : ScopesNamed image w) {path : String} {obj : ObjectHandle}
    {new : List CorePath} {R : CorePath → CorePath → Prop}
    (ht : Taken w id R (visitOffers image path obj) new) : ScopesNamed image (w.adding new) := by
  intro body hb scope hs
  rcases (isNamed_adding w new _).1 hb with hb | ⟨e, he, het⟩
  · exact (isNamed_adding w new _).2 (.inl (hw body hb scope hs))
  · rcases mem_visitOffers (ht.sublist.subset he) with
      ⟨s, target, _, rfl⟩ | ⟨body', hb', rfl⟩ | ⟨_, slot, scope', _, _, rfl⟩
    · cases het
    · obtain rfl := CoreTarget.body.inj het
      obtain ⟨f, hf, hft⟩ := scope_mem_bodyOffers path hs
      rw [← hft]
      exact ht.isNamed (bodyOffers_subset hb' hf)
    · cases het

/-- A scope that is named in a visit comes with its body, which had no path before. -/
theorem body_mem_of_scope {w : Walk} (hw : ScopesNamed image w) {path : String}
    {obj : ObjectHandle} {new : List CorePath} {R : CorePath → CorePath → Prop}
    (ht : Taken w id R (visitOffers image path obj) new) {body : BodyHandle} {scope : ScopeHandle}
    (hb : image.functionBody obj = some body) (hs : scope ∈ image.debuggerScopes body)
    (hn : w.isNamed (.scope scope) = false) : ⟨bodyPath path, .body body⟩ ∈ new := by
  have hoffer : ⟨bodyPath path, .body body⟩ ∈ visitOffers image path obj :=
    bodyOffers_subset hb List.mem_cons_self
  rcases ht.covered _ hoffer with hbn | ⟨e, he, het, _⟩
  · rw [hw body hbn scope hs] at hn
    cases hn
  · rcases mem_visitOffers (ht.sublist.subset he) with
      ⟨s, target, _, rfl⟩ | ⟨body', _, rfl⟩ | ⟨_, slot, scope', _, _, rfl⟩
    · cases het
    · obtain rfl := CoreTarget.body.inj het
      exact he
    · cases het

/-- **A visit keeps a walk sound**, since all that it offers is reached from the object visited, and
due by its path. -/
theorem Sound.visit {named : List CorePath} {path : String} {obj : ObjectHandle}
    {rest : List (String × ObjectHandle)} (h : Sound image roots ⟨named, (path, obj) :: rest⟩)
    {new : List CorePath} {R : CorePath → CorePath → Prop}
    (ht : Taken ⟨named, rest⟩ id R (visitOffers image path obj) new) :
    Sound image roots (Walk.adding ⟨named, rest⟩ new) := by
  have hobj : ⟨path, .object obj⟩ ∈ named := h.queued (path, obj) List.mem_cons_self
  have hsub : named ⊆ (Walk.adding ⟨named, rest⟩ new).named := List.subset_append_left _ _
  refine h.tail.adding ht (fun e he => ?_) (fun e he => ?_)
    (scopesNamed_visit h.tail.scopes ht)
  · exact reaches_of_mem_visitOffers (h.reached _ hobj) (ht.sublist.subset he)
  · rcases mem_visitOffers (ht.sublist.subset he) with
      ⟨s, target, hl, rfl⟩ | ⟨body, hb, rfl⟩ | ⟨body, slot, scope, hb, hs, rfl⟩
    · exact .step (hsub hobj) hl
    · exact .body (hsub hobj) hb
    · have hbody := body_mem_of_scope h.tail.scopes ht hb (List.mem_of_getElem? hs) (ht.fresh _ he)
      exact .scope (List.mem_append.2 (.inr hbody)) hs

/-! ## Completeness -/

/-- A walk leaves nothing out but what still waits: what an object that has been visited leads to is
named, and so are bodies with their scopes. -/
structure Closed (image : CoreImage) (roots : List NamedRoot) (w : Walk) : Prop where
  /-- The roots are named. -/
  roots : ∀ r ∈ roots, w.isNamed (.object r.object) = true
  /-- What a named object leads to is named, unless the object waits for its visit. -/
  visited : ∀ path obj, ⟨path, .object obj⟩ ∈ w.named → (path, obj) ∈ w.queue ∨
    ∀ e ∈ visitOffers image path obj, w.isNamed e.target = true

theorem isNamed_adding_of_isNamed {w : Walk} {t : CoreTarget} (h : w.isNamed t = true)
    (new : List CorePath) : (w.adding new).isNamed t = true :=
  (isNamed_adding w new t).2 (.inl h)

/-- **A visit leaves nothing out**: what the object leads to is named then, and what was named
before stays so. -/
theorem Closed.visit {named : List CorePath} {path : String} {obj : ObjectHandle}
    {rest : List (String × ObjectHandle)} (h : Closed image roots ⟨named, (path, obj) :: rest⟩)
    {new : List CorePath} {R : CorePath → CorePath → Prop}
    (ht : Taken ⟨named, rest⟩ id R (visitOffers image path obj) new) :
    Closed image roots (Walk.adding ⟨named, rest⟩ new) where
  roots r hr := isNamed_adding_of_isNamed (h.roots r hr) new
  visited p o hm := by
    rcases List.mem_append.1 hm with hm | hm
    · rcases h.visited p o hm with hq | hall
      · rcases List.mem_cons.1 hq with hq | hq
        · obtain ⟨rfl, rfl⟩ := Prod.mk.inj hq
          exact .inr fun e he => ht.isNamed he
        · exact .inl (List.mem_append.2 (.inl hq))
      · exact .inr fun e he => isNamed_adding_of_isNamed (hall e he) new
    · refine .inl (List.mem_append.2 (.inr (List.mem_flatMap.2 ⟨_, hm, ?_⟩)))
      exact mem_waiting_iff.2 rfl

/-- The offers of the roots: each object under its root's name, in the order in which the roots are
given. -/
def rootOffers (roots : List NamedRoot) : List CorePath :=
  roots.map fun r => ⟨r.name, .object r.object⟩

theorem ofRoots_eq (image : CoreImage) (roots : List NamedRoot) :
    ofRoots image roots = offerAll {} (rootOffers roots) >>= run image := by
  unfold ofRoots rootOffers offerAll
  rw [List.foldlM_map]
  rfl

deriving instance DecidableEq for Walk

/-- The outcome of a walk that takes no more than a number of visits, by evaluation. -/
theorem ofRoots_of_runUpTo {n : Nat} {w : Walk}
    (h : (offerAll {} (rootOffers roots) >>= runUpTo image n).toOption = some w)
    (hq : w.queue = []) : ofRoots image roots = .ok w := by
  rw [ofRoots_eq]
  cases hv : offerAll {} (rootOffers roots) with
  | error err =>
    rw [hv, error_bind] at h
    cases h
  | ok v =>
    rw [hv, ok_bind] at h
    rw [ok_bind]
    cases hr : runUpTo image n v with
    | error err =>
      rw [hr] at h
      cases h
    | ok u =>
      rw [hr] at h
      obtain rfl : u = w := Option.some.inj h
      exact run_of_runUpTo hr hq

theorem taken_of_eq_ok {w w' : Walk} {es : List CorePath} (h : w.offerAll es = .ok w') :
    ∃ new : List CorePath, Taken w id (fun _ _ => True) es new ∧ w' = w.adding new := by
  rw [← List.map_id es] at h
  obtain ⟨new, ht, rfl⟩ := taken_of_offerAll (List.pairwise_of_forall fun _ _ => trivial) h
  exact ⟨new, ht, by rw [List.map_id]⟩

theorem scopesNamed_roots {new : List CorePath} {R : CorePath → CorePath → Prop}
    (ht : Taken {} id R (rootOffers roots) new) : ScopesNamed image (Walk.adding {} new) := by
  have hnone : ScopesNamed image {} := fun body hb => by cases hb
  refine hnone.addingObjects fun e he => ?_
  obtain ⟨r, _, rfl⟩ := List.mem_map.1 (ht.sublist.subset he)
  exact ⟨r.object, rfl⟩

/-- **What holds once the roots have been offered, and is kept by the offers of every visit, holds
up to the end of the walk**, or up to the offers that fail. -/
theorem ofRoots_cases {P : Walk → Prop}
    (start : ∀ {v}, offerAll {} (rootOffers roots) = .ok v → P v)
    (visited : ∀ {named path obj rest v}, P ⟨named, (path, obj) :: rest⟩ →
      offerAll ⟨named, rest⟩ (visitOffers image path obj) = .ok v → P v) :
    (∃ w, ofRoots image roots = .ok w ∧ P w ∧ w.queue = []) ∨
      ∃ err, ofRoots image roots = .error err ∧
        (offerAll {} (rootOffers roots) = .error err ∨ ∃ named path obj rest,
          P ⟨named, (path, obj) :: rest⟩ ∧
            offerAll ⟨named, rest⟩ (visitOffers image path obj) = .error err) := by
  rw [ofRoots_eq]
  cases hv : offerAll {} (rootOffers roots) with
  | error err => exact .inr ⟨err, rfl, .inl rfl⟩
  | ok v =>
    have hstart : P v ∧ ScopesNamed image v := by
      obtain ⟨new, ht, rfl⟩ := taken_of_eq_ok hv
      exact ⟨start hv, scopesNamed_roots ht⟩
    rw [ok_bind]
    rcases run_cases (P := fun w => P w ∧ ScopesNamed image w)
      (fun {named path obj rest v} hw hvisit => by
        have hs : ScopesNamed image ⟨named, rest⟩ := hw.2
        rw [visit_eq_offerAll hs] at hvisit
        obtain ⟨new, ht, rfl⟩ := taken_of_eq_ok hvisit
        exact ⟨visited hw.1 hvisit, scopesNamed_visit hs ht⟩) hstart with
      ⟨w, hrun, ⟨hw, _⟩, hq⟩ | ⟨err, hrun, named, path, obj, rest, ⟨hw, hs⟩, hvisit⟩
    · exact .inl ⟨w, hrun, hw, hq⟩
    · have hs : ScopesNamed image ⟨named, rest⟩ := hs
      rw [visit_eq_offerAll hs] at hvisit
      exact .inr ⟨err, hrun, .inr ⟨named, path, obj, rest, hw, hvisit⟩⟩

/-- So it holds of the walk that ends. -/
theorem ofRoots_induction {P : Walk → Prop} {w : Walk} (h : ofRoots image roots = .ok w)
    (start : ∀ {v}, offerAll {} (rootOffers roots) = .ok v → P v)
    (visited : ∀ {named path obj rest v}, P ⟨named, (path, obj) :: rest⟩ →
      offerAll ⟨named, rest⟩ (visitOffers image path obj) = .ok v → P v) :
    P w ∧ w.queue = [] := by
  rcases ofRoots_cases start visited with ⟨w', hwalk, hend⟩ | ⟨err, hwalk, _⟩
  · cases hwalk.symm.trans h
    exact hend
  · cases hwalk.symm.trans h

theorem sound_roots {new : List CorePath} {R : CorePath → CorePath → Prop}
    (ht : Taken {} id R (rootOffers roots) new) : Sound image roots (Walk.adding {} new) := by
  have hempty : Sound image roots {} :=
    ⟨List.nodup_nil, List.nodup_nil, fun e he => absurd he List.not_mem_nil,
      fun e he => absurd he List.not_mem_nil, fun q hq => absurd hq List.not_mem_nil,
      fun body hb => by cases hb⟩
  refine hempty.adding ht (fun e he => ?_) (fun e he => ?_) (scopesNamed_roots ht)
  · obtain ⟨r, hr, rfl⟩ := List.mem_map.1 (ht.sublist.subset he)
    exact .root hr
  · obtain ⟨r, hr, rfl⟩ := List.mem_map.1 (ht.sublist.subset he)
    exact .root hr

theorem closed_roots {new : List CorePath} {R : CorePath → CorePath → Prop}
    (ht : Taken {} id R (rootOffers roots) new) : Closed image roots (Walk.adding {} new) where
  roots r hr := ht.isNamed (List.mem_map.2 ⟨r, hr, rfl⟩)
  visited path obj hm := by
    refine .inl (List.mem_append.2 (.inr (List.mem_flatMap.2 ⟨_, ?_, mem_waiting_iff.2 rfl⟩)))
    exact (List.mem_append.1 hm).resolve_left List.not_mem_nil

/-- **A walk that ends is sound and has left nothing out**, whatever the image and the roots are. -/
theorem sound_and_closed {w : Walk} (h : ofRoots image roots = .ok w) :
    (Sound image roots w ∧ Closed image roots w) ∧ w.queue = [] := by
  refine ofRoots_induction (P := fun v => Sound image roots v ∧ Closed image roots v) h
    (fun hv => ?_) (fun hw hv => ?_)
  · obtain ⟨new, ht, rfl⟩ := taken_of_eq_ok hv
    exact ⟨sound_roots ht, closed_roots ht⟩
  · obtain ⟨new, ht, rfl⟩ := taken_of_eq_ok hv
    exact ⟨hw.1.visit ht, hw.2.visit ht⟩

/-- What nothing waits for and nothing is left out of holds all that can be reached. -/
theorem isNamed_of_reaches {w : Walk} (hs : Sound image roots w) (hc : Closed image roots w)
    (hq : w.queue = []) {t : CoreTarget} (h : image.Reaches roots t) : w.isNamed t = true := by
  have hvisited : ∀ {obj}, w.isNamed (.object obj) = true →
      ∃ path, ∀ e ∈ visitOffers image path obj, w.isNamed e.target = true := by
    intro obj ho
    obtain ⟨⟨path, t⟩, he, rfl⟩ := (isNamed_iff w _).1 ho
    refine ⟨path, (hc.visited path obj he).resolve_left fun hm => ?_⟩
    rw [hq] at hm
    exact absurd hm List.not_mem_nil
  induction h with
  | root hr => exact hc.roots _ hr
  | step _ hl ih =>
    obtain ⟨path, hall⟩ := hvisited ih
    exact hall _ (step_mem_visitOffers hl)
  | body _ hb ih =>
    obtain ⟨path, hall⟩ := hvisited ih
    exact hall _ (bodyOffers_subset hb List.mem_cons_self)
  | scope _ hm ih => exact hs.scopes _ ih _ hm

/-- **A walk that ends has named exactly what can be reached**, objects, bodies and scopes alike. -/
theorem isNamed_iff_reaches {w : Walk} (h : ofRoots image roots = .ok w) (t : CoreTarget) :
    w.isNamed t = true ↔ image.Reaches roots t := by
  obtain ⟨⟨hs, hc⟩, hq⟩ := sound_and_closed h
  refine ⟨fun hn => ?_, isNamed_of_reaches hs hc hq⟩
  obtain ⟨e, he, rfl⟩ := (isNamed_iff w t).1 hn
  exact hs.reached e he

end Walk

end Retrace
