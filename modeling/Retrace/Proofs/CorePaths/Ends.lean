/-
# How a walk ends

A walk over any image ends, and in one of two ways (`computed_or_clash`):

| end | |
| --- | --- |
| nothing waits | all that can be reached has been named, each by a path computed for it |
| a path is taken | two targets compute that path; a walk fails for no other reason |

Each object waits once, so there are no more visits than objects that can be reached, however they
lead back to each other, and whatever the number of handles is (`endsWithin`).  Properties of one
object may share a name.

The specification calls the walk bounded by the image (section 5), which is the bound here.
-/

import Mathlib.Data.List.Nodup
import Mathlib.Data.List.Perm.Subperm
import Retrace.Proofs.CorePaths.Resolution

namespace Retrace

namespace CoreImage

/-- The paths that a walk can compute for a target, one for each way to it, whichever of them it is
named by in the end. -/
inductive Computes (image : CoreImage) (roots : List NamedRoot) : String → CoreTarget → Prop where
  /-- The path of a root is its name. -/
  | root {r : NamedRoot} : r ∈ roots → Computes image roots r.name (.object r.object)
  /-- What a step leads to has the path of the step. -/
  | step {path : String} {obj target : ObjectHandle} {s : Step} :
      Computes image roots path (.object obj) → image.Leads obj s target →
      Computes image roots (s.path path) (.object target)
  /-- A body has the path of its owner, marked. -/
  | body {path : String} {obj : ObjectHandle} {body : BodyHandle} :
      Computes image roots path (.object obj) → image.functionBody obj = some body →
      Computes image roots (bodyPath path) (.body body)
  /-- A scope has the path of its body with a slot that holds it. -/
  | scope {path : String} {body : BodyHandle} {slot : Nat} {scope : ScopeHandle} :
      Computes image roots path (.body body) → (image.debuggerScopes body)[slot]? = some scope →
      Computes image roots (scopePath path slot) (.scope scope)

/-- Whether an error tells that two targets compute one path, and names the path and both
targets. -/
def Clash (image : CoreImage) (roots : List NamedRoot) (err : Error) : Prop :=
  ∃ path holder wanted, err = .violation (.pathClash path holder wanted) ∧ holder ≠ wanted ∧
    image.Computes roots path holder ∧ image.Computes roots path wanted

variable {image : CoreImage} {roots : List NamedRoot} {path : String} {t : CoreTarget}

theorem Computes.reaches (h : image.Computes roots path t) : image.Reaches roots t := by
  induction h with
  | root hr => exact .root hr
  | step _ hl ih => exact ih.step hl
  | body _ hb ih => exact ih.body hb
  | scope _ hs ih => exact ih.scope (List.mem_of_getElem? hs)

end CoreImage

namespace Walk

variable {image : CoreImage} {roots : List NamedRoot} {w : Walk} {es : List CorePath} {err : Error}

/-! ## Computed paths -/

/-- Whether everything that a walk has named has a path computed for it. -/
def Computed (image : CoreImage) (roots : List NamedRoot) (w : Walk) : Prop :=
  ∀ e ∈ w.named, image.Computes roots e.path e.target

/-- What a visit offers has the path computed for it. -/
theorem computes_of_mem_visitOffers {path : String} {obj : ObjectHandle}
    (h : image.Computes roots path (.object obj)) {e : CorePath}
    (he : e ∈ visitOffers image path obj) : image.Computes roots e.path e.target := by
  rcases mem_visitOffers he with
    ⟨s, target, hl, rfl⟩ | ⟨body, hb, rfl⟩ | ⟨body, slot, scope, hb, hs, rfl⟩
  · exact h.step hl
  · exact h.body hb
  · exact (h.body hb).scope hs

theorem computes_of_mem_rootOffers {e : CorePath} (he : e ∈ rootOffers roots) :
    image.Computes roots e.path e.target := by
  obtain ⟨r, hr, rfl⟩ := List.mem_map.1 he
  exact .root hr

/-- Offers under computed paths keep the paths computed. -/
theorem Computed.offerAll {w' : Walk} (hw : Computed image roots w)
    (hes : ∀ e ∈ es, image.Computes roots e.path e.target) (h : w.offerAll es = .ok w') :
    Computed image roots w' := by
  obtain ⟨new, ht, rfl⟩ := taken_of_eq_ok h
  intro e he
  exact (List.mem_append.1 he).elim (hw e) fun he => hes e (ht.sublist.subset he)

/-! ## Walks that fail -/

/-- An offer fails because its path is that of another target. -/
theorem offer_eq_error {e : CorePath} (h : w.offer e = .error err) :
    ∃ o ∈ w.named, o.path = e.path ∧ o.target ≠ e.target ∧
      err = .violation (.pathClash e.path o.target e.target) := by
  unfold offer claim at h
  split at h
  · cases h
  · rename_i hnew
    cases hf : w.named.find? fun o => o.path = e.path with
    | none =>
      rw [hf] at h
      cases h
    | some o =>
      rw [hf] at h
      cases h
      have ho := List.mem_of_find?_eq_some hf
      exact ⟨o, ho, by simpa using List.find?_some hf, fun he => hnew (he ▸ isNamed_of_mem ho), rfl⟩

/-- **Offers under computed paths fail only where two targets compute one path.** -/
theorem clash_of_offerAll (hw : Computed image roots w)
    (hes : ∀ e ∈ es, image.Computes roots e.path e.target) (h : w.offerAll es = .error err) :
    image.Clash roots err := by
  induction es generalizing w with
  | nil => cases h
  | cons e es ih =>
    have he := hes e List.mem_cons_self
    rw [offerAll_cons] at h
    cases hv : w.offer e with
    | error err' =>
      rw [hv] at h
      cases h
      obtain ⟨o, ho, hpath, hne, rfl⟩ := offer_eq_error hv
      exact ⟨e.path, o.target, e.target, rfl, hne, hpath ▸ hw o ho, he⟩
    | ok v =>
      rw [hv, ok_bind] at h
      have hv' : w.offerAll [e] = .ok v := by rw [offerAll_singleton, hv]
      refine ih (hw.offerAll (fun f hf => ?_) hv') (fun f hf => hes f (List.mem_cons_of_mem _ hf)) h
      rwa [List.mem_singleton.1 hf]

/-- **A walk names by computed paths, and fails only where two targets compute one path**, whatever
the image and the roots. -/
theorem computed_or_clash (image : CoreImage) (roots : List NamedRoot) :
    (∃ w, ofRoots image roots = .ok w ∧ Computed image roots w) ∨
      ∃ err, ofRoots image roots = .error err ∧ image.Clash roots err := by
  have hempty : Computed image roots {} := fun e he => absurd he List.not_mem_nil
  have hroots : ∀ e ∈ rootOffers roots, image.Computes roots e.path e.target :=
    fun e => computes_of_mem_rootOffers
  -- What waits is named, so that the offers of its visit are computed as well.
  have hvisit : ∀ {named path obj rest},
      Sound image roots ⟨named, (path, obj) :: rest⟩ → Computed image roots ⟨named, rest⟩ →
        ∀ e ∈ visitOffers image path obj, image.Computes roots e.path e.target :=
    fun hs hc e => computes_of_mem_visitOffers (hc _ (hs.queued _ List.mem_cons_self))
  rcases ofRoots_cases (P := fun v => Sound image roots v ∧ Computed image roots v)
      (fun hv => by
        obtain ⟨new, ht, rfl⟩ := taken_of_eq_ok hv
        exact ⟨sound_roots ht, hempty.offerAll hroots hv⟩)
      (fun {named path obj rest v} hw hv => by
        have hrest : Computed image roots ⟨named, rest⟩ := hw.2
        obtain ⟨new, ht, rfl⟩ := taken_of_eq_ok hv
        exact ⟨hw.1.visit ht, hrest.offerAll (hvisit hw.1 hrest) hv⟩) with
    ⟨w, hwalk, ⟨_, hc⟩, _⟩ | ⟨err, hwalk, hv | ⟨named, path, obj, rest, ⟨hs, hc⟩, hv⟩⟩
  · exact .inl ⟨w, hwalk, hc⟩
  · exact .inr ⟨err, hwalk, clash_of_offerAll hempty hroots hv⟩
  · have hrest : Computed image roots ⟨named, rest⟩ := hc
    exact .inr ⟨err, hwalk, clash_of_offerAll hrest (hvisit hs hrest) hv⟩

/-! ## How many visits there are -/

/-- A run that fails before it is cut off is a run that fails. -/
theorem run_of_runUpTo_error {n : Nat} (h : runUpTo image n w = .error err) :
    run image w = .error err := by
  induction n generalizing w with
  | zero => cases h
  | succ n ih =>
    obtain ⟨named, queue⟩ := w
    cases queue with
    | nil => cases h
    | cons q rest =>
      rw [runUpTo_cons] at h
      rw [run_cons]
      cases hv : visit image q.1 q.2 ⟨named, rest⟩ with
      | error err' =>
        rw [hv, error_bind] at h
        rw [error_bind, h]
      | ok v =>
        rw [hv, ok_bind] at h
        rw [ok_bind]
        exact ih h

/-- The objects that a walk has named, each of which waits or has been visited.  It is by them that
visits are counted. -/
def namedObjects (w : Walk) : List (String × ObjectHandle) := w.named.flatMap CorePath.waiting

theorem targets_namedObjects (w : Walk) : w.namedObjects.map (fun q => CoreTarget.object q.2) =
    (w.named.map (·.target)).filter CoreTarget.isObject := by
  obtain ⟨named, _⟩ := w
  induction named with
  | nil => rfl
  | cons e rest ih =>
    rw [namedObjects, List.flatMap_cons, List.map_append, List.map_cons]
    obtain ⟨path, target⟩ := e
    cases target with
    | object obj => exact congrArg (CoreTarget.object obj :: ·) ih
    | body | scope => exact ih

/-- A sound walk has named no more objects than can be reached. -/
theorem Sound.length_namedObjects_le (hs : Sound image roots w) {objs : List ObjectHandle}
    (hobjs : ∀ obj, image.Reaches roots (.object obj) → obj ∈ objs) :
    w.namedObjects.length ≤ objs.length := by
  have hnodup : (w.namedObjects.map (·.2)).Nodup := by
    have hfilter := hs.targets.filter CoreTarget.isObject
    rw [← targets_namedObjects] at hfilter
    refine List.Nodup.of_map CoreTarget.object ?_
    rwa [List.map_map]
  have hsub : w.namedObjects.map (·.2) ⊆ objs := by
    intro obj hobj
    obtain ⟨⟨path, _⟩, hq, rfl⟩ := List.mem_map.1 hobj
    obtain ⟨e, he, hwaiting⟩ := List.mem_flatMap.1 hq
    obtain rfl := mem_waiting_iff.1 hwaiting
    exact hobjs _ (hs.reached _ he)
  simpa using (List.subperm_of_subset hnodup hsub).length_le

/-- **What has been named has been visited or waits**, unless nothing waits any more: of the objects
named, so many have been visited as there were visits. -/
theorem length_namedObjects_of_runUpTo {n k : Nat} {w' : Walk} (hs : Sound image roots w)
    (hk : w.namedObjects.length = k + w.queue.length) (h : runUpTo image n w = .ok w') :
    Sound image roots w' ∧
      (w'.queue = [] ∨ w'.namedObjects.length = k + n + w'.queue.length) := by
  induction n generalizing w k with
  | zero =>
    cases h
    exact ⟨hs, .inr hk⟩
  | succ n ih =>
    obtain ⟨named, queue⟩ := w
    cases queue with
    | nil =>
      rw [runUpTo_nil] at h
      cases h
      exact ⟨hs, .inl rfl⟩
    | cons q rest =>
      rw [runUpTo_cons, visit_eq_offerAll hs.tail.scopes] at h
      cases hv : offerAll ⟨named, rest⟩ (visitOffers image q.1 q.2) with
      | error err =>
        rw [hv, error_bind] at h
        cases h
      | ok v =>
        rw [hv, ok_bind] at h
        obtain ⟨new, ht, rfl⟩ := taken_of_eq_ok hv
        have hcount : (Walk.adding ⟨named, rest⟩ new).namedObjects.length =
            k + 1 + (Walk.adding ⟨named, rest⟩ new).queue.length := by
          simp only [namedObjects, adding, List.flatMap_append, List.length_append,
            List.length_cons] at hk ⊢
          omega
        have hend := ih (hs.visit ht) hcount h
        rwa [Nat.add_assoc k 1 n, Nat.add_comm 1 n] at hend

/-- A walk ends after at most so many visits, with nothing waiting or at a path that is taken; in
either case no more visits are made. -/
def EndsWithin (image : CoreImage) (roots : List NamedRoot) (n : Nat) : Prop :=
  (∃ w, (offerAll {} (rootOffers roots) >>= runUpTo image n) = .ok w ∧ w.queue = [] ∧
      ofRoots image roots = .ok w) ∨
    ∃ err, (offerAll {} (rootOffers roots) >>= runUpTo image n) = .error err ∧
      ofRoots image roots = .error err

/-- A walk that ends within some visits is the walk cut off after them. -/
theorem EndsWithin.ofRoots_eq {n : Nat} (h : EndsWithin image roots n) :
    ofRoots image roots = offerAll {} (rootOffers roots) >>= runUpTo image n := by
  rcases h with ⟨w, hrun, _, hwalk⟩ | ⟨err, hrun, hwalk⟩ <;> rw [hwalk, hrun]

/-- **A walk ends after as many visits as objects can be reached**, or before. -/
theorem endsWithin {objs : List ObjectHandle}
    (hobjs : ∀ obj, image.Reaches roots (.object obj) → obj ∈ objs) :
    EndsWithin image roots objs.length := by
  unfold EndsWithin
  rw [ofRoots_eq]
  cases hv : offerAll {} (rootOffers roots) with
  | error err => exact .inr ⟨err, rfl, rfl⟩
  | ok v =>
    rw [ok_bind, ok_bind]
    cases hrun : runUpTo image objs.length v with
    | error err => exact .inr ⟨err, rfl, run_of_runUpTo_error hrun⟩
    | ok w =>
      obtain ⟨new, ht, rfl⟩ := taken_of_eq_ok hv
      have hstart : (Walk.adding {} new).namedObjects.length =
          0 + (Walk.adding {} new).queue.length := by
        simp [namedObjects, adding]
      obtain ⟨hs, hend⟩ := length_namedObjects_of_runUpTo (sound_roots ht) hstart hrun
      have hempty : w.queue = [] := hend.elim id fun hcount => by
        have hle := hs.length_namedObjects_le hobjs
        exact List.length_eq_zero_iff.1 (by omega)
      exact .inl ⟨w, rfl, hempty, run_of_runUpTo hrun hempty⟩

end Walk

namespace CorePaths

/-- **The paths of an image can be worked out, or two targets compute one path.** -/
theorem build_cases (image : CoreImage) (roots : List NamedRoot) :
    (∃ p, build image roots = .ok p ∧ ∀ e ∈ p.named, image.Computes roots e.path e.target) ∨
      ∃ err, build image roots = .error err ∧ image.Clash roots err := by
  rcases Walk.computed_or_clash image roots with ⟨w, hw, hcomputed⟩ | ⟨err, hw, hclash⟩
  · exact .inl ⟨_, build_eq_ok_iff.2 ⟨w, hw, rfl⟩, hcomputed⟩
  · refine .inr ⟨err, ?_, hclash⟩
    rw [build, hw]
    rfl

end CorePaths

end Retrace
