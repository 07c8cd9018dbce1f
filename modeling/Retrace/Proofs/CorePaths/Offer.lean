/-
# A walk as a run of offers

Whatever a walk meets it offers: a target under a path, which is named by it if it has no path yet.
Roots, what steps lead to, bodies and scopes are all offered alike.

| offered target | outcome |
| --- | --- |
| has a path | nothing changes |
| has none, and the path is free | it is named, and an object is queued |
| has none, and the path is taken | the walk fails |

A visit offers what the steps of the object lead to in the order of steps, and then its body with the
scopes (`visit_eq_offerAll`); a body that has a path already has been offered with all its scopes.

These are the steps 2 to 5 of the algorithm in the specification (section 4.3), all in one form.
-/

import Retrace.Proofs.CorePaths.Graph
import Retrace.Proofs.Order.ShellSort

namespace Retrace

@[simp] theorem ok_bind {α β : Type} (a : α) (f : α → Except Error β) : (.ok a >>= f) = f a := rfl

@[simp] theorem error_bind {α β : Type} (err : Error) (f : α → Except Error β) :
    (.error err >>= f) = .error err := rfl

/-- How an object waits for its visit once it is named; nothing else is visited. -/
def CorePath.waiting (e : CorePath) : List (String × ObjectHandle) :=
  match e.target with
  | .object obj => [(e.path, obj)]
  | _ => []

namespace Walk

/-- The walk with more targets named and the objects among them queued. -/
def adding (w : Walk) (new : List CorePath) : Walk :=
  ⟨w.named ++ new, w.queue ++ new.flatMap CorePath.waiting⟩

/-- Names a target, unless it has a path, and queues it if it is an object.  It fails if the path is
taken by another target. -/
def offer (w : Walk) (e : CorePath) : Except Error Walk :=
  if w.isNamed e.target then .ok w
  else match w.claim e.path e.target with
    | .ok v => .ok { v with queue := v.queue ++ e.waiting }
    | .error err => .error err

/-- Offers one target after the other, up to the first offer that fails. -/
def offerAll (w : Walk) (es : List CorePath) : Except Error Walk := es.foldlM offer w

theorem isNamed_iff (w : Walk) (t : CoreTarget) :
    w.isNamed t = true ↔ ∃ e ∈ w.named, e.target = t := by
  simp [isNamed]

theorem isNamed_of_mem {w : Walk} {e : CorePath} (h : e ∈ w.named) : w.isNamed e.target = true :=
  (isNamed_iff w _).2 ⟨e, h, rfl⟩

theorem isNamed_adding (w : Walk) (new : List CorePath) (t : CoreTarget) :
    (w.adding new).isNamed t = true ↔ w.isNamed t = true ∨ ∃ e ∈ new, e.target = t := by
  simp only [isNamed_iff, adding, List.mem_append, or_and_right, exists_or]

@[simp] theorem adding_nil (w : Walk) : w.adding [] = w := by
  simp [adding]

theorem adding_append (w : Walk) (new more : List CorePath) :
    w.adding (new ++ more) = (w.adding new).adding more := by
  simp [adding, List.append_assoc]

/-- The three outcomes of an offer: the target has a path, or gets the one offered, or cannot have
it. -/
theorem offer_cases (w : Walk) (e : CorePath) :
    (w.isNamed e.target = true ∧ w.offer e = .ok w) ∨
      (w.isNamed e.target = false ∧ (∃ o ∈ w.named, o.path = e.path) ∧
        ∃ err, w.offer e = .error err) ∨
      (w.isNamed e.target = false ∧ (∀ o ∈ w.named, o.path ≠ e.path) ∧
        w.offer e = .ok (w.adding [e])) := by
  unfold offer claim
  cases hn : w.isNamed e.target with
  | true => exact .inl ⟨rfl, rfl⟩
  | false =>
    rw [if_neg Bool.false_ne_true]
    cases hp : w.named.find? fun o => o.path = e.path with
    | some o =>
      have ho := List.find?_some hp
      exact .inr (.inl ⟨rfl, ⟨o, List.mem_of_find?_eq_some hp, by simpa using ho⟩, _, rfl⟩)
    | none =>
      rw [List.find?_eq_none] at hp
      refine .inr (.inr ⟨rfl, fun o ho => by simpa using hp o ho, ?_⟩)
      simp [adding]

/-! ## Runs of offers -/

theorem offerAll_cons (w : Walk) (e : CorePath) (es : List CorePath) :
    w.offerAll (e :: es) = w.offer e >>= fun v => v.offerAll es := rfl

theorem offerAll_append (w : Walk) (es fs : List CorePath) :
    w.offerAll (es ++ fs) = w.offerAll es >>= fun v => v.offerAll fs := by
  rw [offerAll, List.foldlM_append]
  rfl

theorem offerAll_cons_eq_ok_iff {w w' : Walk} {e : CorePath} {es : List CorePath} :
    w.offerAll (e :: es) = .ok w' ↔ ∃ v, w.offer e = .ok v ∧ v.offerAll es = .ok w' := by
  rw [offerAll_cons]
  cases w.offer e with
  | error err => simp
  | ok v => simp

theorem offerAll_flatMap {α : Type} (f : α → List CorePath) (w : Walk) (l : List α) :
    w.offerAll (l.flatMap f) = l.foldlM (fun v a => v.offerAll (f a)) w := by
  induction l generalizing w with
  | nil => rfl
  | cons a l ih =>
    rw [List.flatMap_cons, offerAll_append, List.foldlM_cons]
    exact congrArg _ (funext ih)

/-- Of the offers `ks`, made to a walk in an order `R`, those in `new` name their targets. -/
structure Taken {κ : Type} (w : Walk) (g : κ → CorePath) (R : κ → κ → Prop) (ks new : List κ) :
    Prop where
  /-- They are some of the offers, in the same order. -/
  sublist : new.Sublist ks
  /-- A target offered had a path, or is named at its first offer. -/
  covered : ∀ k ∈ ks, w.isNamed (g k).target = true ∨
    ∃ e ∈ new, (g e).target = (g k).target ∧ (e = k ∨ R e k)
  /-- What is named had no path. -/
  fresh : ∀ e ∈ new, w.isNamed (g e).target = false
  /-- The path by which it is named was free. -/
  free : ∀ e ∈ new, ∀ o ∈ w.named, o.path ≠ (g e).path
  /-- No two name the same target. -/
  targets : (new.map fun e => (g e).target).Nodup
  /-- No two name by the same path. -/
  paths : (new.map fun e => (g e).path).Nodup

variable {κ : Type} {g : κ → CorePath} {R : κ → κ → Prop}

theorem taken_nil (w : Walk) : Taken w g R [] [] :=
  ⟨.slnil, fun _ h => absurd h List.not_mem_nil, fun _ h => absurd h List.not_mem_nil,
    fun _ h => absurd h List.not_mem_nil, List.nodup_nil, List.nodup_nil⟩

/-- An offer of what has a path is not taken. -/
theorem Taken.skip {w : Walk} {k : κ} {ks new : List κ} (h : Taken w g R ks new)
    (hn : w.isNamed (g k).target = true) : Taken w g R (k :: ks) new := by
  refine ⟨h.sublist.cons k, fun q hq => ?_, h.fresh, h.free, h.targets, h.paths⟩
  rcases List.mem_cons.1 hq with rfl | hq
  · exact .inl hn
  · exact h.covered q hq

/-- An offer of what has no path is taken, and those after it are made to the walk that it leaves. -/
theorem Taken.take {w : Walk} {k : κ} {ks new : List κ} (h : Taken (w.adding [g k]) g R ks new)
    (hR : ∀ q ∈ ks, R k q) (hn : w.isNamed (g k).target = false)
    (hp : ∀ o ∈ w.named, o.path ≠ (g k).path) : Taken w g R (k :: ks) (k :: new) := by
  have hmem : g k ∈ (w.adding [g k]).named := List.mem_append.2 (.inr (List.mem_singleton.2 rfl))
  have hother : ∀ e ∈ new, (g k).target ≠ (g e).target := by
    intro e he het
    have hf := h.fresh e he
    rw [← het, isNamed_of_mem hmem] at hf
    cases hf
  refine ⟨h.sublist.cons_cons k, fun q hq => ?_, fun e he => ?_, fun e he => ?_, ?_, ?_⟩
  · rcases List.mem_cons.1 hq with rfl | hq
    · exact .inr ⟨q, List.mem_cons_self, rfl, .inl rfl⟩
    rcases h.covered q hq with hq' | ⟨e, he, het, hle⟩
    · rcases (isNamed_adding w _ _).1 hq' with hw | ⟨e, he, het⟩
      · exact .inl hw
      · rw [List.mem_singleton.1 he] at het
        exact .inr ⟨k, List.mem_cons_self, het, .inr (hR q hq)⟩
    · exact .inr ⟨e, List.mem_cons_of_mem _ he, het, hle⟩
  · rcases List.mem_cons.1 he with rfl | he
    · exact hn
    · refine Bool.eq_false_iff.2 fun hw => ?_
      exact Bool.eq_false_iff.1 (h.fresh e he) ((isNamed_adding w _ _).2 (.inl hw))
  · rcases List.mem_cons.1 he with rfl | he
    · exact hp
    · exact fun o ho => h.free e he o (List.mem_append.2 (.inl ho))
  · rw [List.map_cons, List.nodup_cons]
    refine ⟨fun hm => ?_, h.targets⟩
    obtain ⟨e, he, het⟩ := List.mem_map.1 hm
    exact hother e he het.symm
  · rw [List.map_cons, List.nodup_cons]
    refine ⟨fun hm => ?_, h.paths⟩
    obtain ⟨e, he, hep⟩ := List.mem_map.1 hm
    exact h.free e he (g k) hmem hep.symm

/-- **What a run of offers does.**  If it succeeds, some of the offers are taken and no more is
changed. -/
theorem taken_of_offerAll {ks : List κ} {w w' : Walk} (hR : ks.Pairwise R)
    (h : w.offerAll (ks.map g) = .ok w') :
    ∃ new : List κ, Taken w g R ks new ∧ w' = w.adding (new.map g) := by
  induction ks generalizing w with
  | nil =>
    cases h
    exact ⟨[], taken_nil _, (adding_nil _).symm⟩
  | cons k ks ih =>
    obtain ⟨hk, hks⟩ := List.pairwise_cons.1 hR
    obtain ⟨v, hv, hrest⟩ := offerAll_cons_eq_ok_iff.1 h
    rcases offer_cases w (g k) with ⟨hn, he⟩ | ⟨_, _, err, he⟩ | ⟨hn, hp, he⟩
    · rw [he] at hv
      cases hv
      obtain ⟨new, ht, rfl⟩ := ih hks hrest
      exact ⟨new, ht.skip hn, rfl⟩
    · rw [he] at hv
      cases hv
    · rw [he] at hv
      cases hv
      obtain ⟨new, ht, rfl⟩ := ih hks hrest
      exact ⟨k :: new, ht.take hk hn hp, (adding_append w [g k] _).symm⟩

/-! ## Visits -/

/-- The steps from an object in the order of their names, each with what it leads to; this is the
order in which the object makes its offers. -/
def edges (image : CoreImage) (obj : ObjectHandle) : List (Step × ObjectHandle) :=
  (sortedProperties image obj).flatMap Property.edges

theorem mem_edges_iff (image : CoreImage) (obj : ObjectHandle) (s : Step) (target : ObjectHandle) :
    (s, target) ∈ edges image obj ↔ image.Leads obj s target := by
  unfold edges CoreImage.Leads
  simp only [List.mem_flatMap, Property.mem_edges_iff]
  constructor
  · rintro ⟨p, hp, h⟩
    exact ⟨p, (perm_shellSort _ _).mem_iff.1 hp, h⟩
  · rintro ⟨p, hp, h⟩
    exact ⟨p, (perm_shellSort _ _).mem_iff.2 hp, h⟩

theorem name_of_mem_edges {p : Property} {e : Step × ObjectHandle} (h : e ∈ p.edges) :
    p.name = e.1.name := ((p.mem_edges_iff e.1 e.2).1 h).1

instance transCmp_propertyName : Std.TransCmp fun a b : Property => compare a.name b.name where
  eq_swap {a b} := Std.OrientedOrd.eq_swap (a := a.name) (b := b.name)
  isLE_trans {a b c} := Std.TransOrd.isLE_trans (a := a.name) (b := b.name) (c := c.name)

theorem lt_of_isLE_compare {a b : String} (h : (compare a b).isLE) (hne : a ≠ b) : a < b := by
  by_cases hlt : a < b
  · exact hlt
  · have hgt : compare a b = .gt := by
      show compareOfLessAndEq a b = .gt
      rw [compareOfLessAndEq, if_neg hlt, if_neg hne]
    rw [hgt] at h
    cases h

/-- The properties of an object with distinct names are sorted strictly. -/
theorem pairwise_sortedProperties {image : CoreImage} (hd : image.DistinctNames)
    (obj : ObjectHandle) :
    (sortedProperties image obj).Pairwise fun a b => bytes a.name < bytes b.name := by
  have hperm : (sortedProperties image obj).Perm (image.ownProperties obj) := perm_shellSort _ _
  have hnames := ((hperm.map (·.name)).nodup_iff).2 (hd obj)
  rw [List.Nodup, List.pairwise_map] at hnames
  have hle : (sortedProperties image obj).Pairwise fun a b => (compare a.name b.name).isLE :=
    pairwise_shellSort _ _
  refine (hle.and hnames).imp fun {a b} h => ?_
  exact bytes_lt_of_lt (lt_of_isLE_compare h.1 h.2)

/-- **The steps from an object are taken in their order**: by name, and the getter of a property
before its setter. -/
theorem pairwise_edges {image : CoreImage} (hd : image.DistinctNames) (obj : ObjectHandle) :
    (edges image obj).Pairwise fun a b => a.1.Before b.1 := by
  unfold edges
  rw [List.pairwise_flatMap]
  refine ⟨fun p _ => p.pairwise_edges, (pairwise_sortedProperties hd obj).imp ?_⟩
  intro p q hlt a ha b hb
  rw [name_of_mem_edges ha, name_of_mem_edges hb] at hlt
  exact .inl hlt

/-- The offer of what a step leads to, made by the object of a path. -/
def edgeOffer (path : String) (e : Step × ObjectHandle) : CorePath := ⟨e.1.path path, .object e.2⟩

/-- The offers of a body and its scopes, made by an owner: the body first, and then the scopes by
slot. -/
def bodyOffers (image : CoreImage) (owner : String) (body : BodyHandle) : List CorePath :=
  ⟨bodyPath owner, .body body⟩ :: (image.debuggerScopes body).zipIdx.map fun s =>
    ⟨scopePath (bodyPath owner) s.2, .scope s.1⟩

/-- The offers that a visit makes: first what the steps lead to, and then the body with its scopes,
unless it has a path. -/
def visitOffers (image : CoreImage) (path : String) (obj : ObjectHandle) : List CorePath :=
  (edges image obj).map (edgeOffer path) ++
    (image.functionBody obj).toList.flatMap (bodyOffers image path)

/-- Bodies have been offered with all their scopes, so that to offer such a body and its scopes
again changes nothing. -/
def ScopesNamed (image : CoreImage) (w : Walk) : Prop :=
  ∀ body, w.isNamed (.body body) = true →
    ∀ scope ∈ image.debuggerScopes body, w.isNamed (.scope scope) = true

/-- To claim a path for what has none and is not visited is to offer it. -/
theorem claim_eq_offer {w : Walk} {e : CorePath} (hn : w.isNamed e.target = false)
    (he : e.waiting = []) : w.claim e.path e.target = w.offer e := by
  unfold offer
  rw [hn, if_neg Bool.false_ne_true]
  cases w.claim e.path e.target with
  | error err => rfl
  | ok v =>
    dsimp only
    rw [he, List.append_nil]

theorem takeScope_eq_offer (body : String) (w : Walk) (s : ScopeHandle × Nat) :
    w.takeScope body s = w.offer ⟨scopePath body s.2, .scope s.1⟩ := by
  unfold takeScope
  cases hn : w.isNamed (.scope s.1) with
  | true => exact (if_pos hn).symm
  | false => exact claim_eq_offer (e := ⟨_, .scope s.1⟩) hn rfl

theorem offerAll_singleton (w : Walk) (e : CorePath) : w.offerAll [e] = w.offer e := by
  rw [offerAll_cons]
  cases w.offer e <;> rfl

theorem reachChild_eq_offerAll (path name : String) (access : Access) (value : Option ObjectHandle)
    (w : Walk) : w.reachChild path name access.tag value =
      w.offerAll ((Step.edge ⟨name, access⟩ value).map (edgeOffer path)) := by
  cases value with
  | none => rfl
  | some obj =>
    rw [Step.edge, Option.toList_some, List.map_singleton, List.map_singleton, offerAll_singleton]
    rfl

theorem takeProperty_eq_offerAll (path : String) (w : Walk) (p : Property) :
    w.takeProperty path p = w.offerAll (p.edges.map (edgeOffer path)) := by
  unfold takeProperty Property.edges
  cases p.value with
  | data value => exact reachChild_eq_offerAll path p.name .value value w
  | accessor getter setter =>
    have hset : (fun v : Walk => v.reachChild path p.name (some setterTag) setter) =
        fun v => v.offerAll ((Step.edge ⟨p.name, .setter⟩ setter).map (edgeOffer path)) :=
      funext fun v => reachChild_eq_offerAll path p.name .setter setter v
    rw [List.map_append, offerAll_append, ← reachChild_eq_offerAll, ← hset]
    rfl

theorem takeProperties_eq_offerAll (image : CoreImage) (path : String) (obj : ObjectHandle)
    (w : Walk) : (sortedProperties image obj).foldlM (takeProperty path) w =
      w.offerAll ((edges image obj).map (edgeOffer path)) := by
  rw [edges, List.map_flatMap, offerAll_flatMap]
  refine congrArg (fun step => List.foldlM step w _) (funext fun v => funext fun p => ?_)
  exact takeProperty_eq_offerAll path v p

/-- Offers of what has a path leave a walk as it is. -/
theorem offerAll_of_isNamed {w : Walk} {es : List CorePath}
    (h : ∀ e ∈ es, w.isNamed e.target = true) : w.offerAll es = .ok w := by
  induction es with
  | nil => rfl
  | cons e es ih =>
    refine offerAll_cons_eq_ok_iff.2 ⟨w, if_pos (h e List.mem_cons_self), ih fun f hf => ?_⟩
    exact h f (List.mem_cons_of_mem _ hf)

theorem takeBody_eq_offerAll {image : CoreImage} {w : Walk} (hw : ScopesNamed image w)
    (owner : String) (body : BodyHandle) :
    w.takeBody image owner body = w.offerAll (bodyOffers image owner body) := by
  unfold takeBody
  cases hn : w.isNamed (.body body) with
  | true =>
    refine (offerAll_of_isNamed fun e he => ?_).symm
    rcases List.mem_cons.1 he with rfl | he
    · exact hn
    · obtain ⟨s, hs, rfl⟩ := List.mem_map.1 he
      exact hw body hn s.1 (List.fst_mem_of_mem_zipIdx hs)
  | false =>
    rw [if_neg Bool.false_ne_true, bodyOffers, offerAll_cons,
      claim_eq_offer (e := ⟨_, .body body⟩) hn rfl]
    refine congrArg _ (funext fun v => ?_)
    rw [offerAll, List.foldlM_map]
    exact congrArg (fun step => List.foldlM step v _) (funext fun u => funext fun s =>
      takeScope_eq_offer (bodyPath owner) u s)

/-- More objects leave the bodies with all their scopes. -/
theorem ScopesNamed.addingObjects {image : CoreImage} {w : Walk} (hw : ScopesNamed image w)
    {new : List CorePath} (h : ∀ e ∈ new, ∃ obj, e.target = .object obj) :
    ScopesNamed image (w.adding new) := by
  intro body hb scope hs
  rcases (isNamed_adding w new _).1 hb with hb | ⟨e, he, het⟩
  · exact (isNamed_adding w new _).2 (.inl (hw body hb scope hs))
  · obtain ⟨obj, ho⟩ := h e he
    rw [ho] at het
    cases het

/-- **A visit is a run of offers**, though it makes them by functions of its own and asks for a path
before. -/
theorem visit_eq_offerAll {image : CoreImage} {w : Walk} (hw : ScopesNamed image w) (path : String)
    (obj : ObjectHandle) : visit image path obj w = w.offerAll (visitOffers image path obj) := by
  unfold visit visitOffers
  rw [takeProperties_eq_offerAll, offerAll_append]
  cases hv : w.offerAll ((edges image obj).map (edgeOffer path)) with
  | error err => rfl
  | ok v =>
    have hs : ScopesNamed image v := by
      obtain ⟨new, _, rfl⟩ := taken_of_offerAll (R := fun _ _ => True)
        (List.pairwise_of_forall fun _ _ => trivial) hv
      refine hw.addingObjects fun e he => ?_
      obtain ⟨k, _, rfl⟩ := List.mem_map.1 he
      exact ⟨k.2, rfl⟩
    cases image.functionBody obj with
    | none => rfl
    | some body =>
      rw [Option.toList_some, List.flatMap_singleton]
      exact takeBody_eq_offerAll hs path body

end Walk

end Retrace
