/-
# Building arenas

An arena is built by calls.  A call is given handles that are in the arena, and may give out new
ones:

| call | given | gives out | uses up |
| --- | --- | --- | --- |
| `allocObject` | | an object | the objects, if there are as many as have handles |
| `allocBody` | | a body | the bodies, if there are as many as have handles |
| `allocFunction` | | an object and a body | either |
| `defineProperty` | an object, and what the property leads to | | |
| `addNestedBody` | two bodies | | |
| `addScope` | a body | a scope | the scopes, if the counter is at its end |
| `addRoot` | an object | | |
| `forceParse` | a body | | |

A program without checks has a handle for each 32-bit number.  One with checks has none for the last
number, as the number of objects does not fit 32 bits then, of which the handle is one less
(`Overflow.room`).

A call that uses nothing up succeeds, and adds just what it gives out (`Builder.run_of_not_usesUp`);
one that does goes wrong, whichever way the program is built (`Builder.run_of_usesUp`).

The arena is the in-memory image of the specification (section 6), which leaves open how it is
built.
-/

import Retrace.Proofs.Arena.Valid

namespace Retrace

namespace Overflow

/-- How many objects can have a handle, and how many bodies: as many as there are 32-bit numbers, but
one less if the program checks its arithmetic. -/
def room : Overflow → Nat
  | checked => UInt32.size - 1
  | wrapping => UInt32.size

theorem room_le (o : Overflow) : o.room ≤ UInt32.size := by
  cases o
  · exact Nat.sub_le _ _
  · exact Nat.le_refl _

variable {o : Overflow} {n : Nat}

/-- As long as there is room, one more is numbered by how many there were. -/
theorem pred?_of_lt_room (h : n < o.room) : o.pred? (n + 1).toUInt32 = some n.toUInt32 := by
  have hsub : (n + 1).toUInt32 - 1 = n.toUInt32 := by
    have hadd : (n + 1).toUInt32 = n.toUInt32 + 1 := UInt32.ofNat_add n 1
    rw [hadd, UInt32.add_sub_cancel]
  have hpos : ¬(o = .checked ∧ (n + 1).toUInt32 = 0) := by
    rintro ⟨rfl, hzero⟩
    have hlt : n + 1 < UInt32.size := Nat.add_lt_of_lt_sub h
    have hone := UInt32.toNat_ofNat_of_lt' hlt
    rw [show UInt32.ofNat (n + 1) = 0 from hzero] at hone
    exact absurd hone (Nat.succ_ne_zero n).symm
  rw [pred?, if_neg hpos, hsub]

/-- When there is no room left, one more is numbered by a number that another one has, if by any. -/
theorem lt_of_pred?_eq_some (h : o.room ≤ n) {i : UInt32}
    (hi : o.pred? (n + 1).toUInt32 = some i) : i.toNat < n := by
  have hlt := i.toNat_lt
  cases o with
  | wrapping => exact Nat.lt_of_lt_of_le hlt h
  | checked =>
    rcases Nat.lt_or_eq_of_le h with h | rfl
    · exact Nat.lt_of_lt_of_le hlt h
    · -- Of the last number the handle would be one less than zero.
      cases hi

end Overflow

/-- What an object leads to: the objects of its properties, and its body. -/
def ArenaObject.handles (o : ArenaObject) : List CoreTarget :=
  (o.properties.flatMap fun p => p.value.targets.map .object) ++ o.body.toList.map .body

/-- What a body leads to: the bodies that it nests, parsed or not, and its scopes. -/
def ArenaBody.handles (b : ArenaBody) : List CoreTarget :=
  b.nested.map .body ++ b.scopes.map .scope

namespace Arena

/-- What anything in an arena leads to, be it an object, a body or a root. -/
def handles (a : Arena) : List CoreTarget :=
  a.objects.toList.flatMap ArenaObject.handles ++ a.bodies.toList.flatMap ArenaBody.handles ++
    a.roots.map fun r => .object r.object

theorem mem_handles_iff {a : Arena} {t : CoreTarget} :
    t ∈ a.handles ↔ (∃ o ∈ a.objects, t ∈ o.handles) ∨ (∃ b ∈ a.bodies, t ∈ b.handles) ∨
      ∃ r ∈ a.roots, .object r.object = t := by
  simp [handles]

/-- **An arena is well formed exactly if it has whatever anything in it leads to.** -/
theorem wellFormed_iff {a : Arena} : a.WellFormed ↔ ∀ t ∈ a.handles, a.Has t := by
  constructor
  · intro h t ht
    rcases mem_handles_iff.1 ht with ⟨o, ho, ht⟩ | ⟨b, hb, ht⟩ | ⟨r, hr, rfl⟩
    · rcases List.mem_append.1 ht with ht | ht
      · obtain ⟨p, hp, ht⟩ := List.mem_flatMap.1 ht
        obtain ⟨obj, hobj, rfl⟩ := List.mem_map.1 ht
        exact (h.objects o ho).targets p hp obj hobj
      · obtain ⟨body, hbody, rfl⟩ := List.mem_map.1 ht
        exact (h.objects o ho).body body (Option.mem_toList.1 hbody)
    · rcases List.mem_append.1 ht with ht | ht
      · obtain ⟨n, hn, rfl⟩ := List.mem_map.1 ht
        exact (h.bodies b hb).nested n hn
      · obtain ⟨s, hs, rfl⟩ := List.mem_map.1 ht
        exact (h.bodies b hb).scopes s hs
    · exact h.roots r hr
  · intro h
    refine ⟨fun o ho => ⟨fun p hp obj hobj => ?_, fun body hbody => ?_⟩,
      fun b hb => ⟨fun n hn => ?_, fun s hs => ?_⟩, fun r hr => ?_⟩
    · refine h _ (mem_handles_iff.2 (.inl ⟨o, ho, List.mem_append_left _ ?_⟩))
      exact List.mem_flatMap.2 ⟨p, hp, List.mem_map_of_mem hobj⟩
    · refine h _ (mem_handles_iff.2 (.inl ⟨o, ho, List.mem_append_right _ ?_⟩))
      exact List.mem_map_of_mem (Option.mem_toList.2 hbody)
    · refine h _ (mem_handles_iff.2 (.inr (.inl ⟨b, hb, List.mem_append_left _ ?_⟩)))
      exact List.mem_map_of_mem hn
    · refine h _ (mem_handles_iff.2 (.inr (.inl ⟨b, hb, List.mem_append_right _ ?_⟩)))
      exact List.mem_map_of_mem hs
    · exact h _ (mem_handles_iff.2 (.inr (.inr ⟨r, hr, rfl⟩)))

/-! ## Calls -/

/-- A call of a builder, or of the parser, which is made on an arena as builders are. -/
inductive Builder where
  /-- Adds an object. -/
  | allocObject
  /-- Adds a body. -/
  | allocBody (sourceName : Option String) (deferred : Bool)
  /-- Adds a body and an object that has it. -/
  | allocFunction
  /-- Defines a property of an object. -/
  | defineProperty (obj : ObjectHandle) (p : Property)
  /-- Nests a body in another. -/
  | addNestedBody (parent child : BodyHandle)
  /-- Gives a body a further scope. -/
  | addScope (body : BodyHandle)
  /-- Adds a named root. -/
  | addRoot (name : String) (object : ObjectHandle)
  /-- Parses a body fully. -/
  | forceParse (body : BodyHandle)

namespace Builder

/-- The handles that a call is given, which the builders look up, if at all, only for themselves. -/
def given : Builder → List CoreTarget
  | defineProperty obj p => .object obj :: p.value.targets.map .object
  | addNestedBody parent child => [.body parent, .body child]
  | addScope body => [.body body]
  | addRoot _ object => [.object object]
  | forceParse body => [.body body]
  | _ => []

/-- The handles that a call gives out, and the arena then; nothing if it fails or breaks off, after
which the arena is not to be used. -/
def run (o : Overflow) (a : Arena) : Builder → Option (List CoreTarget × Arena)
  | allocObject => (a.allocObject o).map fun (obj, a) => ([.object obj], a)
  | allocBody sourceName deferred =>
    (a.allocBody o sourceName deferred).map fun (body, a) => ([.body body], a)
  | allocFunction => (a.allocFunction o).map fun ((obj, body), a) => ([.object obj, .body body], a)
  | defineProperty obj p => (a.defineProperty obj p).map fun a => ([], a)
  | addNestedBody parent child => (a.addNestedBody parent child).map fun a => ([], a)
  | addScope body => (a.addScope o body).map fun (scope, a) => ([.scope scope], a)
  | addRoot name object => some ([], a.addRoot name object)
  | forceParse body =>
    match Arena.forceParse body a with
    | .ok _ a => some ([], a)
    | .error _ _ => none

/-- Whether a call gives out a handle although none is left, or the last scope that its counter can
number. -/
def UsesUp (o : Overflow) (a : Arena) : Builder → Prop
  | allocObject => o.room ≤ a.objects.size
  | allocBody _ _ => o.room ≤ a.bodies.size
  | allocFunction => o.room ≤ a.objects.size ∨ o.room ≤ a.bodies.size
  | addScope _ => a.scopeCount.toNat + 1 = UInt32.size
  | _ => False

instance (o : Overflow) (a : Arena) : (c : Builder) → Decidable (c.UsesUp o a)
  | allocObject => inferInstanceAs (Decidable (o.room ≤ a.objects.size))
  | allocBody _ _ => inferInstanceAs (Decidable (o.room ≤ a.bodies.size))
  | allocFunction =>
    inferInstanceAs (Decidable (o.room ≤ a.objects.size ∨ o.room ≤ a.bodies.size))
  | addScope _ => inferInstanceAs (Decidable (a.scopeCount.toNat + 1 = UInt32.size))
  | defineProperty _ _ | addNestedBody _ _ | addRoot _ _ | forceParse _ =>
    inferInstanceAs (Decidable False)

end Builder

/-! ## What a call adds -/

/-- What becomes of an arena by a call that uses nothing up. -/
structure Adds (a a' : Arena) (given fresh : List CoreTarget) : Prop where
  /-- What is given out is there from now on, and nothing else is added. -/
  has_iff : ∀ t, a'.Has t ↔ a.Has t ∨ t ∈ fresh
  /-- It was not there before. -/
  new : ∀ t ∈ fresh, ¬a.Has t
  /-- Nothing leads but where something did, or to what was given or is given out. -/
  handles : a'.handles ⊆ a.handles ++ (given ++ fresh)

variable {a a' : Arena} {more : List CoreTarget}

/-- **An arena remains well formed** by a call that is given handles of the arena. -/
theorem Adds.wellFormed {given fresh : List CoreTarget} (h : Adds a a' given fresh)
    (hw : a.WellFormed) (hgiven : ∀ t ∈ given, a.Has t) : a'.WellFormed := by
  refine wellFormed_iff.2 fun t ht => (h.has_iff t).2 ?_
  rcases List.mem_append.1 (h.handles ht) with ht | ht
  · exact .inl (wellFormed_iff.1 hw t ht)
  · exact (List.mem_append.1 ht).imp_left (hgiven t)

theorem handles_object (a : Arena) : ∀ o ∈ a.objects, o.handles ⊆ a.handles ++ more :=
  fun o ho _ ht => List.mem_append_left _ (mem_handles_iff.2 (.inl ⟨o, ho, ht⟩))

theorem handles_body (a : Arena) : ∀ b ∈ a.bodies, b.handles ⊆ a.handles ++ more :=
  fun b hb _ ht => List.mem_append_left _ (mem_handles_iff.2 (.inr (.inl ⟨b, hb, ht⟩)))

theorem handles_root (a : Arena) : ∀ r ∈ a.roots, .object r.object ∈ a.handles ++ more :=
  fun r hr => List.mem_append_left _ (mem_handles_iff.2 (.inr (.inr ⟨r, hr, rfl⟩)))

/-- Where an arena leads is settled by its objects, its bodies and its roots, each on their own. -/
theorem handles_subset (objects : ∀ o ∈ a'.objects, o.handles ⊆ a.handles ++ more)
    (bodies : ∀ b ∈ a'.bodies, b.handles ⊆ a.handles ++ more)
    (roots : ∀ r ∈ a'.roots, .object r.object ∈ a.handles ++ more) :
    a'.handles ⊆ a.handles ++ more := by
  intro t ht
  rcases mem_handles_iff.1 ht with ⟨o, ho, ht⟩ | ⟨b, hb, ht⟩ | ⟨r, hr, rfl⟩
  · exact objects o ho ht
  · exact bodies b hb ht
  · exact roots r hr

/-- Replacing a body adds no more than what the new one leads to. -/
theorem handles_setBody {b : ArenaBody} (hb : b.handles ⊆ a.handles ++ more)
    (body : BodyHandle) : (a.setBody body b).handles ⊆ a.handles ++ more := by
  refine handles_subset a.handles_object (fun c hc => ?_) a.handles_root
  rcases Array.mem_or_eq_of_mem_setIfInBounds hc with hc | rfl
  · exact a.handles_body c hc
  · exact hb

/-- What a body of the arena leads to, with some nested bodies and scopes more. -/
theorem handles_append {b b' : ArenaBody} (hb : b ∈ a.bodies)
    {nested : List BodyHandle} {scopes : List ScopeHandle} (hn : b'.nested = b.nested ++ nested)
    (hs : b'.scopes = b.scopes ++ scopes)
    (hmore : nested.map .body ++ scopes.map .scope ⊆ more) : b'.handles ⊆ a.handles ++ more := by
  intro t ht
  simp only [ArenaBody.handles, hn, hs, List.map_append, List.mem_append] at ht
  rcases ht with (ht | ht) | ht | ht
  · exact a.handles_body b hb (List.mem_append_left _ ht)
  · exact List.mem_append_right _ (hmore (List.mem_append_left _ ht))
  · exact a.handles_body b hb (List.mem_append_right _ ht)
  · exact List.mem_append_right _ (hmore (List.mem_append_right _ ht))

/-- A property after one has been defined is that one, or one of those before. -/
theorem mem_or_eq_of_mem_redefine {p q : Property} {ps : List Property} (h : q ∈ redefine p ps) :
    q ∈ ps ∨ q = p := by
  fun_induction redefine p ps with
  | case1 => exact .inr (List.mem_singleton.1 h)
  | case2 r rest =>
    rcases List.mem_cons.1 h with rfl | h
    · exact .inr rfl
    · exact .inl (List.mem_cons_of_mem r h)
  | case3 r rest _ ih =>
    rcases List.mem_cons.1 h with rfl | h
    · exact .inl List.mem_cons_self
    · exact (ih h).imp_left (List.mem_cons_of_mem r)

/-- What an object leads to after a property of it has been defined. -/
theorem handles_redefine {o : ArenaObject} (ho : o ∈ a.objects) {p : Property}
    (hmore : p.value.targets.map .object ⊆ more) :
    ArenaObject.handles { o with properties := redefine p o.properties } ⊆ a.handles ++ more := by
  intro t ht
  rcases List.mem_append.1 ht with ht | ht
  · obtain ⟨q, hq, htarget⟩ := List.mem_flatMap.1 ht
    rcases mem_or_eq_of_mem_redefine hq with hq | rfl
    · exact a.handles_object o ho (List.mem_append_left _ (List.mem_flatMap.2 ⟨q, hq, htarget⟩))
    · exact List.mem_append_right _ (hmore htarget)
  · exact a.handles_object o ho (List.mem_append_right _ ht)

/-- An item of a modified array is one of the array, or comes from one by the modification. -/
theorem mem_or_exists_of_mem_modify {α : Type} {xs : Array α} {i : Nat} {f : α → α} {x : α}
    (h : x ∈ xs.modify i f) : x ∈ xs ∨ ∃ y ∈ xs, f y = x := by
  obtain ⟨j, hj, rfl⟩ := Array.mem_iff_getElem.1 h
  have hj' : j < xs.size := by rwa [Array.size_modify] at hj
  rw [Array.getElem_modify]
  split
  · exact .inr ⟨xs[j], Array.getElem_mem hj', rfl⟩
  · exact .inl (Array.getElem_mem hj')

/-! ## New handles -/

theorem toNat_toUInt32 {n : Nat} (h : n < UInt32.size) : n.toUInt32.toNat = n :=
  UInt32.toNat_ofNat_of_lt' h

/-- The next handle is the only one that is new when there is one more. -/
theorem toNat_lt_succ_iff {n : Nat} (h : n < UInt32.size) (i : UInt32) :
    i.toNat < n + 1 ↔ i.toNat < n ∨ i = n.toUInt32 := by
  rw [Nat.lt_succ_iff_lt_or_eq, ← UInt32.toNat_inj, toNat_toUInt32 h]

/-! ## Calls that use nothing up -/

variable {o : Overflow}

theorem allocObject_of_lt (h : a.objects.size < o.room) : a.allocObject o =
    some (⟨a.objects.size.toUInt32⟩, { a with objects := a.objects.push {} }) := by
  simp only [allocObject, Array.size_push, Overflow.pred?_of_lt_room h, Option.map_some]

theorem allocBody_of_lt (h : a.bodies.size < o.room) (sourceName : Option String)
    (deferred : Bool) : a.allocBody o sourceName deferred =
      some (⟨a.bodies.size.toUInt32⟩, { a with bodies := a.bodies.push { sourceName, deferred } }) := by
  simp only [allocBody, Array.size_push, Overflow.pred?_of_lt_room h, Option.map_some]

theorem adds_allocObject (h : a.objects.size < o.room) :
    ∃ obj a', a.allocObject o = some (obj, a') ∧ Adds a a' [] [.object obj] := by
  have hlt := Nat.lt_of_lt_of_le h o.room_le
  refine ⟨_, _, allocObject_of_lt h, fun t => ?_, by simp [Has, toNat_toUInt32 hlt], ?_⟩
  · rcases t with ⟨⟨i⟩⟩ | _ | _ <;> simp [Has, toNat_lt_succ_iff hlt]
  · refine handles_subset (fun e he => ?_) a.handles_body a.handles_root
    rcases Array.mem_push.1 he with he | rfl
    · exact a.handles_object e he
    · exact List.nil_subset _

theorem adds_allocBody (h : a.bodies.size < o.room) (sourceName : Option String)
    (deferred : Bool) : ∃ body a', a.allocBody o sourceName deferred = some (body, a') ∧
      Adds a a' [] [.body body] := by
  have hlt := Nat.lt_of_lt_of_le h o.room_le
  refine ⟨_, _, allocBody_of_lt h sourceName deferred, fun t => ?_,
    by simp [Has, toNat_toUInt32 hlt], ?_⟩
  · rcases t with _ | ⟨⟨i⟩⟩ | _ <;> simp [Has, toNat_lt_succ_iff hlt]
  · refine handles_subset a.handles_object (fun b hb => ?_) a.handles_root
    rcases Array.mem_push.1 hb with hb | rfl
    · exact a.handles_body b hb
    · exact List.nil_subset _

theorem adds_allocFunction (ho : a.objects.size < o.room) (hb : a.bodies.size < o.room) :
    ∃ obj body a', a.allocFunction o = some ((obj, body), a') ∧
      Adds a a' [] [.object obj, .body body] := by
  have hobjects := Nat.lt_of_lt_of_le ho o.room_le
  have hbodies := Nat.lt_of_lt_of_le hb o.room_le
  have hobject := allocObject_of_lt
    (a := { a with bodies := a.bodies.push { sourceName := none, deferred := false } }) ho
  have hrun : a.allocFunction o = some ((⟨a.objects.size.toUInt32⟩, ⟨a.bodies.size.toUInt32⟩),
      { a with
        bodies := a.bodies.push { sourceName := none, deferred := false }
        objects := (a.objects.push {}).modify a.objects.size.toUInt32.toNat fun e =>
          { e with body := some ⟨a.bodies.size.toUInt32⟩ } }) := by
    simp only [allocFunction, allocBody_of_lt hb, Option.bind_eq_bind, Option.bind_some, hobject]
    rfl
  refine ⟨_, _, _, hrun, fun t => ?_, ?_, ?_⟩
  · rcases t with ⟨⟨i⟩⟩ | ⟨⟨i⟩⟩ | _ <;>
      simp [Has, toNat_lt_succ_iff hobjects, toNat_lt_succ_iff hbodies]
  · simp [Has, toNat_toUInt32 hobjects, toNat_toUInt32 hbodies]
  · have hpush : ∀ e ∈ a.objects.push {}, e.handles ⊆ a.handles ++
        ([] ++ [.object ⟨a.objects.size.toUInt32⟩, .body ⟨a.bodies.size.toUInt32⟩]) := by
      intro e he
      rcases Array.mem_push.1 he with he | rfl
      · exact a.handles_object e he
      · exact List.nil_subset _
    refine handles_subset (fun e he => ?_) (fun b hb => ?_) a.handles_root
    · have hmodified : e ∈ (a.objects.push {}).modify a.objects.size.toUInt32.toNat
          fun e => { e with body := some ⟨a.bodies.size.toUInt32⟩ } := he
      rcases mem_or_exists_of_mem_modify hmodified with he | ⟨c, hc, rfl⟩
      · exact hpush e he
      · intro t ht
        rcases List.mem_append.1 ht with ht | ht
        · exact hpush c hc (List.mem_append_left _ ht)
        · rw [List.mem_singleton.1 ht]
          simp
    · rcases Array.mem_push.1 hb with hb | rfl
      · exact a.handles_body b hb
      · exact List.nil_subset _

theorem exists_object {obj : ObjectHandle} (h : a.Has (.object obj)) :
    ∃ o ∈ a.objects, a.object? obj = some o :=
  ⟨_, Array.getElem_mem h, Array.getElem?_eq_getElem h⟩

theorem exists_body {body : BodyHandle} (h : a.Has (.body body)) :
    ∃ b ∈ a.bodies, a.body? body = some b :=
  ⟨_, Array.getElem_mem h, Array.getElem?_eq_getElem h⟩

theorem adds_defineProperty {obj : ObjectHandle} (h : a.Has (.object obj)) (p : Property) :
    ∃ a', a.defineProperty obj p = some a' ∧
      Adds a a' (.object obj :: p.value.targets.map .object) [] := by
  obtain ⟨o, hmem, ho⟩ := exists_object h
  refine ⟨_, by rw [defineProperty, ho]; rfl, fun t => ?_, nofun, ?_⟩
  · cases t <;> simp [Has]
  · refine handles_subset (fun c hc => ?_) a.handles_body a.handles_root
    rcases Array.mem_or_eq_of_mem_setIfInBounds hc with hc | rfl
    · exact a.handles_object c hc
    · exact handles_redefine hmem (by simp)

theorem adds_addNestedBody {parent : BodyHandle} (h : a.Has (.body parent)) (child : BodyHandle) :
    ∃ a', a.addNestedBody parent child = some a' ∧
      Adds a a' [.body parent, .body child] [] := by
  obtain ⟨b, hmem, hb⟩ := exists_body h
  refine ⟨_, by rw [addNestedBody, hb]; rfl, fun t => by simp, nofun, handles_setBody ?_ parent⟩
  exact handles_append hmem rfl (List.append_nil _).symm (by simp)

/-- What comes of a further scope, if the counter can be counted up: it has the number that the
counter showed. -/
theorem addScope_eq {body : BodyHandle} {b : ArenaBody} {scopeCount : UInt32}
    (hcount : o.succ? a.scopeCount = some scopeCount) (hb : a.body? body = some b) :
    a.addScope o body = some (⟨a.scopeCount⟩,
      { a.setBody body { b with scopes := b.scopes ++ [⟨a.scopeCount⟩] } with scopeCount }) := by
  simp only [addScope, hcount, hb, Option.bind_eq_bind, Option.bind_some]
  rfl

theorem adds_addScope {body : BodyHandle} (h : a.Has (.body body))
    (hlast : a.scopeCount.toNat + 1 < UInt32.size) :
    ∃ a', a.addScope o body = some (⟨a.scopeCount⟩, a') ∧
      Adds a a' [.body body] [.scope ⟨a.scopeCount⟩] := by
  obtain ⟨b, hmem, hb⟩ := exists_body h
  have hcount : (a.scopeCount + 1).toNat = a.scopeCount.toNat + 1 := by
    rw [UInt32.toNat_add, UInt32.toNat_one, Nat.mod_eq_of_lt hlast]
  have hsucc : o.succ? a.scopeCount = some (a.scopeCount + 1) := by
    refine if_neg fun hfull => ?_
    rw [hfull.2] at hlast
    exact absurd hlast (by decide)
  have hset : (a.setBody body { b with scopes := b.scopes ++ [⟨a.scopeCount⟩] }).handles ⊆
      a.handles ++ ([.body body] ++ [.scope ⟨a.scopeCount⟩]) := by
    refine handles_setBody ?_ body
    exact handles_append hmem (List.append_nil _).symm rfl (by simp)
  refine ⟨_, addScope_eq hsucc hb, fun t => ?_, by simp [Has], ?_⟩
  · rcases t with _ | _ | ⟨⟨i⟩⟩
    · simp [Has, setBody]
    · simp [Has, setBody]
    · have hnext : i < a.scopeCount + 1 ↔ i < a.scopeCount ∨ i = a.scopeCount := by
        rw [UInt32.lt_iff_toNat_lt, UInt32.lt_iff_toNat_lt, hcount, Nat.lt_succ_iff_lt_or_eq,
          UInt32.toNat_inj]
      simpa [Has, setBody] using hnext
  · -- Where an arena leads does not depend on its counter.
    simpa only [handles] using hset

theorem adds_addRoot (name : String) (object : ObjectHandle) :
    Adds a (a.addRoot name object) [.object object] [] := by
  refine ⟨fun t => ?_, nofun, handles_subset a.handles_object a.handles_body fun r hr => ?_⟩
  · cases t <;> simp [Has, addRoot]
  · rcases List.mem_append.1 hr with hr | hr
    · exact a.handles_root r hr
    · cases List.mem_singleton.1 hr
      simp

theorem adds_forceParse (body : BodyHandle) (a : Arena) :
    Adds a ((forceParse body).after a) [.body body] [] := by
  refine ⟨fun t => by simp [has_forceParse], nofun, ?_⟩
  rcases after_forceParse_cases body a with he | ⟨b, hb, he⟩
  · rw [he]
    exact List.subset_append_left _ _
  · have hset : (a.setBody body { b with deferred := false }).handles ⊆
        a.handles ++ ([.body body] ++ []) := by
      refine handles_setBody ?_ body
      exact a.handles_body b hb
    rw [he]
    exact hset

/-- After the last number of a scope the counter begins again, if the call does not break off, and no
scope is left in the arena. -/
theorem not_wellFormed_of_addScope {body : BodyHandle} {scope : ScopeHandle}
    (hlast : a.scopeCount.toNat + 1 = UInt32.size) (h : a.addScope o body = some (scope, a')) :
    ¬a'.WellFormed := by
  have hzero : a.scopeCount + 1 = 0 := by
    rw [← UInt32.toNat_inj, UInt32.toNat_add, UInt32.toNat_one, hlast]
    rfl
  obtain ⟨scopeCount, hcount, hbody⟩ := Option.bind_eq_some_iff.1 h
  obtain ⟨b, hb, _⟩ := Option.bind_eq_some_iff.1 hbody
  have hwrapped : scopeCount = 0 := by
    unfold Overflow.succ? at hcount
    split at hcount
    · cases hcount
    · rw [← Option.some.inj hcount, hzero]
  rw [addScope_eq hcount hb, hwrapped] at h
  have hafter := congrArg Prod.snd (Option.some.inj h)
  dsimp only at hafter
  subst hafter
  intro hw
  have hsize : body.index.toNat < a.bodies.size := (Array.getElem?_eq_some_iff.1 hb).1
  have hnot := (hw.bodies _ (Array.mem_setIfInBounds hsize)).scopes ⟨a.scopeCount⟩ (by simp)
  simp [Has] at hnot

/-- A body of the arena can be parsed. -/
theorem forceParse_eq_ok {body : BodyHandle} (h : a.Has (.body body)) :
    forceParse body a = .ok () ((forceParse body).after a) := by
  obtain ⟨b, _, hb⟩ := exists_body h
  unfold Action.after forceParse
  rw [hb]
  dsimp only
  split <;> rfl

/-! ## One call -/

namespace Builder

/-- **A call that uses nothing up succeeds**, and adds what it gives out. -/
theorem run_of_not_usesUp {c : Builder} (hgiven : ∀ t ∈ c.given, a.Has t) (hc : ¬c.UsesUp o a) :
    ∃ fresh a', c.run o a = some (fresh, a') ∧ Adds a a' c.given fresh := by
  cases c with
  | allocObject =>
    obtain ⟨obj, a', he, hadds⟩ := adds_allocObject (Nat.not_le.1 hc)
    exact ⟨_, a', by rw [run, he]; rfl, hadds⟩
  | allocBody sourceName deferred =>
    obtain ⟨body, a', he, hadds⟩ := adds_allocBody (Nat.not_le.1 hc) sourceName deferred
    exact ⟨_, a', by rw [run, he]; rfl, hadds⟩
  | allocFunction =>
    obtain ⟨ho, hb⟩ := not_or.1 hc
    obtain ⟨obj, body, a', he, hadds⟩ := adds_allocFunction (Nat.not_le.1 ho) (Nat.not_le.1 hb)
    exact ⟨_, a', by rw [run, he]; rfl, hadds⟩
  | defineProperty obj p =>
    obtain ⟨a', he, hadds⟩ := adds_defineProperty (hgiven _ List.mem_cons_self) p
    exact ⟨_, a', by rw [run, he]; rfl, hadds⟩
  | addNestedBody parent child =>
    obtain ⟨a', he, hadds⟩ := adds_addNestedBody (hgiven _ List.mem_cons_self) child
    exact ⟨_, a', by rw [run, he]; rfl, hadds⟩
  | addScope body =>
    have hlast : a.scopeCount.toNat + 1 < UInt32.size :=
      Nat.lt_of_le_of_ne a.scopeCount.toNat_lt hc
    obtain ⟨a', he, hadds⟩ := adds_addScope (o := o) (hgiven _ List.mem_cons_self) hlast
    exact ⟨_, a', by rw [run, he]; rfl, hadds⟩
  | addRoot name object => exact ⟨_, _, rfl, adds_addRoot name object⟩
  | forceParse body =>
    have hok := forceParse_eq_ok (hgiven _ List.mem_cons_self)
    exact ⟨_, _, by rw [run, hok], adds_forceParse body a⟩

/-- An object that is added when no handle is left gets one that another object has. -/
theorem has_of_allocObject (h : o.room ≤ a.objects.size) {obj : ObjectHandle}
    (he : a.allocObject o = some (obj, a')) : a.Has (.object obj) := by
  obtain ⟨i, hi, hpair⟩ := Option.map_eq_some_iff.1 he
  rw [Array.size_push] at hi
  cases hpair
  exact Overflow.lt_of_pred?_eq_some h hi

/-- So does a body. -/
theorem has_of_allocBody (h : o.room ≤ a.bodies.size) {sourceName : Option String}
    {deferred : Bool} {body : BodyHandle}
    (he : a.allocBody o sourceName deferred = some (body, a')) : a.Has (.body body) := by
  obtain ⟨i, hi, hpair⟩ := Option.map_eq_some_iff.1 he
  rw [Array.size_push] at hi
  cases hpair
  exact Overflow.lt_of_pred?_eq_some h hi

/-- **A call that uses handles up goes wrong**: if it does not break off, it gives out a handle of the
arena, or leaves an arena that is not well formed. -/
theorem run_of_usesUp {c : Builder} (hc : c.UsesUp o a) {fresh : List CoreTarget}
    (h : c.run o a = some (fresh, a')) : (∃ t ∈ fresh, a.Has t) ∨ ¬a'.WellFormed := by
  cases c with
  | allocObject =>
    obtain ⟨⟨obj, a''⟩, he, h⟩ := Option.map_eq_some_iff.1 h
    cases h
    exact .inl ⟨_, List.mem_cons_self, has_of_allocObject hc he⟩
  | allocBody sourceName deferred =>
    obtain ⟨⟨body, a''⟩, he, h⟩ := Option.map_eq_some_iff.1 h
    cases h
    exact .inl ⟨_, List.mem_cons_self, has_of_allocBody hc he⟩
  | allocFunction =>
    obtain ⟨⟨⟨obj, body⟩, a''⟩, he, h⟩ := Option.map_eq_some_iff.1 h
    cases h
    obtain ⟨⟨body', a₁⟩, hbody, he⟩ := Option.bind_eq_some_iff.1 he
    obtain ⟨⟨obj', a₂⟩, hobj, he⟩ := Option.bind_eq_some_iff.1 he
    cases he
    rcases hc with hc | hc
    · -- The objects are those of the arena in which the body has been added.
      obtain ⟨i, _, hpair⟩ := Option.map_eq_some_iff.1 hbody
      cases hpair
      have hhas := has_of_allocObject (a := { a with bodies := a.bodies.push {} }) hc hobj
      exact .inl ⟨_, List.mem_cons_self, hhas⟩
    · exact .inl ⟨_, List.mem_cons_of_mem _ List.mem_cons_self, has_of_allocBody hc hbody⟩
  | addScope body =>
    obtain ⟨⟨scope, a''⟩, he, h⟩ := Option.map_eq_some_iff.1 h
    cases h
    exact .inr (not_wellFormed_of_addScope hc he)
  | _ => exact hc.elim

end Builder

end Arena

end Retrace
