/-
# Plain names

A path is text: the name of a root, and then parts, each with a mark before it.

| part | text |
| --- | --- |
| property | `.name` |
| getter, setter | `!get`, `!set` |
| body | `!body` |
| scope | `!scope[slot]` |

Where names may hold the marks `.` and `!`, two ways can have the same text, and a walk fails.  Names
without marks are plain; they may be empty.  With plain names the text tells the parts
(`pathText_inj`), since what follows the last mark is the last part, and the parts tell the target, for
they can be followed from the root (`CoreImage.follow`).  So no two targets compute the same path,
and the walk succeeds (`build_of_plain`).

The tokens are those of the path resolver (specification, section 4.3), and none of them is escaped
in a name.
-/

import Mathlib.Data.List.Induction
import Mathlib.Data.List.TakeWhile
import Retrace.Proofs.CorePaths.Ends

namespace Retrace

/-! ## The text of a path -/

/-- Whether a character stands before a part of a path: a dot, or an exclamation mark. -/
def isMark (c : Char) : Bool := c == '.' || c == '!'

/-- A name that holds no marks, so that no part of a path begins in it.  It may be empty. -/
def Plain (name : String) : Prop := ∀ c ∈ name.toList, isMark c = false

instance (name : String) : Decidable (Plain name) := List.decidableBAll _ _

/-- A part of a path after the name of its root: what stands there for a step, a body or a scope. -/
inductive PathPart where
  /-- An own property. -/
  | property (name : String)
  /-- The getter of the property. -/
  | getter
  /-- The setter of the property. -/
  | setter
  /-- The body of a callable. -/
  | body
  /-- The scope in a slot of a body. -/
  | scope (slot : Nat)
deriving DecidableEq

namespace PathPart

/-- The mark of a part: a dot before the name of a property, else an exclamation mark. -/
def mark : PathPart → Char
  | property _ => '.'
  | _ => '!'

/-- What follows the mark of a part. -/
def word : PathPart → String
  | property name => name
  | getter => "get"
  | setter => "set"
  | body => "body"
  | scope slot => "scope[" ++ toString slot ++ "]"

/-- A part that is plain after its mark: only the name of a property may fail to be. -/
def IsPlain (p : PathPart) : Prop := Plain p.word

theorem isMark_mark (p : PathPart) : isMark p.mark = true := by
  cases p <;> rfl

/-- The part with a mark and a word, where the two are those of a part. -/
def read (mark : Char) (word : String) : PathPart :=
  if mark = '.' then property word
  else if word = "get" then getter
  else if word = "set" then setter
  else if word = "body" then body
  else scope (Nat.ofDigitChars 10 (word.toList.drop 6).dropLast 0)

theorem toList_word_scope (slot : Nat) :
    (scope slot).word.toList = "scope[".toList ++ Nat.toDigits 10 slot ++ [']'] := by
  rw [word, String.toList_append, String.toList_append, Nat.toString_eq_repr, Nat.toList_repr]
  rfl

theorem isPlain_scope (slot : Nat) : (scope slot).IsPlain := by
  intro c hc
  rw [toList_word_scope, List.mem_append, List.mem_append] at hc
  have hopen : Plain "scope[" := by decide
  have hclose : Plain "]" := by decide
  rcases hc with (hc | hc) | hc
  · exact hopen c hc
  · have hdigit := Nat.isDigit_of_mem_toDigits (by decide) (by decide) hc
    refine Bool.eq_false_iff.2 fun hm => ?_
    rcases Bool.or_eq_true_iff.1 hm with hm | hm <;>
      · rw [eq_of_beq hm] at hdigit
        exact absurd hdigit (by decide)
  · exact hclose c hc

theorem word_scope_ne (slot : Nat) {word : String} (h : word.toList.take 2 ≠ ['s', 'c']) :
    (scope slot).word ≠ word := by
  rintro rfl
  rw [toList_word_scope] at h
  exact h rfl

/-- **A part can be read off its mark and its word.** -/
theorem read_mark_word (p : PathPart) : read p.mark p.word = p := by
  cases p with
  | property name => exact if_pos rfl
  | getter | setter | body => decide
  | scope slot =>
    have hmark : mark (scope slot) ≠ '.' := show '!' ≠ '.' by decide
    rw [read, if_neg hmark, if_neg (word_scope_ne slot (by decide)),
      if_neg (word_scope_ne slot (by decide)), if_neg (word_scope_ne slot (by decide)),
      toList_word_scope, List.append_assoc]
    have hdigits : ("scope[".toList ++ (Nat.toDigits 10 slot ++ [']'])).drop 6 =
        Nat.toDigits 10 slot ++ [']'] := rfl
    rw [hdigits, List.dropLast_concat, Nat.ofDigitChars_ten_toDigits]

/-- The text of a part. -/
def token (p : PathPart) : String := String.singleton p.mark ++ p.word

theorem token_property (name : String) : (property name).token = "." ++ name :=
  congrArg (· ++ name) (by decide : String.singleton '.' = ".")

theorem token_getter : getter.token = getterTag := by decide

theorem token_setter : setter.token = setterTag := by decide

theorem append_token_scope (body : String) (slot : Nat) :
    body ++ (scope slot).token = scopePath body slot := by
  have htag : String.singleton '!' ++ "scope[" = "!scope[" := by decide
  show body ++ (String.singleton '!' ++ ("scope[" ++ toString slot ++ "]")) =
    body ++ "!scope[" ++ toString slot ++ "]"
  rw [← htag]
  simp only [String.append_assoc]

end PathPart

/-- What follows the last mark of a text, and what stands up to it, both read backwards. -/
def lastPart (text : String) : List Char × List Char :=
  (text.toList.reverse.takeWhile fun c => !isMark c,
    text.toList.reverse.dropWhile fun c => !isMark c)

theorem lastPart_of_plain {name : String} (h : Plain name) :
    lastPart name = (name.toList.reverse, []) := by
  rw [lastPart, Prod.mk.injEq]
  have hall : ∀ c ∈ name.toList.reverse, (!isMark c) = true := fun c hc => by
    rw [h c (List.mem_reverse.1 hc)]
    rfl
  exact ⟨List.takeWhile_eq_self_iff.2 hall, List.dropWhile_eq_nil_iff.2 hall⟩

theorem lastPart_append_token (front : String) {p : PathPart} (hp : p.IsPlain) :
    lastPart (front ++ p.token) = (p.word.toList.reverse, p.mark :: front.toList.reverse) := by
  have hall : ∀ c ∈ p.word.toList.reverse, (!isMark c) = true := fun c hc => by
    rw [hp c (List.mem_reverse.1 hc)]
    rfl
  have hmark : (!isMark p.mark) = false := by
    rw [p.isMark_mark]
    rfl
  have htext : (front ++ p.token).toList.reverse =
      p.word.toList.reverse ++ p.mark :: front.toList.reverse := by
    simp [PathPart.token]
  rw [lastPart, htext, List.takeWhile_append_of_pos hall, List.dropWhile_append_of_pos hall,
    List.takeWhile_cons_of_neg (by simp [hmark]), List.dropWhile_cons_of_neg (by simp [hmark]),
    List.append_nil]

theorem toList_reverse_inj {a b : String} (h : a.toList.reverse = b.toList.reverse) : a = b :=
  String.toList_inj.1 (List.reverse_inj.1 h)

/-- The last part can be read off a text, and so can the text before it. -/
theorem append_token_inj {front front' : String} {p q : PathPart} (hp : p.IsPlain) (hq : q.IsPlain)
    (h : front ++ p.token = front' ++ q.token) : front = front' ∧ p = q := by
  have hl := congrArg lastPart h
  rw [lastPart_append_token _ hp, lastPart_append_token _ hq, Prod.mk.injEq, List.cons.injEq] at hl
  obtain ⟨hword, hmark, hfront⟩ := hl
  refine ⟨toList_reverse_inj hfront, ?_⟩
  rw [← p.read_mark_word, hmark, toList_reverse_inj hword, q.read_mark_word]

/-- A plain name has no last part. -/
theorem append_token_ne {front name : String} {p : PathPart} (hp : p.IsPlain) (hn : Plain name) :
    front ++ p.token ≠ name := by
  intro h
  have hl := congrArg lastPart h
  rw [lastPart_append_token _ hp, lastPart_of_plain hn, Prod.mk.injEq] at hl
  cases hl.2

/-- The text of a root and the parts after it, put together without anything between them. -/
def pathText (root : String) (parts : List PathPart) : String :=
  parts.foldl (fun text p => text ++ p.token) root

theorem pathText_append (root : String) (parts more : List PathPart) :
    pathText root (parts ++ more) = pathText (pathText root parts) more :=
  List.foldl_append

/-- **The text of a path tells its root and its parts**, if all names are plain. -/
theorem pathText_inj {root root' : String} {parts parts' : List PathPart} (hr : Plain root)
    (hr' : Plain root') (hp : ∀ p ∈ parts, p.IsPlain) (hp' : ∀ p ∈ parts', p.IsPlain)
    (h : pathText root parts = pathText root' parts') : root = root' ∧ parts = parts' := by
  induction parts using List.reverseRecOn generalizing parts' with
  | nil =>
    cases parts' using List.reverseRecOn with
    | nil => exact ⟨h, rfl⟩
    | append_singleton front' q =>
      rw [pathText_append] at h
      exact absurd h.symm (append_token_ne (hp' q (List.mem_append_right _ List.mem_cons_self)) hr)
  | append_singleton front p ih =>
    have hplain := hp p (List.mem_append_right _ List.mem_cons_self)
    rw [pathText_append] at h
    cases parts' using List.reverseRecOn with
    | nil => exact absurd h (append_token_ne hplain hr')
    | append_singleton front' q =>
      rw [pathText_append] at h
      have hplain' := hp' q (List.mem_append_right _ List.mem_cons_self)
      obtain ⟨hfront, rfl⟩ := append_token_inj hplain hplain' h
      obtain ⟨hroot, rfl⟩ := ih (fun x hx => hp x (List.mem_append_left _ hx))
        (fun x hx => hp' x (List.mem_append_left _ hx)) hfront
      exact ⟨hroot, rfl⟩

/-! ## Where a path leads -/

/-- Where the parts of a path lead: to a target, or to a property with a getter and a setter, from
which only one of these leads on. -/
inductive Place where
  /-- A target. -/
  | target (t : CoreTarget)
  /-- A property with a getter and a setter, of which either may be missing. -/
  | accessor (getter setter : Option ObjectHandle)
deriving DecidableEq

/-- The place of an object, if there is one. -/
def Place.ofObject? (obj : Option ObjectHandle) : Option Place := obj.map fun o => .target (.object o)

/-- The place of a property. -/
def Place.ofProperty (p : Property) : Option Place :=
  match p.value with
  | .data value => ofObject? value
  | .accessor getter setter => some (.accessor getter setter)

namespace CoreImage

/-- Where a part of a path leads from a place; nothing if it does not fit there, as a scope does not
after an object. -/
def follow (image : CoreImage) : Place → PathPart → Option Place
  | .target (.object obj), .property name =>
    ((image.ownProperties obj).find? fun p => p.name = name).bind Place.ofProperty
  | .target (.object obj), .body => (image.functionBody obj).map fun b => .target (.body b)
  | .target (.body body), .scope slot =>
    (image.debuggerScopes body)[slot]?.map fun s => .target (.scope s)
  | .accessor getter _, .getter => Place.ofObject? getter
  | .accessor _ setter, .setter => Place.ofObject? setter
  | _, _ => none

/-- Where a root and the parts after it lead; nothing if there is no such root, or a part does not
lead on. -/
def resolve (image : CoreImage) (roots : List NamedRoot) (root : String) (parts : List PathPart) :
    Option Place :=
  (roots.find? fun r => r.name = root).bind fun r =>
    parts.foldlM image.follow (.target (.object r.object))

theorem resolve_append (image : CoreImage) (roots : List NamedRoot) (root : String)
    (parts more : List PathPart) : image.resolve roots root (parts ++ more) =
      (image.resolve roots root parts).bind fun place => more.foldlM image.follow place := by
  unfold resolve
  cases roots.find? fun r => r.name = root with
  | none => rfl
  | some r => exact List.foldlM_append

/-- An image that is named plainly as far as it can be reached from the roots. -/
structure PlainlyNamed (image : CoreImage) (roots : List NamedRoot) : Prop where
  /-- The names of the roots are plain. -/
  rootNames : ∀ r ∈ roots, Plain r.name
  /-- Two roots of one name are one object. -/
  shared : ∀ r ∈ roots, ∀ q ∈ roots, r.name = q.name → r.object = q.object
  /-- The names of properties are plain. -/
  names : ∀ obj, image.Reaches roots (.object obj) → ∀ p ∈ image.ownProperties obj, Plain p.name
  /-- No two own properties of an object have the same name. -/
  distinct : ∀ obj, image.Reaches roots (.object obj) →
    ((image.ownProperties obj).map (·.name)).Nodup

variable {image : CoreImage} {roots : List NamedRoot} {path : String} {t : CoreTarget}

/-- The parts of a path that a step adds: the name of the property, and for a getter or setter its
mark besides. -/
def stepParts (s : Step) : List PathPart :=
  match s.access with
  | .value => [.property s.name]
  | .getter => [.property s.name, .getter]
  | .setter => [.property s.name, .setter]

theorem pathText_stepParts (s : Step) (path : String) :
    pathText path (stepParts s) = s.path path := by
  obtain ⟨name, access⟩ := s
  have hproperty : path ++ (PathPart.property name).token = path ++ "." ++ name := by
    rw [PathPart.token_property, String.append_assoc]
  cases access with
  | value => exact hproperty.trans String.append_empty.symm
  | getter => exact congrArg₂ (· ++ ·) hproperty PathPart.token_getter
  | setter => exact congrArg₂ (· ++ ·) hproperty PathPart.token_setter

theorem isPlain_stepParts {s : Step} (h : Plain s.name) : ∀ p ∈ stepParts s, p.IsPlain := by
  obtain ⟨name, access⟩ := s
  have hget : Plain "get" := by decide
  have hset : Plain "set" := by decide
  cases access with
  | value => exact List.forall_mem_singleton.2 h
  | getter => exact List.forall_mem_cons.2 ⟨h, List.forall_mem_singleton.2 hget⟩
  | setter => exact List.forall_mem_cons.2 ⟨h, List.forall_mem_singleton.2 hset⟩

/-- The parts of a step lead where the step leads, if no other property of the object has the
name. -/
theorem follow_stepParts {obj target : ObjectHandle} {s : Step}
    (hd : ((image.ownProperties obj).map (·.name)).Nodup) (h : image.Leads obj s target) :
    (stepParts s).foldlM image.follow (.target (.object obj)) =
      some (.target (.object target)) := by
  obtain ⟨⟨name, value⟩, hp, hname, hreached⟩ := h
  have hfind : (image.ownProperties obj).find? (fun q => q.name = s.name) = some ⟨name, value⟩ := by
    rw [← hname]
    exact find?_eq_some_of_nodup hd hp
  have hfollow (rest : List PathPart) :
      (PathPart.property s.name :: rest).foldlM image.follow (.target (.object obj)) =
        (Place.ofProperty ⟨name, value⟩).bind fun place => rest.foldlM image.follow place := by
    rw [List.foldlM_cons, follow, hfind, Option.bind_some]
    rfl
  obtain ⟨name', access⟩ := s
  cases access with
  | value =>
    cases value with
    | data value =>
      obtain rfl : value = some target := hreached
      exact hfollow []
    | accessor => cases hreached
  | getter =>
    cases value with
    | data => cases hreached
    | accessor getter setter =>
      obtain rfl : getter = some target := hreached
      exact hfollow [.getter]
  | setter =>
    cases value with
    | data => cases hreached
    | accessor getter setter =>
      obtain rfl : setter = some target := hreached
      exact hfollow [.setter]

/-- A path that is the text of plain parts which lead to a target, one after another. -/
def LeadsByParts (image : CoreImage) (roots : List NamedRoot) (path : String) (t : CoreTarget) :
    Prop :=
  ∃ root parts, Plain root ∧ (∀ p ∈ parts, p.IsPlain) ∧ pathText root parts = path ∧
    image.resolve roots root parts = some (.target t)

/-- From a target a path goes on by the parts that lead on from there. -/
theorem LeadsByParts.extend {u : CoreTarget} (h : image.LeadsByParts roots path t)
    {more : List PathPart} (hmore : ∀ p ∈ more, p.IsPlain)
    (hlead : more.foldlM image.follow (.target t) = some (.target u)) :
    image.LeadsByParts roots (pathText path more) u := by
  obtain ⟨root, parts, hr, hparts, rfl, hresolve⟩ := h
  refine ⟨root, parts ++ more, hr, fun p hmem => ?_, pathText_append root parts more, ?_⟩
  · exact (List.mem_append.1 hmem).elim (hparts p) (hmore p)
  · rw [resolve_append, hresolve]
    exact hlead

/-- **A path computed for a target leads there**, part by part, if all names on the way are
plain. -/
theorem Computes.leadsByParts (hp : image.PlainlyNamed roots) (h : image.Computes roots path t) :
    image.LeadsByParts roots path t := by
  induction h with
  | @root r hr =>
    refine ⟨r.name, [], hp.rootNames r hr, fun p hp => absurd hp List.not_mem_nil, rfl, ?_⟩
    cases hf : roots.find? fun q => q.name = r.name with
    | none => exact absurd (decide_eq_true (rfl : r.name = r.name)) (List.find?_eq_none.1 hf r hr)
    | some q =>
      have hname : q.name = r.name := by simpa using List.find?_some hf
      rw [resolve, hf, Option.bind_some,
        hp.shared q (List.mem_of_find?_eq_some hf) r hr hname]
      rfl
  | @step path obj target s ho hl ih =>
    have hname : Plain s.name := by
      obtain ⟨p, hmem, hname, _⟩ := hl
      rw [← hname]
      exact hp.names obj ho.reaches p hmem
    rw [← pathText_stepParts]
    exact ih.extend (isPlain_stepParts hname) (follow_stepParts (hp.distinct obj ho.reaches) hl)
  | @body path obj body _ hb ih =>
    have hplain : PathPart.body.IsPlain := (by decide : Plain "body")
    have htoken : PathPart.body.token = "!body" := by decide
    rw [bodyPath, ← htoken]
    refine ih.extend (List.forall_mem_singleton.2 hplain) ?_
    rw [List.foldlM_cons, follow, hb]
    rfl
  | @scope path body slot scope _ hs ih =>
    rw [← PathPart.append_token_scope]
    refine ih.extend (List.forall_mem_singleton.2 (PathPart.isPlain_scope slot)) ?_
    rw [List.foldlM_cons, follow, hs]
    rfl

/-- **No two targets compute one path**, if all names are plain: the path tells its parts, and these
lead to one target only. -/
theorem Computes.target_eq (hp : image.PlainlyNamed roots) {s : CoreTarget}
    (hs : image.Computes roots path s) (ht : image.Computes roots path t) : s = t := by
  obtain ⟨root, parts, hr, hparts, rfl, hresolve⟩ := hs.leadsByParts hp
  obtain ⟨root', parts', hr', hparts', htext, hresolve'⟩ := ht.leadsByParts hp
  obtain ⟨rfl, rfl⟩ := pathText_inj hr' hr hparts' hparts htext
  cases hresolve.symm.trans hresolve'
  rfl

end CoreImage

/-! ## The walk -/

namespace Walk

/-- **A walk over a plainly named image goes on to its end**, as no two targets compute one path. -/
theorem exists_ofRoots {image : CoreImage} {roots : List NamedRoot}
    (hp : image.PlainlyNamed roots) :
    ∃ w, ofRoots image roots = .ok w ∧ Computed image roots w := by
  rcases computed_or_clash image roots with
    hwalk | ⟨err, _, path, holder, wanted, _, hne, hholder, hwanted⟩
  · exact hwalk
  · exact absurd (hholder.target_eq hp hwanted) hne

end Walk

namespace CorePaths

/-- **Plain names make paths unambiguous.**  Let names of roots and properties hold no marks, as far
as the image can be reached, let no object have two own properties of one name, and let two roots of
one name be one object, however objects, bodies and scopes are shared and whatever leads back.  Then
the walk succeeds, every path is one that can be computed for its target, and no two targets have a
path in common that can be computed for both. -/
theorem build_of_plain {image : CoreImage} {roots : List NamedRoot}
    (hp : image.PlainlyNamed roots) :
    (∃ p, build image roots = .ok p ∧
      ∀ t path, p.pathOf? t = some path → image.Computes roots path t) ∧
      ∀ s t path, image.Computes roots path s → image.Computes roots path t → s = t := by
  obtain ⟨w, hw, hcomputed⟩ := Walk.exists_ofRoots hp
  refine ⟨⟨_, build_eq_ok_iff.2 ⟨w, hw, rfl⟩, fun t path ht => ?_⟩,
    fun s t path hs ht => hs.target_eq hp ht⟩
  exact hcomputed _ (mem_named_of_pathOf? ht)

/-- An image with empty names, whose parts are shared and lead back. -/
def emptyNamesImage : CoreImage where
  ownProperties obj :=
    if obj = ⟨1⟩ then [⟨"get", .data (some ⟨2⟩)⟩, ⟨"", .accessor (some ⟨2⟩) (some ⟨3⟩)⟩,
      ⟨"body", .data none⟩]
    else if obj = ⟨2⟩ then [⟨"", .data (some ⟨1⟩)⟩]
    else []
  functionBody obj := if obj = ⟨1⟩ then none else some ⟨7⟩
  debuggerScopes body := if body = ⟨7⟩ then [⟨8⟩, ⟨9⟩, ⟨8⟩] else []

/-- Two roots of one name, and another name of the same object. -/
def emptyNamesRoots : List NamedRoot := [⟨"", ⟨1⟩⟩, ⟨"g", ⟨1⟩⟩, ⟨"", ⟨1⟩⟩]

theorem plainlyNamed_emptyNamesImage : emptyNamesImage.PlainlyNamed emptyNamesRoots where
  rootNames := by decide
  shared := by decide
  names obj _ := by
    unfold emptyNamesImage
    dsimp only
    split_ifs <;> decide
  distinct obj _ := by
    unfold emptyNamesImage
    dsimp only
    split_ifs <;> decide

/-- A walk over an image with empty names, in which a getter is shared with a value, a body with two
callables and a scope with two slots, and which leads back to its root. -/
theorem build_emptyNamesImage :
    emptyNamesImage.PlainlyNamed emptyNamesRoots ∧
      (∃ p, build emptyNamesImage emptyNamesRoots = .ok p ∧
        ∀ t path, p.pathOf? t = some path → emptyNamesImage.Computes emptyNamesRoots path t) ∧
      ∀ s t path, emptyNamesImage.Computes emptyNamesRoots path s →
        emptyNamesImage.Computes emptyNamesRoots path t → s = t :=
  ⟨plainlyNamed_emptyNamesImage, build_of_plain plainlyNamed_emptyNamesImage⟩

end CorePaths

end Retrace
