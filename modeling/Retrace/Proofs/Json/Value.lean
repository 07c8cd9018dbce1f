/-
# The text of a value is read back

| step | undone for |
| --- | --- |
| a value becomes its tokens | every value |
| tokens become a text, on one line or on many | tokens that are `Legible` |

The tokens of a value never have one number directly after another: a comma, a colon or the end of
an array or object stands between them.  So all that a value needs is that each of its tokens is
`Plain`, that is, that its numbers are natural and its strings and keys are text.
-/

import Retrace.Json.Value
import Retrace.Proofs.Json.Token

namespace Retrace

namespace Json

/-! ## Tokens -/

open Reader

/-- The first element of an array is read as any value is: it does not begin with the end. -/
theorem foldlM_first (v : Json) (stack : List Frame) (rest : List Token) :
    (v.tokens ++ rest).foldlM step (first stack) =
      (v.tokens ++ rest).foldlM step (value (.array [] :: stack)) := by
  cases v with
  | null | bool | natural | number | string => rfl
  | array elements => cases elements <;> rfl
  | object members => cases members <;> rfl

mutual

/-- Where a value is to come, its tokens complete it, whatever is still open around it: by recursion
over the value. -/
theorem foldlM_tokens (v : Json) (stack : List Frame) (rest : List Token) :
    (v.tokens ++ rest).foldlM step (value stack) = rest.foldlM step (complete v stack) := by
  cases v with
  | null | bool | natural | number | string => rfl
  | array elements =>
    cases elements with
    | nil => rfl
    | cons v elements =>
      calc ((array (v :: elements)).tokens ++ rest).foldlM step (value stack)
          = (v.tokens ++ (elementTokens elements ++ rest)).foldlM step (first stack) := by
            rw [tokens, List.cons_append, List.append_assoc]; rfl
        _ = (elementTokens elements ++ rest).foldlM step (afterElement [v] stack) := by
            rw [foldlM_first, foldlM_tokens v]; rfl
        _ = rest.foldlM step (complete (array (v :: elements)) stack) := by
            rw [foldlM_elementTokens elements]; rfl
  | object members =>
    cases members with
    | nil => rfl
    | cons m members =>
      obtain ⟨k, v⟩ := m
      calc ((object ((k, v) :: members)).tokens ++ rest).foldlM step (value stack)
          = (v.tokens ++ (memberTokens members ++ rest)).foldlM step
              (value (.object [] k :: stack)) := by
            rw [tokens, List.cons_append, List.cons_append, List.cons_append,
              List.append_assoc]; rfl
        _ = (memberTokens members ++ rest).foldlM step (afterMember [(k, v)] stack) := by
            rw [foldlM_tokens v]; rfl
        _ = rest.foldlM step (complete (object ((k, v) :: members)) stack) := by
            rw [foldlM_memberTokens members]; rfl

/-- After some elements, the tokens of further ones complete the array. -/
theorem foldlM_elementTokens (elements before : List Json) (stack : List Frame)
    (rest : List Token) :
    (elementTokens elements ++ rest).foldlM step (afterElement before stack) =
      rest.foldlM step (complete (.array (before.reverse ++ elements)) stack) := by
  cases elements with
  | nil => rw [List.append_nil]; rfl
  | cons v elements =>
    calc (elementTokens (v :: elements) ++ rest).foldlM step (afterElement before stack)
        = (v.tokens ++ (elementTokens elements ++ rest)).foldlM step
            (value (.array before :: stack)) := by
          rw [elementTokens, List.cons_append, List.append_assoc]; rfl
      _ = (elementTokens elements ++ rest).foldlM step (afterElement (v :: before) stack) := by
          rw [foldlM_tokens v]; rfl
      _ = rest.foldlM step (complete (.array (before.reverse ++ v :: elements)) stack) := by
          rw [foldlM_elementTokens elements, List.reverse_cons, List.append_assoc]; rfl

/-- After some members, the tokens of further ones complete the object. -/
theorem foldlM_memberTokens (members before : List (Option String × Json)) (stack : List Frame)
    (rest : List Token) :
    (memberTokens members ++ rest).foldlM step (afterMember before stack) =
      rest.foldlM step (complete (.object (before.reverse ++ members)) stack) := by
  cases members with
  | nil => rw [List.append_nil]; rfl
  | cons m members =>
    obtain ⟨k, v⟩ := m
    calc (memberTokens ((k, v) :: members) ++ rest).foldlM step (afterMember before stack)
        = (v.tokens ++ (memberTokens members ++ rest)).foldlM step
            (value (.object before k :: stack)) := by
          rw [memberTokens, List.cons_append, List.cons_append, List.cons_append,
            List.append_assoc]; rfl
      _ = (memberTokens members ++ rest).foldlM step (afterMember ((k, v) :: before) stack) := by
          rw [foldlM_tokens v]; rfl
      _ = rest.foldlM step (complete (.object (before.reverse ++ (k, v) :: members)) stack) := by
          rw [foldlM_memberTokens members, List.reverse_cons, List.append_assoc]; rfl

end

/-- **The tokens of a value are read as that value**, even if their text would not be. -/
theorem ofTokens?_tokens (v : Json) : ofTokens? v.tokens = some v := by
  have h := foldlM_tokens v [] []
  rw [List.append_nil] at h
  rw [ofTokens?, h]
  rfl

/-! ## Plain values -/

/-- A value that its text tells: its numbers are natural, and its strings and keys are text.  The
forms of types are such values. -/
def Plain (v : Json) : Prop := ∀ t ∈ v.tokens, t.Plain

/-- A value of one token is plain if that token is. -/
theorem plain_of_tokens {v : Json} {t : Token} (h : v.tokens = [t]) (ht : t.Plain) : v.Plain := by
  rw [Plain, h]
  simpa using ht

theorem plain_elementTokens_iff {elements : List Json} :
    (∀ t ∈ elementTokens elements, t.Plain) ↔ ∀ v ∈ elements, v.Plain := by
  induction elements with
  | nil => simp [elementTokens, Token.Plain]
  | cons v elements ih =>
    rw [elementTokens, List.forall_mem_cons, List.forall_mem_append, ih, List.forall_mem_cons]
    exact ⟨fun h => h.2, fun h => ⟨trivial, h⟩⟩

/-- An array is plain if its elements are. -/
theorem plain_array_iff {elements : List Json} :
    (array elements).Plain ↔ ∀ v ∈ elements, v.Plain := by
  cases elements with
  | nil => simp [Plain, tokens, Token.Plain]
  | cons v elements =>
    rw [Plain, tokens, List.forall_mem_cons, List.forall_mem_append, plain_elementTokens_iff,
      List.forall_mem_cons]
    exact ⟨fun h => h.2, fun h => ⟨trivial, h⟩⟩

theorem plain_memberTokens_iff {members : List (Option String × Json)} :
    (∀ t ∈ memberTokens members, t.Plain) ↔ ∀ m ∈ members, m.1.isSome ∧ m.2.Plain := by
  induction members with
  | nil => simp [memberTokens, Token.Plain]
  | cons m members ih =>
    obtain ⟨k, v⟩ := m
    rw [memberTokens, List.forall_mem_cons, List.forall_mem_cons, List.forall_mem_cons,
      List.forall_mem_append, ih, List.forall_mem_cons]
    cases k <;> simp [Token.Plain, Plain]

/-- An object is plain if its keys are text and their values are plain. -/
theorem plain_object_iff {members : List (Option String × Json)} :
    (object members).Plain ↔ ∀ m ∈ members, m.1.isSome ∧ m.2.Plain := by
  cases members with
  | nil => simp [Plain, tokens, Token.Plain]
  | cons m members =>
    obtain ⟨k, v⟩ := m
    rw [Plain, tokens, List.forall_mem_cons, List.forall_mem_cons, List.forall_mem_cons,
      List.forall_mem_append, plain_memberTokens_iff, List.forall_mem_cons]
    cases k <;> simp [Token.Plain, Plain]

/-! ## Texts -/

theorem endsNatural_elementTokens_append (elements : List Json) (rest : List Token) :
    EndsNatural (elementTokens elements ++ rest) := by
  intro t ht
  cases elements <;> cases ht <;> rfl

theorem endsNatural_memberTokens_append (members : List (Option String × Json))
    (rest : List Token) : EndsNatural (memberTokens members ++ rest) := by
  intro t ht
  cases members <;> cases ht <;> rfl

mutual

/-- The tokens of a plain value stand before whatever a number can stand before. -/
theorem legible_tokens_append (v : Json) (h : v.Plain) {rest : List Token} (hr : Legible rest)
    (hn : EndsNatural rest) : Legible (v.tokens ++ rest) := by
  cases v with
  | null | bool | natural | number | string => exact ⟨h _ List.mem_cons_self, fun _ => hn, hr⟩
  | array elements =>
    cases elements with
    | nil => exact ⟨trivial, nofun, trivial, nofun, hr⟩
    | cons v elements =>
      simp only [Plain, tokens, List.forall_mem_cons, List.forall_mem_append] at h
      obtain ⟨_, hv, hes⟩ := h
      rw [tokens, List.cons_append, List.append_assoc]
      exact ⟨trivial, nofun, legible_tokens_append v hv
        (legible_elementTokens_append elements hes hr)
        (endsNatural_elementTokens_append elements rest)⟩
  | object members =>
    cases members with
    | nil => exact ⟨trivial, nofun, trivial, nofun, hr⟩
    | cons m members =>
      obtain ⟨k, v⟩ := m
      simp only [Plain, tokens, List.forall_mem_cons, List.forall_mem_append] at h
      obtain ⟨_, hk, _, hv, hms⟩ := h
      rw [tokens, List.cons_append, List.cons_append, List.cons_append, List.append_assoc]
      exact ⟨trivial, nofun, hk, nofun, trivial, nofun, legible_tokens_append v hv
        (legible_memberTokens_append members hms hr)
        (endsNatural_memberTokens_append members rest)⟩

theorem legible_elementTokens_append (elements : List Json)
    (h : ∀ t ∈ elementTokens elements, t.Plain) {rest : List Token} (hr : Legible rest) :
    Legible (elementTokens elements ++ rest) := by
  cases elements with
  | nil => exact ⟨trivial, nofun, hr⟩
  | cons v elements =>
    simp only [elementTokens, List.forall_mem_cons, List.forall_mem_append] at h
    obtain ⟨_, hv, hes⟩ := h
    rw [elementTokens, List.cons_append, List.append_assoc]
    exact ⟨trivial, nofun, legible_tokens_append v hv
      (legible_elementTokens_append elements hes hr)
      (endsNatural_elementTokens_append elements rest)⟩

theorem legible_memberTokens_append (members : List (Option String × Json))
    (h : ∀ t ∈ memberTokens members, t.Plain) {rest : List Token} (hr : Legible rest) :
    Legible (memberTokens members ++ rest) := by
  cases members with
  | nil => exact ⟨trivial, nofun, hr⟩
  | cons m members =>
    obtain ⟨k, v⟩ := m
    simp only [memberTokens, List.forall_mem_cons, List.forall_mem_append] at h
    obtain ⟨_, hk, _, hv, hms⟩ := h
    rw [memberTokens, List.cons_append, List.cons_append, List.cons_append, List.append_assoc]
    exact ⟨trivial, nofun, hk, nofun, trivial, nofun, legible_tokens_append v hv
      (legible_memberTokens_append members hms hr)
      (endsNatural_memberTokens_append members rest)⟩

end

theorem Plain.legible_tokens {v : Json} (h : v.Plain) : Legible v.tokens := by
  have hend : Legible (v.tokens ++ []) := legible_tokens_append v h trivial nofun
  rwa [List.append_nil] at hend

/-- **What is printed without space is read back**, if the value is plain. -/
theorem parse?_print {v : Json} (h : v.Plain) : parse? v.print = some v := by
  rw [parse?, print, String.toList_ofList, tokens?_compact h.legible_tokens]
  exact ofTokens?_tokens v

/-- **What is printed on lines is read back**, if the value is plain. -/
theorem parse?_printIndented {v : Json} (h : v.Plain) : parse? v.printIndented = some v := by
  rw [parse?, printIndented, String.toList_ofList, tokens?_indented 0 h.legible_tokens]
  exact ofTokens?_tokens v

end Json

end Retrace
