/-
# Forms that are read back

A type is a `LawfulJsonForm` if the form of each of its values is plain and is read as that value.

| type | lawful if |
| --- | --- |
| truth values, 32-bit words, texts | always |
| `List` | its elements are |
| `Option` | what is there is, and is never written as nothing |
| record | its names are distinct and each of its fields is |

A record needs nothing of its own but the names: `bind_fields?_record` hands it all its fields.
-/

import Retrace.Json.Form
import Retrace.Proofs.Json.Value

namespace Retrace

/-- Types whose values are read back from their forms, and whose forms are plain, so that text tells
them. -/
class LawfulJsonForm (α : Type) [JsonForm α] : Prop where
  /-- The form has only natural numbers and texts in it. -/
  plain_toJson : ∀ a : α, (toJson a).Plain
  /-- The form is read as what it was written for. -/
  ofJson?_toJson : ∀ a : α, ofJson? (toJson a) = some a

export LawfulJsonForm (plain_toJson ofJson?_toJson)

attribute [simp] LawfulJsonForm.plain_toJson LawfulJsonForm.ofJson?_toJson

/-- Types no value of which is written as nothing, so that nothing, where it is allowed, can be told
from every value. -/
class NonNullForm (α : Type) [JsonForm α] : Prop where
  /-- The form of a value is not nothing. -/
  toJson_ne_null : ∀ a : α, toJson a ≠ .null

namespace Json

/-! ## Records -/

/-- A record is plain if its fields are. -/
theorem plain_record_iff {fields : List (String × Json)} :
    (record fields).Plain ↔ ∀ f ∈ fields, f.2.Plain := by
  rw [record, plain_object_iff, List.forall_mem_map]
  exact forall₂_congr fun f _ => and_iff_right rfl

/-- A record whose names are distinct is read with all its fields. -/
theorem fields?_record {fields : List (String × Json)} {names : List String}
    (hn : fields.map (·.1) = names) (hd : names.Pairwise (· ≠ ·)) :
    (record fields).fields? names = some ⟨fields, true⟩ := by
  have hgiven : (fields.map fun f => (some f.1, f.2)).mapM
      (fun m : Option String × Json => m.1.map fun name => (name, m.2)) = some fields := by
    clear hn
    induction fields with
    | nil => rfl
    | cons f fields ih => simp [ih]
  have hknown : fields.filter (fun f => f.1 ∈ names) = fields :=
    List.filter_eq_self.2 fun f hf => by
      rw [← hn]
      exact decide_eq_true (List.mem_map_of_mem hf)
  simp only [record, fields?, hgiven, Option.bind_eq_bind, Option.bind_some, hknown, hn, if_pos hd]

/-- **What is read from a record is read from its fields**, each of them under its name. -/
theorem bind_fields?_record {β : Type} {fields : List (String × Json)} (names : List String)
    (hn : fields.map (·.1) = names) (hd : names.Pairwise (· ≠ ·)) (read : Fields → Option β) :
    (record fields).fields? names >>= read = read ⟨fields, true⟩ := by
  rw [fields?_record hn hd]
  rfl

end Json

/-! ## Basic types -/

instance : LawfulJsonForm Bool where
  plain_toJson _ := Json.plain_of_tokens rfl trivial
  ofJson?_toJson _ := rfl

instance : LawfulJsonForm UInt32 where
  plain_toJson _ := Json.plain_of_tokens rfl trivial
  ofJson?_toJson n := by
    change (if n.toNat < UInt32.size then some n.toNat.toUInt32 else none) = some n
    rw [if_pos n.toNat_lt, Nat.toUInt32_eq, UInt32.ofNat_toNat]

instance : LawfulJsonForm String where
  plain_toJson _ := Json.plain_of_tokens rfl trivial
  ofJson?_toJson _ := rfl

instance : NonNullForm String where
  toJson_ne_null _ := nofun

variable {α : Type} [JsonForm α] [LawfulJsonForm α]

instance : LawfulJsonForm (List α) where
  plain_toJson l := by
    rw [show toJson l = .array (l.map toJson) from rfl, Json.plain_array_iff, List.forall_mem_map]
    exact fun a _ => plain_toJson a
  ofJson?_toJson l := by
    change (l.map toJson).mapM ofJson? = some l
    induction l with
    | nil => rfl
    | cons a l ih => simp [ih]

instance [NonNullForm α] : LawfulJsonForm (Option α) where
  plain_toJson o := by
    cases o with
    | none => exact Json.plain_of_tokens rfl trivial
    | some a => exact plain_toJson a
  ofJson?_toJson o := by
    cases o with
    | none => rfl
    | some a =>
      have hread : ∀ v : Json, v ≠ .null →
          (ofJson? v : Option (Option α)) = (ofJson? v).map some := by
        intro v hv
        cases v with
        | null => exact absurd rfl hv
        | bool | natural | number | string | array | object => rfl
      exact (hread _ (NonNullForm.toJson_ne_null a)).trans (by rw [ofJson?_toJson]; rfl)

end Retrace
