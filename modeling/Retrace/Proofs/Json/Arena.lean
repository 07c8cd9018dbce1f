/-
# Arenas are read back from their descriptions

| written | read back |
| --- | --- |
| handles, properties, roots, objects, bodies | as they are |
| an arena | as it is, with no parse counted |
| the description of a valid arena | that arena, with no parse counted |
| the description of any other arena | refused, with the violation that `validate` finds |

Names may hold any characters, a property nothing or a missing getter or setter, and all lists may
be empty; nothing of that has to be assumed.  How often a parse was forced is not written, and it is
not needed to tell whether an arena is valid.

Descriptions are what tests and the inspector read arenas from (specification, section 6).
-/

import Retrace.Json.Arena
import Retrace.Proofs.Json.Form

namespace Retrace

/-! ## Handles -/

instance : LawfulJsonForm ObjectHandle where
  plain_toJson h := plain_toJson h.index
  ofJson?_toJson h := congrArg (Option.map ObjectHandle.mk) (ofJson?_toJson h.index)

instance : NonNullForm ObjectHandle where
  toJson_ne_null _ := nofun

instance : LawfulJsonForm BodyHandle where
  plain_toJson h := plain_toJson h.index
  ofJson?_toJson h := congrArg (Option.map BodyHandle.mk) (ofJson?_toJson h.index)

instance : NonNullForm BodyHandle where
  toJson_ne_null _ := nofun

instance : LawfulJsonForm ScopeHandle where
  plain_toJson h := plain_toJson h.index
  ofJson?_toJson h := congrArg (Option.map ScopeHandle.mk) (ofJson?_toJson h.index)

/-! ## Parts of an arena -/

instance : LawfulJsonForm PropertyValue where
  plain_toJson v := by
    cases v with
    | data value => exact Json.plain_record_iff.2 (by simp)
    | accessor getter setter => exact Json.plain_record_iff.2 (by simp [Json.plain_record_iff])
  ofJson?_toJson v := by
    cases v with
    | data value => exact congrArg (Option.map PropertyValue.data) (ofJson?_toJson value)
    | accessor getter setter =>
      refine (Json.bind_fields?_record ["getter", "setter"] rfl (by decide) _).trans ?_
      simp [Json.Fields.optional, List.lookup_cons]

instance : LawfulJsonForm Property where
  plain_toJson p := Json.plain_record_iff.2 (by simp)
  ofJson?_toJson p := by
    refine (Json.bind_fields?_record ["name", "value"] rfl (by decide) _).trans ?_
    simp [Json.Fields.required, List.lookup_cons]

instance : LawfulJsonForm NamedRoot where
  plain_toJson r := Json.plain_record_iff.2 (by simp)
  ofJson?_toJson r := by
    refine (Json.bind_fields?_record ["name", "object"] rfl (by decide) _).trans ?_
    simp [Json.Fields.required, List.lookup_cons]

instance : LawfulJsonForm ArenaObject where
  plain_toJson o := Json.plain_record_iff.2 (by simp)
  ofJson?_toJson o := by
    refine (Json.bind_fields?_record ["properties", "body"] rfl (by decide) _).trans ?_
    simp [Json.Fields.defaulted, List.lookup_cons]

instance : LawfulJsonForm ArenaBody where
  plain_toJson b := Json.plain_record_iff.2 (by simp)
  ofJson?_toJson b := by
    refine (Json.bind_fields?_record ["source_name", "deferred", "nested", "scopes"] rfl
      (by decide) _).trans ?_
    simp [Json.Fields.defaulted, List.lookup_cons]

namespace Arena

/-! ## Arenas -/

theorem plain_toJson (a : Arena) : (toJson a).Plain := Json.plain_record_iff.2 (by simp)

/-- The form of an arena is read as that arena, but for the parses that were counted. -/
theorem ofJson?_toJson (a : Arena) : ofJson? (toJson a) = some { a with parseCount := 0 } := by
  refine (Json.bind_fields?_record ["objects", "bodies", "scope_count", "roots"] rfl
    (by decide) _).trans ?_
  simp [Json.Fields.defaulted, List.lookup_cons]

/-- What a description tells, valid or not: it is JSON, and is the form of that arena. -/
theorem parse?_describe (a : Arena) :
    (Json.parse? a.describe).bind ofJson? = some { a with parseCount := 0 } := by
  rw [describe, Json.parse?_printIndented a.plain_toJson]
  exact a.ofJson?_toJson

/-- How many parses were counted does not make an arena valid or invalid. -/
theorem validate_parseCount (a : Arena) (n : Nat) :
    Arena.validate { a with parseCount := n } = a.validate := rfl

/-- **A valid arena is read back from its description**, with no parse counted, whatever its names
hold and wherever its handles lead in it. -/
theorem ofDescription_describe {a : Arena} (h : a.validate = .ok ()) :
    ofDescription a.describe = .ok { a with parseCount := 0 } := by
  rw [ofDescription, parse?_describe]
  simp only [validate_parseCount, h]

/-- Names with quotes, backslashes and controls, properties without objects, a deferred body. -/
def awkward : Arena where
  objects := #[
    { properties := [⟨"\"\\/", .data (some ⟨1⟩)⟩, ⟨"\n\r\t\x08\x0c", .data none⟩,
        ⟨"", .accessor none (some ⟨0⟩)⟩]
      body := some ⟨0⟩ },
    { properties := [⟨"\x00\x1f\x7f", .accessor (some ⟨1⟩) none⟩,
        ⟨"é\u2028😀", .accessor none none⟩] }]
  bodies := #[
    { sourceName := some "\\u0041", deferred := true, nested := [⟨1⟩], scopes := [⟨0⟩, ⟨1⟩] }, {}]
  scopeCount := 2
  roots := [⟨"null", ⟨0⟩⟩]
  parseCount := 3

theorem ofDescription_describe_awkward :
    awkward.validate = .ok () ∧
      ofDescription awkward.describe = .ok { awkward with parseCount := 0 } :=
  ⟨rfl, ofDescription_describe rfl⟩

/-- **An arena that is not valid is not read back**: what is refused is its first violation. -/
theorem ofDescription_describe_of_invalid {a : Arena} {e : Error} (h : a.validate = .error e) :
    ofDescription a.describe = .error (.invalid e) := by
  rw [ofDescription, parse?_describe]
  simp only [validate_parseCount, h]

end Arena

end Retrace
