/-
# JSON forms of arenas

| type | fields | with a default |
| --- | --- | --- |
| property | `name`, `value` | |
| root | `name`, `object` | |
| object | `properties`, `body` | both |
| body | `source_name`, `deferred`, `nested`, `scopes` | all |
| arena | `objects`, `bodies`, `scope_count`, `roots` | all |

The value of a property is `data` with an object or nothing, or `accessor` with a `getter` and a
`setter`.  What is read from a file must also be a valid arena.

It is from such a description that the arena of the specification (section 6) is read, by its tests
and by the inspector.
-/

import Retrace.Arena
import Retrace.Json.Identity

namespace Retrace

instance : JsonForm PropertyValue where
  toJson
    | .data value => .record [("data", toJson value)]
    | .accessor getter setter =>
      .record [("accessor", .record [("getter", toJson getter), ("setter", toJson setter)])]
  ofJson? v :=
    match v.choice? with
    | some ("data", some value) => (ofJson? value).map PropertyValue.data
    | some ("accessor", some pair) => do
      let f ← pair.fields? ["getter", "setter"]
      return .accessor (← f.optional "getter") (← f.optional "setter")
    | _ => none

instance : JsonForm Property where
  toJson p := .record [("name", toJson p.name), ("value", toJson p.value)]
  ofJson? v := do
    let f ← v.fields? ["name", "value"]
    return ⟨← f.required "name", ← f.required "value"⟩

instance : JsonForm NamedRoot where
  toJson r := .record [("name", toJson r.name), ("object", toJson r.object)]
  ofJson? v := do
    let f ← v.fields? ["name", "object"]
    return ⟨← f.required "name", ← f.required "object"⟩

instance : JsonForm ArenaObject where
  toJson o := .record [("properties", toJson o.properties), ("body", toJson o.body)]
  ofJson? v := do
    let f ← v.fields? ["properties", "body"]
    return ⟨← f.defaulted "properties" [], ← f.defaulted "body" none⟩

instance : JsonForm ArenaBody where
  toJson b := .record [
    ("source_name", toJson b.sourceName), ("deferred", toJson b.deferred),
    ("nested", toJson b.nested), ("scopes", toJson b.scopes)]
  ofJson? v := do
    let f ← v.fields? ["source_name", "deferred", "nested", "scopes"]
    return ⟨← f.defaulted "source_name" none, ← f.defaulted "deferred" false,
      ← f.defaulted "nested" [], ← f.defaulted "scopes" []⟩

instance : JsonForm Arena where
  toJson a := .record [
    ("objects", toJson a.objects.toList), ("bodies", toJson a.bodies.toList),
    ("scope_count", toJson a.scopeCount), ("roots", toJson a.roots)]
  ofJson? v := do
    let f ← v.fields? ["objects", "bodies", "scope_count", "roots"]
    return {
      objects := (← f.defaulted "objects" ([] : List ArenaObject)).toArray
      bodies := (← f.defaulted "bodies" ([] : List ArenaBody)).toArray
      scopeCount := ← f.defaulted "scope_count" 0
      roots := ← f.defaulted "roots" [] }

namespace Arena

/-- The description of an arena, which is JSON on lines, in the order of the tables above. -/
def describe (a : Arena) : String := (toJson a).printIndented

/-- The valid arena that a text describes.  A text in the wrong form is told from one whose handles
lead out of the arena. -/
def ofDescription (text : String) : Except TextFault Arena :=
  match (Json.parse? text).bind ofJson? with
  | none => .error .malformed
  | some a => match Arena.validate a with
    | .ok _ => .ok a
    | .error e => .error (.invalid e)

end Arena

end Retrace
