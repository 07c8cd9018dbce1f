/-
# JSON forms of journal records

| type | fields |
| --- | --- |
| write that is pending | `buffer`, `start` |
| write that has landed | `buffer`, `start`, `final_position` |
| top-level code | `body`, `origin`, `body_counter`, `source_name` |

An origin is `ScriptLoad`, `NewFunction` or `Eval`.

These are the records of the journal in the data model (specification, section 3) as they are
written for tools.
-/

import Retrace.Journal
import Retrace.Json.Identity

namespace Retrace

/-- The name of an origin in JSON, which is not the one written for people. -/
def CodeOrigin.label : CodeOrigin → String
  | script => "ScriptLoad"
  | newFunction => "NewFunction"
  | eval => "Eval"

instance : JsonForm CodeOrigin where
  toJson o := toJson o.label
  ofJson? v := v.named? CodeOrigin.label [.script, .newFunction, .eval]

instance : JsonForm LoadedCode where
  toJson c := .record [
    ("body", toJson c.body), ("origin", toJson c.origin), ("body_counter", toJson c.counter),
    ("source_name", toJson c.sourceName)]
  ofJson? v := do
    let f ← v.fields? ["body", "origin", "body_counter", "source_name"]
    return ⟨← f.required "body", ← f.required "origin", ← f.required "body_counter",
      ← f.optional "source_name"⟩

instance : JsonForm AsyncWrite where
  toJson w := .record [("buffer", toJson w.buffer), ("start", toJson w.start)]
  ofJson? v := do
    let f ← v.fields? ["buffer", "start"]
    return ⟨← f.required "buffer", ← f.required "start"⟩

instance : JsonForm CompletedWrite where
  toJson w := .record [
    ("buffer", toJson w.buffer), ("start", toJson w.start), ("final_position", toJson w.final)]
  ofJson? v := do
    let f ← v.fields? ["buffer", "start", "final_position"]
    return ⟨← f.required "buffer", ← f.required "start", ← f.required "final_position"⟩

end Retrace
