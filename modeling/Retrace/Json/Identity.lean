/-
# JSON forms of handles, ids and contexts

| type | form |
| --- | --- |
| handles, context numbers, log ids, wrappers | the bare number |
| core target | `Object`, `Body` or `Scope` with the number |
| slot | `Global`, `Undefined`, `Null`, `True`, `False` |
| mode | `Record`, `Replay` |
| something per slot | `global`, `undefined`, `null`, `true_value`, `false_value` |

These are the types of the data model (specification, section 3) as they are written for tools.
-/

import Retrace.Context
import Retrace.CorePaths.Walk
import Retrace.Json.Form

namespace Retrace

instance : JsonForm ObjectHandle where
  toJson h := toJson h.index
  ofJson? v := (ofJson? v).map ObjectHandle.mk

instance : JsonForm BodyHandle where
  toJson h := toJson h.index
  ofJson? v := (ofJson? v).map BodyHandle.mk

instance : JsonForm ScopeHandle where
  toJson h := toJson h.index
  ofJson? v := (ofJson? v).map ScopeHandle.mk

instance : JsonForm ContextId where
  toJson c := toJson c.index
  ofJson? v := (ofJson? v).map ContextId.mk

instance : JsonForm LogId where
  toJson i := toJson i.raw
  ofJson? v := (ofJson? v).map LogId.mk

instance : JsonForm WrapperRef where
  toJson w := toJson w.index
  ofJson? v := (ofJson? v).map WrapperRef.mk

instance : JsonForm CoreTarget where
  toJson
    | .object h => .record [("Object", toJson h)]
    | .body h => .record [("Body", toJson h)]
    | .scope h => .record [("Scope", toJson h)]
  ofJson? v :=
    match v.choice? with
    | some ("Object", some h) => (ofJson? h).map CoreTarget.object
    | some ("Body", some h) => (ofJson? h).map CoreTarget.body
    | some ("Scope", some h) => (ofJson? h).map CoreTarget.scope
    | _ => none

instance : JsonForm CorePath where
  toJson p := .record [("path", toJson p.path), ("target", toJson p.target)]
  ofJson? v := do
    let f ← v.fields? ["path", "target"]
    return ⟨← f.required "path", ← f.required "target"⟩

/-- The name of a slot in JSON, where it stands alone; as fields of a record the slots have other
names. -/
def SentinelSlot.label : SentinelSlot → String
  | globalObject => "Global"
  | undefinedValue => "Undefined"
  | nullValue => "Null"
  | trueValue => "True"
  | falseValue => "False"

instance : JsonForm SentinelSlot where
  toJson s := toJson s.label
  ofJson? v := v.named? SentinelSlot.label SentinelSlot.all

/-- The name of a mode in JSON, which is not the one written for people. -/
def ExecutionMode.label : ExecutionMode → String
  | record => "Record"
  | replay => "Replay"

instance : JsonForm ExecutionMode where
  toJson m := toJson m.label
  ofJson? v := v.named? ExecutionMode.label [.record, .replay]

instance {α : Type} [JsonForm α] : JsonForm (PerSlot α) where
  toJson p := .record [
    ("global", toJson p.globalObject), ("undefined", toJson p.undefinedValue),
    ("null", toJson p.nullValue), ("true_value", toJson p.trueValue),
    ("false_value", toJson p.falseValue)]
  ofJson? v := do
    let f ← v.fields? ["global", "undefined", "null", "true_value", "false_value"]
    return ⟨← f.required "global", ← f.required "undefined", ← f.required "null",
      ← f.required "true_value", ← f.required "false_value"⟩

instance : JsonForm DeadContext where
  toJson d := .record [("context", toJson d.context), ("ids", toJson d.ids)]
  ofJson? v := do
    let f ← v.fields? ["context", "ids"]
    return ⟨← f.required "context", ← f.required "ids"⟩

instance : JsonForm TrackedContext where
  toJson c := .record [
    ("id", toJson c.id), ("mode", toJson c.mode), ("sentinels", toJson c.sentinels),
    ("sentinel_ids", toJson c.sentinelIds)]
  ofJson? v := do
    let f ← v.fields? ["id", "mode", "sentinels", "sentinel_ids"]
    return ⟨← f.required "id", ← f.required "mode", ← f.required "sentinels",
      ← f.required "sentinel_ids"⟩

end Retrace
