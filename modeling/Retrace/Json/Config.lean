/-
# JSON form of a configuration

The fields are `uri`, `snap_interval`, `snap_history_length`, `max_contexts`,
`first_log_pointer_id`, `core_object_capacity` and `core_body_capacity`, each with the default of the
setting.  Whether the settings can be worked with is not asked here.

The names are the keys of the configuration in the specification (section 8).
-/

import Retrace.Config
import Retrace.Json.Form

namespace Retrace

instance : JsonForm Config where
  toJson c := .record [
    ("uri", toJson c.uri), ("snap_interval", toJson c.snapInterval),
    ("snap_history_length", toJson c.snapHistoryLength), ("max_contexts", toJson c.maxContexts),
    ("first_log_pointer_id", toJson c.firstLogId),
    ("core_object_capacity", toJson c.coreObjectCapacity),
    ("core_body_capacity", toJson c.coreBodyCapacity)]
  ofJson? v := do
    let f ← v.fields? ["uri", "snap_interval", "snap_history_length", "max_contexts",
      "first_log_pointer_id", "core_object_capacity", "core_body_capacity"]
    let c : Config := {}
    return {
      uri := ← f.defaulted "uri" c.uri
      snapInterval := ← f.defaulted "snap_interval" c.snapInterval
      snapHistoryLength := ← f.defaulted "snap_history_length" c.snapHistoryLength
      maxContexts := ← f.defaulted "max_contexts" c.maxContexts
      firstLogId := ← f.defaulted "first_log_pointer_id" c.firstLogId
      coreObjectCapacity := ← f.defaulted "core_object_capacity" c.coreObjectCapacity
      coreBodyCapacity := ← f.defaulted "core_body_capacity" c.coreBodyCapacity }

end Retrace
