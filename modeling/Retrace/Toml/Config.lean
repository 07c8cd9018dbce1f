/-
# Configurations in TOML

| key | setting |
| --- | --- |
| `uri` | `uri` |
| `snap_interval`, `snap_history_length` | `snapInterval`, `snapHistoryLength` |
| `max_contexts` | `maxContexts` |
| `first_log_pointer_id` | `firstLogId` |
| `core_object_capacity`, `core_body_capacity` | `coreObjectCapacity`, `coreBodyCapacity` |

Every setting is written, one on a line in this order.  A setting that is missing has its default,
and keys of other names are skipped; what is read must also be a configuration that can be worked
with.

This is how the configuration of the specification (section 8) is kept in a file, and what `config`
prints (section 10).
-/

import Retrace.Config
import Retrace.Toml.Document

namespace Retrace

namespace Toml

/-- A text under a key, with a default for a key that is missing.  Anything but a text under it is
refused. -/
def textAt (key default : String) (entries : Entries) : Option String :=
  match entries.lookup key with
  | none => some default
  | some (.text value) => some value
  | some _ => none

/-- A natural number below a limit under a key, with a default.  Anything else under the key is
refused. -/
def naturalAt (key : String) (limit default : Nat) (entries : Entries) : Option Nat :=
  match entries.lookup key with
  | none => some default
  | some (.scalar (.integer value)) =>
    if 0 ≤ value ∧ value < limit then some value.toNat else none
  | some _ => none

/-- A 32-bit word under a key, with a default. -/
def word32At (key : String) (default : UInt32) (entries : Entries) : Option UInt32 :=
  (naturalAt key UInt32.size default.toNat entries).map Nat.toUInt32

/-- A 64-bit word under a key, with a default. -/
def word64At (key : String) (default : UInt64) (entries : Entries) : Option UInt64 :=
  (naturalAt key UInt64.size default.toNat entries).map Nat.toUInt64

/-- A line that assigns what is written to a key, which needs no quotes itself. -/
def line (key : String) (written : List Char) : List Char :=
  key.toList ++ [' ', '=', ' '] ++ written ++ ['\n']

end Toml

namespace Config

/-- The settings in TOML, all of them, whether or not they are the defaults. -/
def toToml (c : Config) : String :=
  String.ofList <| List.flatten [
    Toml.line "uri" (Toml.quote c.uri.toList),
    Toml.line "snap_interval" (Nat.toDigits 10 c.snapInterval.toNat),
    Toml.line "snap_history_length" (Nat.toDigits 10 c.snapHistoryLength.toNat),
    Toml.line "max_contexts" (Nat.toDigits 10 c.maxContexts.toNat),
    Toml.line "first_log_pointer_id" (Nat.toDigits 10 c.firstLogId.toNat),
    Toml.line "core_object_capacity" (Nat.toDigits 10 c.coreObjectCapacity.toNat),
    Toml.line "core_body_capacity" (Nat.toDigits 10 c.coreBodyCapacity.toNat)]

/-- The settings in the root table of a text; nothing if one of them is of the wrong kind or out of
range. -/
def ofEntries? (entries : Toml.Entries) : Option Config := do
  let c : Config := {}
  return {
    uri := ← Toml.textAt "uri" c.uri entries
    snapInterval := ← Toml.word32At "snap_interval" c.snapInterval entries
    snapHistoryLength := ← Toml.word32At "snap_history_length" c.snapHistoryLength entries
    maxContexts := ← Toml.word64At "max_contexts" c.maxContexts entries
    firstLogId := ← Toml.word64At "first_log_pointer_id" c.firstLogId entries
    coreObjectCapacity := ← Toml.word64At "core_object_capacity" c.coreObjectCapacity entries
    coreBodyCapacity := ← Toml.word64At "core_body_capacity" c.coreBodyCapacity entries }

/-- The configuration in a file: the text, or nothing if there is no file, which leaves every
setting at its default.  Settings that cannot be worked with are refused. -/
def load (file : Option String) : Except TextFault Config :=
  match file with
  | none => .ok {}
  | some text =>
    match (Toml.parse? text).bind ofEntries? with
    | none => .error .malformed
    | some c =>
      match c.validate with
      | .ok _ => .ok c
      | .error e => .error (.invalid e)

end Config

end Retrace
