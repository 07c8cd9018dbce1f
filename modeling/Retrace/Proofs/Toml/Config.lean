/-
# Saved configurations are read back

A configuration is written as seven lines, and what they spell is what is looked up when it is read:

| setting | spelled by | because |
| --- | --- | --- |
| `uri` | quotes | quotes spell every text (`Toml.spells_quote`) |
| the others | decimal digits | a word has no more than 64 bits (`Toml.spells_toDigits`) |

So the settings that are written come back, whatever they are (`ofEntries?_lines`), and a file to
which a configuration has been saved holds that configuration, if it can be worked with; if not, it
is refused for the same reason (`load_toToml`).

Round-trips are among the testable properties of the specification (section 12); this one is of its
configuration (section 8).
-/

import Retrace.Inspector
import Retrace.Proofs.Toml.Line

namespace Retrace

namespace Toml

/-! ## Lines of settings -/

theorem textAt_of_lookup {key text : String} {entries : Entries}
    (h : entries.lookup key = some (.text text)) (default : String) :
    textAt key default entries = some text := by
  rw [textAt, h]

theorem naturalAt_of_lookup {key : String} {n limit : Nat} {entries : Entries}
    (h : entries.lookup key = some (.scalar (.integer n))) (hlt : n < limit) (default : Nat) :
    naturalAt key limit default entries = some n := by
  rw [naturalAt, h]
  exact if_pos ⟨Int.natCast_nonneg n, Int.ofNat_lt.2 hlt⟩

theorem word32At_of_lookup {key : String} {w : UInt32} {entries : Entries}
    (h : entries.lookup key = some (.scalar (.integer w.toNat))) (default : UInt32) :
    word32At key default entries = some w := by
  rw [word32At, naturalAt_of_lookup h w.toNat_lt, Option.map_some]
  exact congrArg some (UInt32.ofNat_toNat)

theorem word64At_of_lookup {key : String} {w : UInt64} {entries : Entries}
    (h : entries.lookup key = some (.scalar (.integer w.toNat))) (default : UInt64) :
    word64At key default entries = some w := by
  rw [word64At, naturalAt_of_lookup h w.toNat_lt, Option.map_some]
  exact congrArg some (UInt64.ofNat_toNat)

namespace Line

/-- A line that assigns a text. -/
def ofText (key text : String) (hne : key.toList ≠ []) (hbare : key.toList.all isBare = true) :
    Line where
  key
  written := quote text.toList
  value := .text text
  key_ne := hne
  bare := hbare
  spells := spells_quote text

/-- A line that assigns a number of no more than 64 bits. -/
def ofNumber (key : String) (n : Nat) (hlt : n < UInt64.size) (hne : key.toList ≠ [])
    (hbare : key.toList.all isBare = true) : Line where
  key
  written := Nat.toDigits 10 n
  value := .scalar (.integer n)
  key_ne := hne
  bare := hbare
  spells := spells_toDigits hlt

end Line

end Toml

namespace Config

/-- The lines of a configuration. -/
def lines (c : Config) : List Toml.Line := [
  .ofText "uri" c.uri (by decide) (by decide),
  .ofNumber "snap_interval" c.snapInterval.toNat
    (Nat.lt_trans c.snapInterval.toNat_lt (by decide)) (by decide) (by decide),
  .ofNumber "snap_history_length" c.snapHistoryLength.toNat
    (Nat.lt_trans c.snapHistoryLength.toNat_lt (by decide)) (by decide) (by decide),
  .ofNumber "max_contexts" c.maxContexts.toNat c.maxContexts.toNat_lt (by decide) (by decide),
  .ofNumber "first_log_pointer_id" c.firstLogId.toNat c.firstLogId.toNat_lt (by decide) (by decide),
  .ofNumber "core_object_capacity" c.coreObjectCapacity.toNat c.coreObjectCapacity.toNat_lt
    (by decide) (by decide),
  .ofNumber "core_body_capacity" c.coreBodyCapacity.toNat c.coreBodyCapacity.toNat_lt (by decide)
    (by decide)]

theorem toToml_eq (c : Config) : c.toToml = String.ofList (c.lines.flatMap Toml.Line.chars) := by
  rw [List.flatMap_def]
  rfl

/-- The keys do not depend on the settings, and no two of them are the same. -/
theorem keys_lines (c : Config) : c.lines.map Toml.Line.key = ["uri", "snap_interval",
    "snap_history_length", "max_contexts", "first_log_pointer_id", "core_object_capacity",
    "core_body_capacity"] := rfl

/-- **The settings that are written come back**, whatever they are, as every one of them is in its
range. -/
theorem ofEntries?_lines (c : Config) : ofEntries? (c.lines.map Toml.Line.entry) = some c := by
  unfold ofEntries?
  refine Option.bind_eq_some_iff.2 ⟨c.uri, Toml.textAt_of_lookup rfl _, ?_⟩
  refine Option.bind_eq_some_iff.2 ⟨c.snapInterval, Toml.word32At_of_lookup rfl _, ?_⟩
  refine Option.bind_eq_some_iff.2 ⟨c.snapHistoryLength, Toml.word32At_of_lookup rfl _, ?_⟩
  refine Option.bind_eq_some_iff.2 ⟨c.maxContexts, Toml.word64At_of_lookup rfl _, ?_⟩
  refine Option.bind_eq_some_iff.2 ⟨c.firstLogId, Toml.word64At_of_lookup rfl _, ?_⟩
  refine Option.bind_eq_some_iff.2 ⟨c.coreObjectCapacity, Toml.word64At_of_lookup rfl _, ?_⟩
  refine Option.bind_eq_some_iff.2 ⟨c.coreBodyCapacity, Toml.word64At_of_lookup rfl _, ?_⟩
  rfl

/-- **What is written of a configuration is read as that configuration**, or is refused as that
configuration is. -/
theorem load_toToml (c : Config) : load (some c.toToml) =
    match c.validate with
    | .ok _ => .ok c
    | .error e => .error (.invalid e) := by
  have hnodup : (c.lines.map Toml.Line.key).Nodup := by
    rw [keys_lines]
    decide
  have hread : (Toml.parse? c.toToml).bind ofEntries? = some c := by
    rw [toToml_eq, Toml.parse?_lines hnodup, Option.bind_some, ofEntries?_lines]
  cases hvalid : c.validate <;> simp only [load, hread, hvalid]

end Config

namespace Inspector

/-- **A configuration that can be worked with is read back from the file it has been saved to**,
which holds the text that the configuration is written as. -/
theorem loadConfig_saveConfig (around : Surroundings) (file : String) {c : Config}
    (h : c.validate = .ok ()) : loadConfig (saveConfig around file c) file = .ok c ∧
      (saveConfig around file c).read file = .text c.toToml := by
  have hread : (saveConfig around file c).read file = .text c.toToml := if_pos rfl
  refine ⟨?_, hread⟩
  unfold loadConfig
  rw [hread]
  simp only [Config.load_toToml, h]

/-- Both kinds of quotes three times, a backslash, line breaks and controls, and the greatest words
that may be written. -/
theorem loadConfig_saveConfig_awkward :
    let around : Surroundings := { read := fun _ => .missing, home := "home", config := none }
    let c : Config := {
      uri := "\"\"\"\'\'\'\\\r\n\x00\x7f\u2028"
      snapInterval := 4294967295
      snapHistoryLength := 4294967295
      maxContexts := 18446744073709551615
      firstLogId := 9223372036854775807
      coreObjectCapacity := 18446744073709551615
      coreBodyCapacity := 18446744073709551615 }
    c.validate = .ok () ∧ loadConfig (saveConfig around "a.toml" c) "a.toml" = .ok c ∧
      (saveConfig around "a.toml" c).read "a.toml" = .text c.toToml :=
  ⟨rfl, loadConfig_saveConfig _ _ rfl⟩

end Inspector

end Retrace
