/-
# JSON forms of types

A type with a `JsonForm` can be written as a JSON value and read back.

| type | form |
| --- | --- |
| 32-bit and 64-bit words | a natural number in range |
| `Option` | nothing, or the form of what is there |
| `List` | an array |
| record | an object with all fields in order |
| choice without data | the name of the choice |
| choice with data | an object whose only member is the data under the name of the choice |

A record is also read from an array of its fields, from which only fields with a default may be left
off at the end.  In an object the fields come in any order, each once at most, and members of other
names are skipped; a field with a default may be missing, and so may an `Option`, which then is
nothing.  A choice without data is also read from nothing under its name.
-/

import Retrace.Json.Value

namespace Retrace

/-- Types whose values have a form in JSON.  Several forms may be read as one value, but each value
is written in one form only. -/
class JsonForm (α : Type) where
  /-- The form of a value. -/
  toJson : α → Json
  /-- The value of a form. -/
  ofJson? : Json → Option α

export JsonForm (toJson ofJson?)

namespace Json

/-! ## Records -/

/-- An object with named members, in the order given, none of them left out. -/
def record (fields : List (String × Json)) : Json := .object (fields.map fun f => (some f.1, f.2))

/-- The fields of a record that are there.  Whether they came with their names decides if an
optional one may be missing. -/
structure Fields where
  /-- What is there, by name. -/
  given : List (String × Json)
  /-- Whether the names were written. -/
  named : Bool

/-- The fields of a record with certain names, read from an object or an array.  In an object no
such field may come twice, and every key has to be text. -/
def fields? (names : List String) : Json → Option Fields
  | .object members => do
    let given ← members.mapM fun m => m.1.map fun name => (name, m.2)
    let known := given.filter fun f => f.1 ∈ names
    if (known.map (·.1)).Pairwise (· ≠ ·) then some ⟨known, true⟩ else none
  | .array elements =>
    if elements.length ≤ names.length then some ⟨names.zip elements, false⟩ else none
  | _ => none

namespace Fields

variable {α : Type} [JsonForm α]

/-- A field that must be there, and in the form of its type. -/
def required (f : Fields) (name : String) : Option α := (f.given.lookup name).bind ofJson?

/-- A field that has a default.  If it is there it must be in the form of its type, and nothing does
not stand for the default. -/
def defaulted (f : Fields) (name : String) (default : α) : Option α :=
  match f.given.lookup name with
  | some v => ofJson? v
  | none => some default

end Fields

/-! ## Choices -/

/-- The name of a choice, and its data if there are any: a string, or an object with one member. -/
def choice? : Json → Option (String × Option Json)
  | .string (some name) => some (name, none)
  | .object [(some name, v)] => some (name, some v)
  | _ => none

/-- The name of a choice without data, where a null may stand for the data. -/
def plainChoice? (v : Json) : Option String :=
  match v.choice? with
  | some (name, none) => some name
  | some (name, some .null) => some name
  | _ => none

/-- The value that carries the name of a choice without data, out of those there are. -/
def named? {α : Type} (name : α → String) (values : List α) (v : Json) : Option α :=
  v.plainChoice?.bind fun n => values.find? fun a => name a = n

end Json

/-! ## Forms of basic types -/

instance : JsonForm Bool where
  toJson b := .bool b
  ofJson?
    | .bool b => some b
    | _ => none

instance : JsonForm UInt32 where
  toJson n := .natural n.toNat
  ofJson?
    | .natural n => if n < UInt32.size then some n.toUInt32 else none
    | _ => none

instance : JsonForm UInt64 where
  toJson n := .natural n.toNat
  ofJson?
    | .natural n => if n < UInt64.size then some n.toUInt64 else none
    | _ => none

instance : JsonForm String where
  toJson s := .string (some s)
  ofJson?
    | .string text => text
    | _ => none

instance {α : Type} [JsonForm α] : JsonForm (Option α) where
  toJson
    | some a => toJson a
    | none => .null
  ofJson?
    | .null => some none
    | v => (ofJson? v).map some

instance {α : Type} [JsonForm α] : JsonForm (List α) where
  toJson l := .array (l.map toJson)
  ofJson?
    | .array elements => elements.mapM ofJson?
    | _ => none

/-- A field that may be nothing; it may be missing in an object, but not in an array. -/
def Json.Fields.optional {α : Type} [JsonForm α] (f : Fields) (name : String) :
    Option (Option α) :=
  match f.given.lookup name with
  | some v => ofJson? v
  | none => if f.named then some none else none

end Retrace
