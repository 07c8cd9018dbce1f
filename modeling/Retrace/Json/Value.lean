/-
# JSON values

A value is read from its tokens one by one, with what is still open kept on a stack, so that no
nesting is too deep.

| reader | expects |
| --- | --- |
| `value` | a value |
| `first` | the first element of an array, or its end |
| `firstKey` | the first key of an object, or its end |
| `key` | a further key |
| `colon` | the colon after a key |
| `afterElement`, `afterMember` | a comma, or the end of what was opened last |
| `done` | nothing more |
-/

import Retrace.Json.Token

namespace Retrace

/-- A JSON value, as it was written.  Strings and keys that are not text are there without their
text, and numbers that nobody reads without their value. -/
inductive Json where
  /-- Nothing. -/
  | null
  /-- A truth value. -/
  | bool (value : Bool)
  /-- A number without sign, fraction and exponent. -/
  | natural (value : Nat)
  /-- Any other number, as it is written. -/
  | number (lexeme : String)
  /-- A string, if it is text. -/
  | string (text : Option String)
  /-- Values in order. -/
  | array (elements : List Json)
  /-- Values under keys, in the order written and with repetitions. -/
  | object (members : List (Option String × Json))

namespace Json

/-! ## Writing -/

mutual

/-- The tokens of a value. -/
def tokens : Json → List Token
  | .null => [.null]
  | .bool b => [.bool b]
  | .natural n => [.natural n]
  | .number lexeme => [.number lexeme]
  | .string text => [.string text]
  | .array [] => [.openArray, .closeArray]
  | .array (v :: rest) => .openArray :: (v.tokens ++ elementTokens rest)
  | .object [] => [.openObject, .closeObject]
  | .object ((k, v) :: rest) =>
    .openObject :: .string k :: .colon :: (v.tokens ++ memberTokens rest)

/-- The tokens of further elements, and the end of the array. -/
def elementTokens : List Json → List Token
  | [] => [.closeArray]
  | v :: rest => .comma :: (v.tokens ++ elementTokens rest)

/-- The tokens of further members, and the end of the object. -/
def memberTokens : List (Option String × Json) → List Token
  | [] => [.closeObject]
  | (k, v) :: rest => .comma :: .string k :: .colon :: (v.tokens ++ memberTokens rest)

end

/-- A value as text without space, as one line that any reader of JSON takes. -/
def print (v : Json) : String := String.ofList (compact v.tokens)

/-- A value as text on lines, indented by two spaces a level, for people to look at. -/
def printIndented (v : Json) : String := String.ofList (indented 0 v.tokens)

/-! ## Reading -/

/-- An array or object that is still open: what it holds so far, the last first, and for an object
the key whose value is being read. -/
inductive Frame where
  /-- An array. -/
  | array (elements : List Json)
  /-- An object that awaits the value of a key. -/
  | object (members : List (Option String × Json)) (key : Option String)

/-- What has been read so far, and what is to come.  What is still open is on a stack, the innermost
first. -/
inductive Reader where
  /-- A value is to come. -/
  | value (stack : List Frame)
  /-- The first element of an array is to come, or its end. -/
  | first (stack : List Frame)
  /-- The first key of an object is to come, or its end. -/
  | firstKey (stack : List Frame)
  /-- A further key of an object is to come. -/
  | key (members : List (Option String × Json)) (stack : List Frame)
  /-- The colon after a key is to come. -/
  | colon (members : List (Option String × Json)) (key : Option String) (stack : List Frame)
  /-- A comma is to come, or the end of an array. -/
  | afterElement (elements : List Json) (stack : List Frame)
  /-- A comma is to come, or the end of an object. -/
  | afterMember (members : List (Option String × Json)) (stack : List Frame)
  /-- The value is complete. -/
  | done (value : Json)

namespace Reader

/-- Takes a value that is complete: as the next element or member of what is open around it, or as
the whole. -/
def complete (v : Json) : List Frame → Reader
  | [] => .done v
  | .array elements :: stack => .afterElement (v :: elements) stack
  | .object members k :: stack => .afterMember ((k, v) :: members) stack

/-- Takes the first token of a value, which is all of it unless it opens an array or object. -/
def begin (stack : List Frame) : Token → Option Reader
  | .null => some (complete .null stack)
  | .bool b => some (complete (.bool b) stack)
  | .natural n => some (complete (.natural n) stack)
  | .number lexeme => some (complete (.number lexeme) stack)
  | .string text => some (complete (.string text) stack)
  | .openArray => some (.first stack)
  | .openObject => some (.firstKey stack)
  | _ => none

/-- Takes a token, if it is one that may come next; else the text is no value. -/
def step : Reader → Token → Option Reader
  | .value stack, t => begin stack t
  | .first stack, .closeArray => some (complete (.array []) stack)
  | .first stack, t => begin (.array [] :: stack) t
  | .firstKey stack, .closeObject => some (complete (.object []) stack)
  | .firstKey stack, .string k => some (.colon [] k stack)
  | .key members stack, .string k => some (.colon members k stack)
  | .colon members k stack, .colon => some (.value (.object members k :: stack))
  | .afterElement elements stack, .comma => some (.value (.array elements :: stack))
  | .afterElement elements stack, .closeArray => some (complete (.array elements.reverse) stack)
  | .afterMember members stack, .comma => some (.key members stack)
  | .afterMember members stack, .closeObject => some (complete (.object members.reverse) stack)
  | _, _ => none

/-- The value, if it is complete. -/
def result? : Reader → Option Json
  | .done v => some v
  | _ => none

end Reader

/-- The value of tokens; nothing if they are not exactly one value. -/
def ofTokens? (tokens : List Token) : Option Json :=
  (tokens.foldlM Reader.step (.value [])).bind Reader.result?

/-- The value of a text; nothing if the text is not exactly one value, with space around it. -/
def parse? (text : String) : Option Json := (tokens? text.toList).bind ofTokens?

end Json

end Retrace
