/-
# TOML documents

A document is read token by token, with what is still open kept on a stack.

| phase | expects |
| --- | --- |
| `line` | a key, a header, or the end of the line |
| `header` | a second bracket, or the key of a header |
| `keyPart`, `keyEnd` | a part of a key, or a dot or what ends the key |
| `headerEnd` | the second of two closing brackets |
| `memberEquals` | the equals sign of a member, on a line of its own |
| `value`, `memberValue` | the value of a line, or of a member |
| `scalar`, `scalarGap` | more of an unquoted scalar, the latter after a date and a space |
| `element`, `elementEnd` | an element of an array, or a comma; or its end |
| `member`, `memberEnd` | a member of a table in braces, or a comma; or its end |
| `lineEnd` | the end of the line |

Spaces and tabs are skipped everywhere, and ends of lines and comments between brackets and between
braces, except inside a key.  A comma may follow the last element and the last member.  Arrays and
tables in braces nest at most 80 deep, and a key has at most 80 parts.

TOML is what the specification has the configuration written in (section 8).
-/

import Retrace.Toml.Table
import Retrace.Toml.Token

namespace Retrace

namespace Toml

/-- What is still open: what it holds so far, and the key that waits for what is being read. -/
inductive Frame where
  /-- The assignment on a line, to a key. -/
  | line (key : List String)
  /-- An array: what it holds so far, the last first. -/
  | array (elements : List Value)
  /-- A table in braces: what it holds so far. -/
  | table (entries : Entries)
  /-- A table in braces that awaits the value of a key. -/
  | member (entries : Entries) (key : List String)

/-- What a key is for, since any key is read part by part before it is known what follows. -/
inductive KeyUse where
  /-- An assignment on a line. -/
  | line
  /-- A member of a table in braces. -/
  | member
  /-- The header of a table. -/
  | header
  /-- The header of one of several tables. -/
  | listHeader
deriving DecidableEq

/-- What is expected next.  A key in the making, and an unquoted scalar, are held by the phase
itself. -/
inductive Phase where
  /-- The beginning of a line. -/
  | line
  /-- What follows the first bracket of a header. -/
  | header
  /-- A part of a key, after other parts, the last first. -/
  | keyPart (use : KeyUse) (done : List String)
  /-- A dot, or what ends the key. -/
  | keyEnd (use : KeyUse) (done : List String)
  /-- The second closing bracket of a header. -/
  | headerEnd (key : List String)
  /-- The equals sign of a member, after its key and the end of a line. -/
  | memberEquals (key : List String)
  /-- The value of a line. -/
  | value
  /-- The value of a member. -/
  | memberValue
  /-- More of an unquoted scalar. -/
  | scalar (lexeme : List Char)
  /-- More of an unquoted scalar, which is a date and a space so far. -/
  | scalarGap (lexeme : List Char)
  /-- An element, or the end of the array. -/
  | element
  /-- A comma, or the end of the array. -/
  | elementEnd
  /-- A member, or the end of the table. -/
  | member
  /-- A comma, or the end of the table. -/
  | memberEnd
  /-- The end of the line. -/
  | lineEnd
deriving DecidableEq

/-- A document that has been read in part: what is complete, what is still open, and what is
expected. -/
structure Reader where
  /-- The entries so far. -/
  root : Entries := []
  /-- The header under which the lines stand. -/
  header : List String := []
  /-- What is still open, the innermost first. -/
  stack : List Frame := []
  /-- What is expected next. -/
  phase : Phase := .line

/-- How deep arrays and tables in braces may nest, and how many parts a key may have.  Beyond it a
text is refused, though it be in order. -/
def nestingLimit : Nat := 80

/-- Whether a character may stand in a key without quotes. -/
def isBare (c : Char) : Bool := c.isAlphanum || c = '_' || c = '-'

/-- The part of a key that a token is: a run of letters, digits, underscores and dashes, or a quoted
text on one line. -/
def keyPart? : Token → Option String
  | .atom value => if value.all isBare then some (String.ofList value) else none
  | .text false value => some (String.ofList value)
  | _ => none

namespace Reader

/-- Goes on to a phase, with nothing else changed. -/
def goOn (r : Reader) (phase : Phase) : Option Reader := some { r with phase }

/-- Takes a value that is complete: for the key on the line, as an element, or for the key in
braces. -/
def complete (r : Reader) (v : Value) : Option Reader :=
  match r.stack with
  | .line key :: stack => do
    let root ← Entries.assignUnder r.header key v r.root
    return { r with root, stack, phase := .lineEnd }
  | .array elements :: stack =>
    some { r with stack := .array (v :: elements) :: stack, phase := .elementEnd }
  | .member entries key :: stack => do
    let entries ← Entries.assign key v entries
    return { r with stack := .table entries :: stack, phase := .memberEnd }
  | _ => none

/-- Opens an array or a table in braces, unless too many are open around it. -/
def openFrame (r : Reader) (frame : Frame) (phase : Phase) : Option Reader :=
  if r.stack.length ≤ nestingLimit then some { r with stack := frame :: r.stack, phase } else none

/-- Takes the first token of a value, which is all of it only if the value is a quoted text. -/
def beginValue (r : Reader) : Token → Option Reader
  | .text _ value => r.complete (.text (String.ofList value))
  | .atom value => r.goOn (.scalar value)
  | .openBracket => r.openFrame (.array []) .element
  | .openBrace => r.openFrame (.table []) .member
  | _ => none

/-- Ends an array or a table in braces, and takes it as a value. -/
def closeFrame (r : Reader) : Option Reader :=
  match r.stack with
  | .array elements :: stack => { r with stack }.complete (.array elements.reverse)
  | .table entries :: stack => { r with stack }.complete (.table .inline entries)
  | _ => none

/-- Awaits the value of a key that has come to its end, on a line or in braces. -/
def awaitValue (r : Reader) (use : KeyUse) (key : List String) : Option Reader :=
  match use, r.stack with
  | .line, stack => some { r with stack := .line key :: stack, phase := .value }
  | .member, .table entries :: stack =>
    some { r with stack := .member entries key :: stack, phase := .memberValue }
  | _, _ => none

/-- Takes a token that is no more of an unquoted scalar, if it is one that may come next. -/
def stepPlain (r : Reader) (t : Token) : Option Reader :=
  match r.phase, t with
  | .header, .openBracket => r.goOn (.keyPart .listHeader [])
  | .header, .space | .header, .tab => r.goOn (.keyPart .header [])
  | .header, t => (keyPart? t).bind fun part => r.goOn (.keyEnd .header [part])
  | .headerEnd key, .closeBracket => do
    let root ← Entries.extend key r.root
    return { r with root, header := key, phase := .lineEnd }
  | .headerEnd _, _ => none
  | _, .space | _, .tab => some r
  | .line, .newline | .line, .comment => some r
  | .line, .openBracket => r.goOn .header
  | .line, t => (keyPart? t).bind fun part => r.goOn (.keyEnd .line [part])
  | .keyPart use done, t => (keyPart? t).bind fun part => r.goOn (.keyEnd use (part :: done))
  | .keyEnd use done, .dot =>
    if done.length < nestingLimit then r.goOn (.keyPart use done) else none
  | .keyEnd use done, .equals => r.awaitValue use done.reverse
  | .keyEnd .member done, .newline | .keyEnd .member done, .comment =>
    r.goOn (.memberEquals done.reverse)
  | .keyEnd .header done, .closeBracket => do
    let root ← Entries.define done.reverse r.root
    return { r with root, header := done.reverse, phase := .lineEnd }
  | .keyEnd .listHeader done, .closeBracket => r.goOn (.headerEnd done.reverse)
  | .memberEquals _, .newline | .memberEquals _, .comment => some r
  | .memberEquals key, .equals => r.awaitValue .member key
  | .value, t => r.beginValue t
  | .memberValue, .newline | .memberValue, .comment => some r
  | .memberValue, t => r.beginValue t
  | .element, .newline | .element, .comment => some r
  | .element, .closeBracket => r.closeFrame
  | .element, t => r.beginValue t
  | .elementEnd, .newline | .elementEnd, .comment => some r
  | .elementEnd, .comma => r.goOn .element
  | .elementEnd, .closeBracket => r.closeFrame
  | .member, .newline | .member, .comment => some r
  | .member, .closeBrace => r.closeFrame
  | .member, t => (keyPart? t).bind fun part => r.goOn (.keyEnd .member [part])
  | .memberEnd, .newline | .memberEnd, .comment => some r
  | .memberEnd, .comma => r.goOn .member
  | .memberEnd, .closeBrace => r.closeFrame
  | .lineEnd, .comment => some r
  | .lineEnd, .newline => r.goOn .line
  | _, _ => none

/-- Takes a scalar that has come to its end, and the token after it, which ended it. -/
def endScalar (r : Reader) (lexeme : List Char) (t : Token) : Option Reader := do
  let value ← scalar? lexeme
  let r ← r.complete (.scalar value)
  r.stepPlain t

/-- Takes a token, if it is one that may come next.  Only an unquoted scalar goes on over several
tokens. -/
def step (r : Reader) (t : Token) : Option Reader :=
  match r.phase, t with
  | .scalar lexeme, .atom more => r.goOn (.scalar (lexeme ++ more))
  | .scalar lexeme, .dot => r.goOn (.scalar (lexeme ++ ['.']))
  | .scalar lexeme, .space =>
    if isDate lexeme then r.goOn (.scalarGap lexeme) else r.endScalar lexeme t
  | .scalar lexeme, t => r.endScalar lexeme t
  | .scalarGap lexeme, .atom more => r.goOn (.scalar (lexeme ++ ' ' :: more))
  | .scalarGap lexeme, t => r.endScalar lexeme t
  | _, t => r.stepPlain t

end Reader

/-- The entries of the root table of a text; nothing if the text is not in order.  The last line
need not be ended. -/
def parse? (text : String) : Option Entries := do
  let tokens ← tokens? (dropByteOrderMark text.toList)
  let r ← (tokens ++ [Token.newline]).foldlM Reader.step {}
  if r.phase = .line then some r.root else none

end Toml

end Retrace
