/-
# The tokens of JSON

| token | written |
| --- | --- |
| brackets, braces, comma, colon | as they are |
| `null`, `bool` | as words |
| `natural` | a number without sign, fraction and exponent |
| `number` | any other number; nothing here reads its value, so its digits are kept as they are |
| `string` | characters between quotes |

A string may spell surrogates that do not pair up.  Such a string is no text; it does no harm as
long as nobody reads it.

In a text that is written only quotes, backslashes and controls below U+0020 are escaped.

JSON is what the specification has arenas described in (section 6).
-/

import Retrace.Text.Hex

namespace Retrace

namespace Json

/-- A token of a JSON text: a sign of structure, or a scalar that is complete in itself. -/
inductive Token where
  /-- An opening bracket. -/
  | openArray
  /-- A closing bracket. -/
  | closeArray
  /-- An opening brace. -/
  | openObject
  /-- A closing brace. -/
  | closeObject
  /-- A comma. -/
  | comma
  /-- A colon. -/
  | colon
  /-- The word for nothing. -/
  | null
  /-- A truth value. -/
  | bool (value : Bool)
  /-- A number without sign, fraction and exponent. -/
  | natural (value : Nat)
  /-- Any other number, as it is written. -/
  | number (lexeme : String)
  /-- A string, if it is text. -/
  | string (text : Option String)
deriving DecidableEq

/-! ## Writing -/

/-- A character inside quotes, as it is written: with a letter after a backslash if it has one, as a
code in hexadecimal if it is another control, else as it is. -/
def escape (c : Char) : List Char :=
  if c = '"' then ['\\', '"']
  else if c = '\\' then ['\\', '\\']
  else if c = '\x08' then ['\\', 'b']
  else if c = '\x0c' then ['\\', 'f']
  else if c = '\n' then ['\\', 'n']
  else if c = '\r' then ['\\', 'r']
  else if c = '\t' then ['\\', 't']
  else if c < ' ' then
    ['\\', 'u', '0', '0', Nat.digitChar (c.toNat / 16), Nat.digitChar (c.toNat % 16)]
  else [c]

/-- A text between quotes.  Anything outside of ASCII stands there as it is. -/
def quoted (text : List Char) : List Char := '"' :: (text.flatMap escape ++ ['"'])

/-- The characters of a token; of the strings that are no text one stands for all, for nobody can
tell them apart by what was read. -/
def Token.chars : Token → List Char
  | openArray => ['[']
  | closeArray => [']']
  | openObject => ['{']
  | closeObject => ['}']
  | comma => [',']
  | colon => [':']
  | null => ['n', 'u', 'l', 'l']
  | bool true => ['t', 'r', 'u', 'e']
  | bool false => ['f', 'a', 'l', 's', 'e']
  | natural n => Nat.toDigits 10 n
  | number lexeme => lexeme.toList
  | string (some text) => quoted text.toList
  | string none => ['"', '\\', 'u', 'd', '8', '0', '0', '"']

/-- Tokens without space between them.  Reading them back gives the same tokens, unless two numbers
or two words stand side by side. -/
def compact (tokens : List Token) : List Char := tokens.flatMap Token.chars

/-- A new line, indented by two spaces a level. -/
def newLine (level : Nat) : List Char := '\n' :: List.replicate (2 * level) ' '

/-- Tokens on lines: each element and each member has its own, a level deeper than what it belongs
to, and an empty array or object has none. -/
def indented (level : Nat) : List Token → List Char
  | [] => []
  | .openArray :: .closeArray :: rest => '[' :: ']' :: indented level rest
  | .openObject :: .closeObject :: rest => '{' :: '}' :: indented level rest
  | .openArray :: rest => '[' :: (newLine (level + 1) ++ indented (level + 1) rest)
  | .openObject :: rest => '{' :: (newLine (level + 1) ++ indented (level + 1) rest)
  | .closeArray :: rest => newLine (level - 1) ++ ']' :: indented (level - 1) rest
  | .closeObject :: rest => newLine (level - 1) ++ '}' :: indented (level - 1) rest
  | .comma :: rest => ',' :: (newLine level ++ indented level rest)
  | .colon :: rest => ':' :: ' ' :: indented level rest
  | t :: rest => t.chars ++ indented level rest

/-! ## Strings -/

/-- What a letter after a backslash stands for; a code in hexadecimal is not among them
(`codePoints?`). -/
def escaped? : Char → Option Char
  | '"' => some '"'
  | '\\' => some '\\'
  | '/' => some '/'
  | 'b' => some '\x08'
  | 'f' => some '\x0c'
  | 'n' => some '\n'
  | 'r' => some '\r'
  | 't' => some '\t'
  | _ => none

/-- The code points of a string from after its opening quote, and what follows its closing quote.
Surrogates are code points of their own, and controls below U+0020 are refused. -/
def codePoints? : List Char → Option (List Nat × List Char)
  | '"' :: rest => some ([], rest)
  | '\\' :: 'u' :: a :: b :: c :: d :: rest => do
    let n ← hexNumber? [a, b, c, d]
    let (points, rest) ← codePoints? rest
    return (n :: points, rest)
  | '\\' :: e :: rest => do
    let c ← escaped? e
    let (points, rest) ← codePoints? rest
    return (c.toNat :: points, rest)
  | c :: rest =>
    if c < ' ' ∨ c = '\\' then none
    else (codePoints? rest).map fun (points, rest) => (c.toNat :: points, rest)
  | [] => none

/-- Whether a code point is the first half of a surrogate pair. -/
def isHighSurrogate (n : Nat) : Bool := 0xD800 ≤ n ∧ n < 0xDC00

/-- Whether a code point is the second half of a surrogate pair. -/
def isLowSurrogate (n : Nat) : Bool := 0xDC00 ≤ n ∧ n < 0xE000

/-- The text of code points: surrogates must come in pairs, each of which is one character.  Half a
pair on its own makes the whole no text. -/
def textOf? : List Nat → Option (List Char)
  | [] => some []
  | [n] => if isHighSurrogate n || isLowSurrogate n then none else some [Char.ofNat n]
  | n :: m :: rest =>
    if isHighSurrogate n then
      if isLowSurrogate m then
        (textOf? rest).map (Char.ofNat (0x10000 + (n - 0xD800) * 0x400 + (m - 0xDC00)) :: ·)
      else none
    else if isLowSurrogate n then none
    else (textOf? (m :: rest)).map (Char.ofNat n :: ·)

/-! ## Numbers -/

/-- The whole part of a number, with its sign: no digit follows a leading zero. -/
def whole : List Char → List Char
  | '-' :: '0' :: _ => ['-', '0']
  | '-' :: rest =>
    let digits := rest.takeWhile Char.isDigit
    if digits = [] then [] else '-' :: digits
  | '0' :: _ => ['0']
  | s => s.takeWhile Char.isDigit

/-- The fraction of a number, with its point; there may be none. -/
def fraction : List Char → List Char
  | '.' :: rest =>
    let digits := rest.takeWhile Char.isDigit
    if digits = [] then [] else '.' :: digits
  | _ => []

/-- The exponent of a number, with its letter and sign; there may be none. -/
def exponent : List Char → List Char
  | e :: rest =>
    if e = 'e' ∨ e = 'E' then
      let sign := match rest with
        | '+' :: _ => ['+']
        | '-' :: _ => ['-']
        | _ => []
      let digits := (rest.drop sign.length).takeWhile Char.isDigit
      if digits = [] then [] else e :: (sign ++ digits)
    else []
  | [] => []

/-- The number at the head of a text, and how long it is.  It is as long as can be, and what follows
it need not make sense. -/
def number? (s : List Char) : Option (Token × Nat) :=
  let units := whole s
  if units = [] then none
  else
    let decimals := fraction (s.drop units.length)
    let power := exponent (s.drop (units.length + decimals.length))
    let lexeme := units ++ decimals ++ power
    let token := if lexeme.all Char.isDigit then Token.natural (Nat.ofDigitChars 10 lexeme 0)
      else .number (String.ofList lexeme)
    some (token, lexeme.length)

/-! ## Reading -/

/-- The token that begins with a character, and what follows it.  A word is not asked to end where
its letters do. -/
def token? (c : Char) (rest : List Char) : Option (Token × List Char) :=
  match c, rest with
  | '[', _ => some (.openArray, rest)
  | ']', _ => some (.closeArray, rest)
  | '{', _ => some (.openObject, rest)
  | '}', _ => some (.closeObject, rest)
  | ',', _ => some (.comma, rest)
  | ':', _ => some (.colon, rest)
  | 'n', 'u' :: 'l' :: 'l' :: rest => some (.null, rest)
  | 't', 'r' :: 'u' :: 'e' :: rest => some (.bool true, rest)
  | 'f', 'a' :: 'l' :: 's' :: 'e' :: rest => some (.bool false, rest)
  | '"', _ => (codePoints? rest).map fun (points, rest) =>
    (.string ((textOf? points).map String.ofList), rest)
  | _, _ => (number? (c :: rest)).map fun (t, length) => (t, rest.drop (length - 1))

theorem length_le_of_codePoints? {s : List Char} {points : List Nat} {rest : List Char}
    (h : codePoints? s = some (points, rest)) : rest.length ≤ s.length := by
  fun_induction codePoints? s generalizing points rest with
  | case1 => simp_all
  | case2 a b c d r ih =>
    simp only [Option.bind_eq_bind, Option.bind_eq_some_iff] at h
    obtain ⟨_, _, ⟨ps, r'⟩, h1, h2⟩ := h
    have := ih h1
    simp_all
    omega
  | case3 e r _ ih =>
    simp only [Option.bind_eq_bind, Option.bind_eq_some_iff] at h
    obtain ⟨_, _, ⟨ps, r'⟩, h1, h2⟩ := h
    have := ih h1
    simp_all
    omega
  | case4 => simp at h
  | case5 c r _ _ _ _ ih =>
    simp only [Option.map_eq_some_iff] at h
    obtain ⟨⟨ps, r'⟩, h1, h2⟩ := h
    have := ih h1
    simp_all
    omega
  | case6 => simp at h

theorem length_le_of_token? {c : Char} {s : List Char} {t : Token} {rest : List Char}
    (h : token? c s = some (t, rest)) : rest.length ≤ s.length := by
  unfold token? at h
  split at h
  case h_10 =>
    simp only [Option.map_eq_some_iff] at h
    obtain ⟨⟨ps, r⟩, h1, h2⟩ := h
    have := length_le_of_codePoints? h1
    simp_all
  case h_11 =>
    simp only [Option.map_eq_some_iff] at h
    obtain ⟨⟨t', n⟩, _, h2⟩ := h
    simp only [Prod.mk.injEq] at h2
    rw [← h2.2, List.length_drop]
    omega
  all_goals
    simp only [Option.some.injEq, Prod.mk.injEq] at h
    obtain ⟨_, rfl⟩ := h
    simp +arith

/-- Whether a character may stand between tokens. -/
def isSpace (c : Char) : Bool := c = ' ' ∨ c = '\n' ∨ c = '\r' ∨ c = '\t'

/-- The tokens of a text, with the space between them left out; nothing if something in it begins no
token. -/
def tokens? : List Char → Option (List Token)
  | [] => some []
  | c :: s =>
    if isSpace c then tokens? s
    else match _h : token? c s with
      | some (t, rest) => (tokens? rest).map (t :: ·)
      | none => none
termination_by s => s.length
decreasing_by
  · simp
  · have := length_le_of_token? _h
    simp only [List.length_cons]
    omega

end Json

end Retrace
