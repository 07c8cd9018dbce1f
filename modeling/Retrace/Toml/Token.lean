/-
# The tokens of TOML

| token | written |
| --- | --- |
| brackets, braces, dot, comma, equals sign | as they are |
| `space`, `tab` | one of them |
| `newline` | a line feed, or a carriage return and a line feed |
| `comment` | from a number sign to the end of the line, without controls |
| `text` | a quoted text |
| `atom` | the longest run of anything else |

A carriage return has no other place, and a byte order mark may open the text.
-/

import Retrace.Toml.Quoted

namespace Retrace

namespace Toml

/-- A token of a TOML text.  Where one part of a number or a moment ends and the next begins is left
to the reader of scalars, so that an atom is only a run of characters. -/
inductive Token where
  /-- An opening bracket. -/
  | openBracket
  /-- A closing bracket. -/
  | closeBracket
  /-- An opening brace. -/
  | openBrace
  /-- A closing brace. -/
  | closeBrace
  /-- A dot. -/
  | dot
  /-- A comma. -/
  | comma
  /-- An equals sign. -/
  | equals
  /-- A space. -/
  | space
  /-- A tab. -/
  | tab
  /-- The end of a line. -/
  | newline
  /-- A comment. -/
  | comment
  /-- A quoted text, and whether its quotes allow several lines. -/
  | text (multiline : Bool) (value : List Char)
  /-- A run of other characters. -/
  | atom (value : List Char)
deriving DecidableEq

/-- Whether a character begins a token of its own and so ends an atom. -/
def endsAtom (c : Char) : Bool :=
  ['[', ']', '{', '}', '.', ',', '=', ' ', '\t', '\n', '\r', '#', '"', '\''].contains c

/-- The token that begins with a character, and what follows it; nothing if the character has no
place there. -/
def token? (c : Char) (s : List Char) : Option (Token × List Char) :=
  match c with
  | '[' => some (.openBracket, s)
  | ']' => some (.closeBracket, s)
  | '{' => some (.openBrace, s)
  | '}' => some (.closeBrace, s)
  | '.' => some (.dot, s)
  | ',' => some (.comma, s)
  | '=' => some (.equals, s)
  | ' ' => some (.space, s)
  | '\t' => some (.tab, s)
  | '\n' => some (.newline, s)
  | '\r' => match s with
    | '\n' :: rest => some (.newline, rest)
    | _ => none
  | '#' => some (.comment, s.dropWhile fun d => !isControl d)
  | '"' => (quotedText? '"' s).map fun (t, rest) => (.text t.1 t.2, rest)
  | '\'' => (quotedText? '\'' s).map fun (t, rest) => (.text t.1 t.2, rest)
  | _ =>
    some (.atom (c :: s.takeWhile fun d => !endsAtom d), s.dropWhile fun d => !endsAtom d)

theorem length_dropWhile_le {α : Type} (p : α → Bool) (l : List α) :
    (l.dropWhile p).length ≤ l.length :=
  (List.dropWhile_sublist p).length_le

theorem length_le_of_token? {c : Char} {s : List Char} {t : Token} {rest : List Char}
    (h : token? c s = some (t, rest)) : rest.length ≤ s.length := by
  have quoted {q : Char}
      (h : (quotedText? q s).map (fun (t, rest) => (Token.text t.1 t.2, rest)) = some (t, rest)) :
      rest.length ≤ s.length := by
    simp only [Option.map_eq_some_iff, Prod.mk.injEq] at h
    obtain ⟨⟨u, r⟩, h1, _, rfl⟩ := h
    exact length_le_of_quotedText? h1
  unfold token? at h
  split at h
  case h_13 => exact quoted h
  case h_14 => exact quoted h
  case h_11 =>
    split at h
    · simp only [Option.some.injEq, Prod.mk.injEq] at h
      simp [← h.2]
    · simp at h
  all_goals
    simp only [Option.some.injEq, Prod.mk.injEq] at h
    obtain ⟨_, rfl⟩ := h
    simp [length_dropWhile_le]

/-- The tokens of a text, spaces and comments included, for an unquoted scalar may have a space in
it. -/
def tokens? : List Char → Option (List Token)
  | [] => some []
  | c :: s =>
    match _h : token? c s with
    | some (t, rest) => (tokens? rest).map (t :: ·)
    | none => none
termination_by s => s.length
decreasing_by
  have := length_le_of_token? _h
  simp only [List.length_cons]
  omega

/-- A text without the byte order mark that may open it. -/
def dropByteOrderMark : List Char → List Char
  | '\uFEFF' :: rest => rest
  | s => s

end Toml

end Retrace
