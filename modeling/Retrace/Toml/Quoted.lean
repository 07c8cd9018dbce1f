/-
# Quoted text in TOML

| style | between | holds |
| --- | --- | --- |
| basic | `"` | escapes, no line breaks |
| literal | `'` | everything as it is, no line breaks |
| multi-line basic | `"""` | escapes and line breaks |
| multi-line literal | `'''` | everything as it is, and line breaks |

Controls other than the tab are not allowed, nor is a quote of the style's own kind, save that up to
two in a row may stand in a multi-line text and at its end.  A line break right after the opening of
a multi-line text does not belong to it.

A text is written in the first style that needs no escapes for it, basic before literal and one line
before several; if every style needs some, in a basic one (`styleOf`).
-/

import Retrace.Text.Hex

namespace Retrace

namespace Toml

/-- Whether a character is a control that may not stand in a text: not a tab. -/
def isControl (c : Char) : Bool := (c < ' ' ∧ c ≠ '\t') ∨ c = '\x7f'

/-! ## Reading -/

/-- The character with a number of that many hexadecimal digits; surrogates are no characters. -/
def numberedChar? (digits : Nat) (s : List Char) : Option Char :=
  if digits ≤ s.length then
    (hexNumber? (s.take digits)).bind fun n => if n.isValidChar then some (Char.ofNat n) else none
  else none

/-- What follows a backslash: the character meant, and how many spell it; nothing if it is no
escape. -/
def escape? : List Char → Option (Char × Nat)
  | 'b' :: _ => some ('\x08', 1)
  | 'e' :: _ => some ('\x1b', 1)
  | 'f' :: _ => some ('\x0c', 1)
  | 'n' :: _ => some ('\n', 1)
  | 'r' :: _ => some ('\r', 1)
  | 't' :: _ => some ('\t', 1)
  | '"' :: _ => some ('"', 1)
  | '\\' :: _ => some ('\\', 1)
  | 'x' :: rest => (numberedChar? 2 rest).map fun c => (c, 3)
  | 'u' :: rest => (numberedChar? 4 rest).map fun c => (c, 5)
  | 'U' :: rest => (numberedChar? 8 rest).map fun c => (c, 9)
  | _ => none

/-- A text on one line from after its opening quote, and what follows its closing quote.  Escapes
count in basic texts only. -/
def lineText? (quote : Char) : List Char → Option (List Char × List Char)
  | [] => none
  | c :: rest =>
    if c = quote then some ([], rest)
    else if c = '\\' ∧ quote = '"' then do
      let (e, length) ← escape? rest
      let (text, rest) ← lineText? quote (rest.drop length)
      return (e :: text, rest)
    else if isControl c then none
    else do
      let (text, rest) ← lineText? quote rest
      return (c :: text, rest)
termination_by s => s.length
decreasing_by
  · simp only [List.length_drop, List.length_cons]
    omega
  · simp

/-- What is left after spaces, tabs and line breaks. -/
def dropBlank : List Char → List Char
  | ' ' :: rest => dropBlank rest
  | '\t' :: rest => dropBlank rest
  | '\n' :: rest => dropBlank rest
  | '\r' :: '\n' :: rest => dropBlank rest
  | s => s

theorem length_dropBlank_le (s : List Char) : (dropBlank s).length ≤ s.length := by
  fun_induction dropBlank s with
  | case5 => exact Nat.le_refl _
  | _ => simp only [List.length_cons]; omega

/-- Whether a line ends here, apart from spaces and tabs. -/
def endsLine (s : List Char) : Bool :=
  match s.dropWhile fun c => c = ' ' ∨ c = '\t' with
  | '\n' :: _ => true
  | '\r' :: '\n' :: _ => true
  | _ => false

/-- A text on several lines from after its opening, and what follows its closing.  Five quotes in a
row are two and the closing.  A backslash at the end of a line goes with all blanks after it. -/
def linesText? (quote : Char) : List Char → Option (List Char × List Char)
  | [] => none
  | c :: rest =>
    if c = quote then
      let more := (rest.takeWhile (· = quote)).length
      if 2 ≤ more then some (List.replicate (min more 4 - 2) quote, rest.drop (min more 4))
      else do
        let (text, rest) ← linesText? quote rest
        return (c :: text, rest)
    else if c = '\\' ∧ quote = '"' then
      if endsLine rest then linesText? quote (dropBlank rest)
      else do
        let (e, length) ← escape? rest
        let (text, rest) ← linesText? quote (rest.drop length)
        return (e :: text, rest)
    else if isControl c ∧ c ≠ '\n' ∧ ¬(c = '\r' ∧ rest.head? = some '\n') then none
    else do
      let (text, rest) ← linesText? quote rest
      return (c :: text, rest)
termination_by s => s.length
decreasing_by
  · simp
  · have := length_dropBlank_le rest
    simp only [List.length_cons]
    omega
  · simp only [List.length_drop, List.length_cons]
    omega
  · simp

/-- A multi-line text without the line break right after its opening. -/
def dropLineBreak : List Char → List Char
  | '\n' :: rest => rest
  | '\r' :: '\n' :: rest => rest
  | s => s

/-- A text from after its first quote, whether it may have several lines, and what follows it.  Three
quotes open several lines, two are an empty text. -/
def quotedText? (quote : Char) (s : List Char) : Option ((Bool × List Char) × List Char) :=
  if s.take 2 = [quote, quote] then
    (linesText? quote (dropLineBreak (s.drop 2))).map fun (text, rest) => ((true, text), rest)
  else (lineText? quote s).map fun (text, rest) => ((false, text), rest)

theorem length_le_of_lineText? {quote : Char} {s text rest : List Char}
    (h : lineText? quote s = some (text, rest)) : rest.length ≤ s.length := by
  fun_induction lineText? quote s generalizing text rest with
  | case1 => simp at h
  | case2 => simp_all
  | case3 c r _ _ ih =>
    simp only [Option.bind_eq_bind, Option.bind_eq_some_iff, Option.pure_def, Option.some.injEq,
      Prod.mk.injEq] at h
    obtain ⟨⟨e, n⟩, _, ⟨t, r'⟩, h1, _, rfl⟩ := h
    have := ih n h1
    rw [List.length_drop] at this
    simp only [List.length_cons]
    omega
  | case4 => simp at h
  | case5 c r _ _ _ ih =>
    simp only [Option.bind_eq_bind, Option.bind_eq_some_iff, Option.pure_def, Option.some.injEq,
      Prod.mk.injEq] at h
    obtain ⟨⟨t, r'⟩, h1, _, rfl⟩ := h
    exact Nat.le_succ_of_le (ih h1)

theorem length_le_of_linesText? {quote : Char} {s text rest : List Char}
    (h : linesText? quote s = some (text, rest)) : rest.length ≤ s.length := by
  fun_induction linesText? quote s generalizing text rest with
  | case1 => simp at h
  | case2 r =>
    simp only [Option.some.injEq, Prod.mk.injEq] at h
    rw [← h.2, List.length_drop, List.length_cons]
    omega
  | case3 =>
    rename_i ih
    simp only [Option.bind_eq_bind, Option.bind_eq_some_iff, Option.pure_def, Option.some.injEq,
      Prod.mk.injEq] at h
    obtain ⟨⟨t, r'⟩, h1, _, rfl⟩ := h
    exact Nat.le_succ_of_le (ih h1)
  | case4 c r _ _ _ ih =>
    have := ih h
    have := length_dropBlank_le r
    simp only [List.length_cons]
    omega
  | case5 c r _ _ _ ih =>
    simp only [Option.bind_eq_bind, Option.bind_eq_some_iff, Option.pure_def, Option.some.injEq,
      Prod.mk.injEq] at h
    obtain ⟨⟨e, n⟩, _, ⟨t, r'⟩, h1, _, rfl⟩ := h
    have := ih n h1
    rw [List.length_drop] at this
    simp only [List.length_cons]
    omega
  | case6 => simp at h
  | case7 c r _ _ _ ih =>
    simp only [Option.bind_eq_bind, Option.bind_eq_some_iff, Option.pure_def, Option.some.injEq,
      Prod.mk.injEq] at h
    obtain ⟨⟨t, r'⟩, h1, _, rfl⟩ := h
    exact Nat.le_succ_of_le (ih h1)

theorem length_dropLineBreak_le (s : List Char) : (dropLineBreak s).length ≤ s.length := by
  unfold dropLineBreak
  split
  · simp
  · simp only [List.length_cons]
    omega
  · exact Nat.le_refl _

theorem length_le_of_quotedText? {quote : Char} {s : List Char} {text : Bool × List Char}
    {rest : List Char} (h : quotedText? quote s = some (text, rest)) : rest.length ≤ s.length := by
  unfold quotedText? at h
  split at h <;> simp only [Option.map_eq_some_iff] at h
  · obtain ⟨⟨t, r⟩, h1, h2⟩ := h
    have h3 := length_le_of_linesText? h1
    have h4 := length_dropLineBreak_le (s.drop 2)
    simp only [Prod.mk.injEq] at h2
    rw [List.length_drop] at h4
    rw [← h2.2]
    omega
  · obtain ⟨⟨t, r⟩, h1, h2⟩ := h
    have h3 := length_le_of_lineText? h1
    simp only [Prod.mk.injEq] at h2
    rw [← h2.2]
    exact h3

/-! ## Writing -/

/-- How a text is quoted, by whether it may have several lines and whether a backslash begins an
escape. -/
inductive QuoteStyle where
  /-- On one line, with escapes. -/
  | basic
  /-- On one line, as it is. -/
  | literal
  /-- On several lines, with escapes. -/
  | basicLines
  /-- On several lines, as it is. -/
  | literalLines
deriving DecidableEq

/-- Counts one more character: how many of one kind stand in a row here, and the most of them so
far. -/
def countRun (c : Char) (p : Nat × Nat) (d : Char) : Nat × Nat :=
  if d = c then (p.1 + 1, max p.2 (p.1 + 1)) else (0, p.2)

/-- The most of one character in a row, anywhere in a text. -/
def longestRun (c : Char) (s : List Char) : Nat := (s.foldl (countRun c) (0, 0)).2

/-- The style in which a text is written: the first that needs no escapes for it, else a basic
one. -/
def styleOf (s : List Char) : QuoteStyle :=
  let clean := !s.any fun c => isControl c && c ≠ '\n'
  let lines := s.contains '\n'
  let plain := clean && !s.contains '\\'
  if plain && !lines && longestRun '"' s == 0 then .basic
  else if clean && !lines && longestRun '\'' s == 0 then .literal
  else if plain && longestRun '"' s ≤ 2 then .basicLines
  else if clean && longestRun '\'' s ≤ 2 then .literalLines
  else if lines then .basicLines
  else .basic

/-- A hexadecimal digit, in upper case. -/
def upperHexDigit (n : Nat) : Char := (Nat.digitChar n).toUpper

/-- A character of a basic text: with a letter after a backslash if it has one, as a code in
hexadecimal if it is another control, else as it is. -/
def basicChar (c : Char) : List Char :=
  if c = '"' then ['\\', '"']
  else if c = '\\' then ['\\', '\\']
  else if c = '\x08' then ['\\', 'b']
  else if c = '\t' then ['\\', 't']
  else if c = '\n' then ['\\', 'n']
  else if c = '\x0c' then ['\\', 'f']
  else if c = '\r' then ['\\', 'r']
  else if isControl c then
    ['\\', 'u', '0', '0', upperHexDigit (c.toNat / 16), upperHexDigit (c.toNat % 16)]
  else [c]

/-- The characters of a multi-line basic text after so many quotes in a row: the third one in a row
is escaped, and line breaks stand as they are. -/
def basicLinesChars (quotes : Nat) : List Char → List Char
  | [] => []
  | c :: rest =>
    if c = '"' then
      if quotes = 2 then '\\' :: '"' :: basicLinesChars 0 rest
      else '"' :: basicLinesChars (quotes + 1) rest
    else if c = '\n' then '\n' :: basicLinesChars 0 rest
    else basicChar c ++ basicLinesChars 0 rest

/-- A text in quotes, of whichever style suits it.  A text with line breaks begins on the line after
the opening. -/
def quote (s : List Char) : List Char :=
  let opening := if s.contains '\n' then ['\n'] else []
  match styleOf s with
  | .basic => '"' :: (s.flatMap basicChar ++ ['"'])
  | .literal => '\'' :: (s ++ ['\''])
  | .basicLines =>
    List.replicate 3 '"' ++ opening ++ basicLinesChars 0 s ++ List.replicate 3 '"'
  | .literalLines => List.replicate 3 '\'' ++ opening ++ s ++ List.replicate 3 '\''

end Toml

end Retrace
