/-
# The text of tokens is read back

| token | written | read back |
| --- | --- | --- |
| a mark or a word | as it is | always |
| `string` of a text | its characters, escaped, between quotes | always |
| `natural` | its decimal digits | if what follows does not go on with the number |
| `number`, `string` of no text | as it was, as one of its kind | not promised, and such a token is not `Plain` |

Between tokens on lines there is only space, which is skipped, so all that can go wrong is a number
that is followed directly by another one.  Tokens without such a pair are `Legible`, and both ways
of writing them are undone by `tokens?`.
-/

import Retrace.Json.Token
import Mathlib.Tactic.SplitIfs

namespace Retrace

namespace Json

/-! ## Strings -/

/-- A character is written by a letter after a backslash, by its number, or as it is. -/
theorem escape_cases (c : Char) :
    (∃ e, escaped? e = some c ∧ escape c = ['\\', e]) ∨
    (c < ' ' ∧ escape c =
      ['\\', 'u', '0', '0', Nat.digitChar (c.toNat / 16), Nat.digitChar (c.toNat % 16)]) ∨
    (¬ c < ' ' ∧ c ≠ '"' ∧ c ≠ '\\' ∧ escape c = [c]) := by
  unfold escape
  split_ifs with hquote hbackslash hbs hff hlf hcr htab hcontrol
  · exact .inl ⟨'"', by rw [hquote]; rfl, rfl⟩
  · exact .inl ⟨'\\', by rw [hbackslash]; rfl, rfl⟩
  · exact .inl ⟨'b', by rw [hbs]; rfl, rfl⟩
  · exact .inl ⟨'f', by rw [hff]; rfl, rfl⟩
  · exact .inl ⟨'n', by rw [hlf]; rfl, rfl⟩
  · exact .inl ⟨'r', by rw [hcr]; rfl, rfl⟩
  · exact .inl ⟨'t', by rw [htab]; rfl, rfl⟩
  · exact .inr (.inl ⟨hcontrol, rfl⟩)
  · exact .inr (.inr ⟨hcontrol, hquote, hbackslash, rfl⟩)

/-- The four digits that are written for a control spell it. -/
theorem hexNumber?_of_control {c : Char} (h : c < ' ') :
    hexNumber? ['0', '0', Nat.digitChar (c.toNat / 16), Nat.digitChar (c.toNat % 16)] =
      some c.toNat := by
  have hlt : c.toNat < 32 := h
  have hzero : hexValue? '0' = some 0 := rfl
  have hhigh := hexValue?_digitChar (n := c.toNat / 16) (by omega)
  have hlow := hexValue?_digitChar (n := c.toNat % 16) (by omega)
  simp only [hexNumber?, List.foldlM_cons, List.foldlM_nil, hzero, hhigh, hlow, Option.map_some,
    Option.bind_eq_bind, Option.bind_some, Option.pure_def, Option.some.injEq]
  omega

/-- **An escaped character is read as one code point**, its own, whatever is read after it. -/
theorem codePoints?_escape_append (c : Char) (s : List Char) :
    codePoints? (escape c ++ s) = (codePoints? s).map fun p => (c.toNat :: p.1, p.2) := by
  obtain ⟨e, he, hesc⟩ | ⟨hcontrol, hesc⟩ | ⟨hcontrol, hquote, hbackslash, hesc⟩ := escape_cases c
  · -- the letter is not the one that announces four digits
    have hu : e ≠ 'u' := by rintro rfl; cases he
    rw [hesc, List.cons_append, List.cons_append, List.nil_append, codePoints?, he]
    · cases codePoints? s <;> rfl
    · rintro _ _ _ _ _ rfl
      exact absurd rfl hu
  · rw [hesc]
    simp only [List.cons_append, List.nil_append]
    rw [codePoints?, hexNumber?_of_control hcontrol]
    cases codePoints? s <;> rfl
  · rw [hesc, List.cons_append, List.nil_append, codePoints?,
      if_neg (by simp [hcontrol, hbackslash])]
    · exact hquote
    · rintro _ _ _ _ _ rfl
      exact absurd rfl hbackslash
    · rintro _ _ rfl
      exact absurd rfl hbackslash

/-- A string is read up to its closing quote, and its code points are those of its text. -/
theorem codePoints?_flatMap_escape (text rest : List Char) :
    codePoints? (text.flatMap escape ++ '"' :: rest) = some (text.map Char.toNat, rest) := by
  induction text with
  | nil => rfl
  | cons c text ih =>
    rw [List.flatMap_cons, List.append_assoc, codePoints?_escape_append, ih]
    rfl

/-- No character is half of a surrogate pair. -/
theorem not_surrogate (c : Char) :
    isHighSurrogate c.toNat = false ∧ isLowSurrogate c.toNat = false := by
  have hvalid : c.toNat < 0xD800 ∨ 0xDFFF < c.toNat ∧ c.toNat < 0x110000 := c.valid
  simp only [isHighSurrogate, isLowSurrogate, decide_eq_false_iff_not]
  omega

/-- **The code points of a text give that text**, for none of them is half of a pair. -/
theorem textOf?_map_toNat (text : List Char) : textOf? (text.map Char.toNat) = some text := by
  induction text with
  | nil => rfl
  | cons c text ih =>
    obtain ⟨hhigh, hlow⟩ := not_surrogate c
    cases text with
    | nil => simp [textOf?, hhigh, hlow]
    | cons d text =>
      rw [List.map_cons] at ih
      rw [List.map_cons, List.map_cons, textOf?, ih, hhigh, hlow]
      simp

/-! ## Numbers -/

/-- Whether a number would go on with a character. -/
def extendsNumber (c : Char) : Bool := c.isDigit || c = '.' || c = 'e' || c = 'E'

/-- A text with which a number before it does not go on, as it begins with no digit, point or letter
of an exponent. -/
def EndsNumber (s : List Char) : Prop := ∀ c ∈ s.head?, extendsNumber c = false

theorem isDigit_of_mem_decimal {n : Nat} {c : Char} (h : c ∈ Nat.toDigits 10 n) :
    c.isDigit = true :=
  Nat.isDigit_of_mem_toDigits (by omega) (by omega) h

/-- A positive number is written without leading zeros. -/
theorem toDigits_ne_zero_cons {n : Nat} (h : 0 < n) (l : List Char) :
    Nat.toDigits 10 n ≠ '0' :: l := by
  induction n using Nat.strongRecOn generalizing l with
  | ind n ih =>
    rw [Nat.toDigits_eq_if (by omega)]
    intro heq
    split_ifs at heq with hlt
    · have hdigit : ∀ m : Fin 10, 0 < m.val → Nat.digitChar m ≠ '0' := by decide
      exact hdigit ⟨n, hlt⟩ h (List.cons.inj heq).1
    · -- the first digit is that of a tenth of the number
      cases hd : Nat.toDigits 10 (n / 10) with
      | nil => exact Nat.toDigits_ne_nil hd
      | cons d ds =>
        rw [hd, List.cons_append] at heq
        exact ih (n / 10) (by omega) (by omega) ds (by rw [hd, (List.cons.inj heq).1])

theorem takeWhile_isDigit_append {digits rest : List Char} (hd : ∀ c ∈ digits, c.isDigit = true)
    (hr : EndsNumber rest) : (digits ++ rest).takeWhile Char.isDigit = digits := by
  rw [List.takeWhile_append_of_pos hd]
  cases rest with
  | nil => simp
  | cons c s =>
    have hc : c.isDigit = false := by
      have := hr c rfl
      simp_all [extendsNumber]
    simp [hc]

/-- The whole part of a number that is written is all of it. -/
theorem whole_toDigits_append {n : Nat} {rest : List Char} (h : EndsNumber rest) :
    whole (Nat.toDigits 10 n ++ rest) = Nat.toDigits 10 n := by
  rcases Nat.eq_zero_or_pos n with rfl | hpos
  · rw [Nat.toDigits_zero]
    rfl
  · have htake := takeWhile_isDigit_append (fun c => isDigit_of_mem_decimal (n := n)) h
    cases hd : Nat.toDigits 10 n with
    | nil => exact absurd hd Nat.toDigits_ne_nil
    | cons d ds =>
      have hzero : d ≠ '0' := by
        rintro rfl
        exact toDigits_ne_zero_cons hpos ds hd
      have hminus : d ≠ '-' := by
        rintro rfl
        have : '-' ∈ Nat.toDigits 10 n := by rw [hd]; exact List.mem_cons_self
        exact absurd (isDigit_of_mem_decimal this) (by decide)
      rw [hd] at htake
      rw [← htake]
      unfold whole
      split <;> simp_all

theorem fraction_of_endsNumber {s : List Char} (h : EndsNumber s) : fraction s = [] := by
  unfold fraction
  split
  · exact absurd (h '.' rfl) (by decide)
  · rfl

theorem exponent_of_endsNumber {s : List Char} (h : EndsNumber s) : exponent s = [] := by
  cases s with
  | nil => rfl
  | cons c s =>
    have hc := h c rfl
    simp only [extendsNumber, Bool.or_eq_false_iff, decide_eq_false_iff_not] at hc
    simp [exponent, hc]

/-- **The digits of a natural number are read as that number**, to their end. -/
theorem number?_toDigits_append (n : Nat) {rest : List Char} (h : EndsNumber rest) :
    number? (Nat.toDigits 10 n ++ rest) = some (.natural n, (Nat.toDigits 10 n).length) := by
  have hdigits : (Nat.toDigits 10 n).all Char.isDigit = true :=
    List.all_eq_true.2 fun c => isDigit_of_mem_decimal
  simp only [number?, whole_toDigits_append h, Nat.toDigits_ne_nil, if_false, List.drop_left,
    fraction_of_endsNumber h, List.length_nil, Nat.add_zero, exponent_of_endsNumber h,
    List.append_nil, hdigits, if_true, Nat.ofDigitChars_ten_toDigits]

/-! ## One token -/

/-- A token that its characters tell. -/
def Token.Plain : Token → Prop
  | .number _ => False
  | .string none => False
  | _ => True

/-- Whether a token is a natural number. -/
def Token.isNatural : Token → Bool
  | .natural _ => true
  | _ => false

theorem tokens?_cons {c : Char} {s rest : List Char} {t : Token} (hc : isSpace c = false)
    (ht : token? c s = some (t, rest)) : tokens? (c :: s) = (tokens? rest).map (t :: ·) := by
  rw [tokens?, if_neg (by simp [hc])]
  split <;> simp_all

theorem tokens?_space {c : Char} (hc : isSpace c = true) (s : List Char) :
    tokens? (c :: s) = tokens? s := by
  rw [tokens?, if_pos hc]

/-- A new line and its indentation are skipped. -/
theorem tokens?_newLine_append (level : Nat) (s : List Char) :
    tokens? (newLine level ++ s) = tokens? s := by
  have hspaces : ∀ n, tokens? (List.replicate n ' ' ++ s) = tokens? s := by
    intro n
    induction n with
    | zero => rfl
    | succ n ih => rw [List.replicate_succ, List.cons_append, tokens?_space rfl, ih]
  rw [newLine, List.cons_append, tokens?_space rfl, hspaces]

theorem isSpace_of_isDigit {c : Char} (h : c.isDigit = true) : isSpace c = false := by
  simp only [isSpace, decide_eq_false_iff_not]
  rintro (rfl | rfl | rfl | rfl) <;> exact absurd h (by decide)

/-- What begins with a digit is a number. -/
theorem token?_of_isDigit {c : Char} (h : c.isDigit = true) (s : List Char) :
    token? c s = (number? (c :: s)).map fun (t, length) => (t, s.drop (length - 1)) := by
  unfold token?
  split
  case h_11 => rfl
  all_goals exact absurd h (by decide)

theorem tokens?_toDigits_append (n : Nat) {rest : List Char} (h : EndsNumber rest) :
    tokens? (Nat.toDigits 10 n ++ rest) = (tokens? rest).map (.natural n :: ·) := by
  have hread := number?_toDigits_append n h
  cases hd : Nat.toDigits 10 n with
  | nil => exact absurd hd Nat.toDigits_ne_nil
  | cons d ds =>
    have hmem : d ∈ Nat.toDigits 10 n := by rw [hd]; exact List.mem_cons_self
    have hdigit : d.isDigit = true := isDigit_of_mem_decimal hmem
    rw [hd, List.cons_append] at hread
    refine tokens?_cons (isSpace_of_isDigit hdigit) ?_
    rw [List.append_eq, token?_of_isDigit hdigit, hread]
    simp

theorem tokens?_quoted_append (text : String) (rest : List Char) :
    tokens? (quoted text.toList ++ rest) = (tokens? rest).map (.string (some text) :: ·) := by
  rw [quoted, List.cons_append, List.append_assoc]
  refine tokens?_cons rfl ?_
  simp [token?, codePoints?_flatMap_escape, textOf?_map_toNat]

/-- **The characters of a token are read as that token**, and what follows them on its own. -/
theorem tokens?_chars_append {t : Token} (ht : t.Plain) {rest : List Char}
    (hr : t.isNatural = true → EndsNumber rest) :
    tokens? (t.chars ++ rest) = (tokens? rest).map (t :: ·) := by
  cases t with
  | natural n => exact tokens?_toDigits_append n (hr rfl)
  | number lexeme => exact ht.elim
  | string text =>
    cases text with
    | none => exact ht.elim
    | some text => exact tokens?_quoted_append text rest
  | bool b => cases b <;> exact tokens?_cons rfl rfl
  | openArray | closeArray | openObject | closeObject | comma | colon | null =>
    exact tokens?_cons rfl rfl

/-! ## Tokens in a row -/

/-- Tokens before which a natural number can stand. -/
def EndsNatural (tokens : List Token) : Prop := ∀ t ∈ tokens.head?, t.isNatural = false

/-- Tokens that their characters tell: all are plain, and no number follows another directly,
without a comma or a bracket between. -/
def Legible : List Token → Prop
  | [] => True
  | t :: rest => t.Plain ∧ (t.isNatural = true → EndsNatural rest) ∧ Legible rest

theorem endsNumber_chars_append {t : Token} (ht : t.Plain) (hn : t.isNatural = false)
    (s : List Char) : EndsNumber (t.chars ++ s) := by
  intro c hc
  cases t with
  | natural n => cases hn
  | number lexeme => exact ht.elim
  | string text =>
    cases text with
    | none => exact ht.elim
    | some text =>
      cases hc
      rfl
  | bool b => cases b <;> cases hc <;> rfl
  | openArray | closeArray | openObject | closeObject | comma | colon | null =>
    cases hc
    rfl

theorem endsNumber_compact {tokens : List Token} (h : Legible tokens) (hn : EndsNatural tokens) :
    EndsNumber (compact tokens) := by
  cases tokens with
  | nil => nofun
  | cons t rest => exact endsNumber_chars_append h.1 (hn t rfl) _

theorem endsNumber_indented {tokens : List Token} (h : Legible tokens) (hn : EndsNatural tokens)
    (level : Nat) : EndsNumber (indented level tokens) := by
  fun_cases indented level tokens with
  | case1 => nofun
  | case10 t rest => exact endsNumber_chars_append h.1 (hn t rfl) _
  | _ =>
    -- a mark or a new line comes first
    intro c hc
    cases hc
    rfl

/-- **Tokens without space between them are read back**, if they are legible. -/
theorem tokens?_compact {tokens : List Token} (h : Legible tokens) :
    tokens? (compact tokens) = some tokens := by
  induction tokens with
  | nil =>
    rw [compact, List.flatMap_nil, tokens?]
  | cons t rest ih =>
    obtain ⟨ht, hn, hrest⟩ := h
    rw [compact, List.flatMap_cons, ← compact,
      tokens?_chars_append ht fun hnat => endsNumber_compact hrest (hn hnat), ih hrest]
    rfl

/-- **Tokens on lines are read back**, at any level of indentation, if they are legible. -/
theorem tokens?_indented (level : Nat) {tokens : List Token} (h : Legible tokens) :
    tokens? (indented level tokens) = some tokens := by
  fun_induction indented level tokens with
  | case1 => rw [tokens?]
  | case2 level rest ih | case3 level rest ih =>
    -- an empty array, or an empty object
    rw [tokens?_cons rfl rfl, tokens?_cons rfl rfl, ih h.2.2.2.2]
    rfl
  | case4 level rest _ ih | case5 level rest _ ih | case8 level rest ih =>
    -- a mark that ends a line
    rw [tokens?_cons rfl rfl, tokens?_newLine_append, ih h.2.2]
    rfl
  | case6 level rest ih | case7 level rest ih =>
    -- a mark that begins a line
    rw [tokens?_newLine_append, tokens?_cons rfl rfl, ih h.2.2]
    rfl
  | case9 level rest ih =>
    rw [tokens?_cons rfl rfl, tokens?_space rfl, ih h.2.2]
    rfl
  | case10 level t rest _ _ _ _ _ _ _ _ ih =>
    rw [tokens?_chars_append h.1 fun hn => endsNumber_indented h.2.2 (h.2.1 hn) level, ih h.2.2]
    rfl

end Json

end Retrace
