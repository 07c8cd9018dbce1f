/-
# Quoted text is read back

A text is written in one of four styles, and each is undone by the reader for the texts that are
written in it:

| style | what may be in the text | what the reader takes for the character |
| --- | --- | --- |
| basic | anything | the character, or its escape |
| literal | no controls, no single quotes | the character |
| multi-line basic | anything | the character, or its escape; line breaks stand as they are |
| multi-line literal | no controls but line breaks, no three single quotes in a row | the character |

On several lines the reader cannot take a quote before it knows whether three of them close the
text.  So the induction over what is still to be written carries along the quotes that have been
written last (`linesText?_basicLinesChars`, `linesText?_literal`).

It is for the location of the log that any text may have to be written: that is the one setting
which is no number (specification, section 8).
-/

import Mathlib.Tactic.SplitIfs
import Retrace.Toml.Token

namespace Retrace

namespace Toml

/-! ## Escapes -/

theorem hexValue?_upperHexDigit {n : Nat} (h : n < 16) : hexValue? (upperHexDigit n) = some n := by
  have hall : ∀ m : Fin 16, hexValue? (upperHexDigit m) = some m.val := by decide
  exact hall ⟨n, h⟩

theorem toNat_lt_of_isControl {c : Char} (h : isControl c = true) : c.toNat < 128 := by
  simp only [isControl, decide_eq_true_eq] at h
  rcases h with ⟨h, _⟩ | rfl
  · have hlt : c.toNat < 32 := h
    omega
  · decide

/-- The four digits that are written for a control stand for it. -/
theorem numberedChar?_of_isControl {c : Char} (h : isControl c = true) (rest : List Char) :
    numberedChar? 4 ('0' :: '0' :: upperHexDigit (c.toNat / 16) ::
      upperHexDigit (c.toNat % 16) :: rest) = some c := by
  have hlt := toNat_lt_of_isControl h
  have hzero : hexValue? '0' = some 0 := rfl
  have hhigh := hexValue?_upperHexDigit (n := c.toNat / 16) (by omega)
  have hlow := hexValue?_upperHexDigit (n := c.toNat % 16) (by omega)
  have hnumber : hexNumber? ['0', '0', upperHexDigit (c.toNat / 16),
      upperHexDigit (c.toNat % 16)] = some c.toNat := by
    simp only [hexNumber?, List.foldlM_cons, List.foldlM_nil, hzero, hhigh, hlow,
      Option.map_some, Option.bind_eq_bind, Option.bind_some, Option.pure_def,
      Option.some.injEq]
    omega
  have hvalid : c.toNat.isValidChar := c.valid
  rw [numberedChar?, if_pos (by simp)]
  simp only [List.take_succ_cons, List.take_zero, hnumber, Option.bind_some, if_pos hvalid,
    Char.ofNat_toNat]

/-- **A character is written by an escape that stands for it, or as it is.** -/
theorem basicChar_cases (c : Char) :
    (∃ e, basicChar c = '\\' :: e ∧ (∀ rest, escape? (e ++ rest) = some (c, e.length)) ∧
      ∀ rest, endsLine (e ++ rest) = false) ∨
    c ≠ '"' ∧ c ≠ '\\' ∧ isControl c = false ∧ basicChar c = [c] := by
  unfold basicChar
  split_ifs with hquote hbackslash hbs htab hlf hff hcr hcontrol
  · exact .inl ⟨['"'], rfl, fun _ => by rw [hquote]; rfl, fun _ => rfl⟩
  · exact .inl ⟨['\\'], rfl, fun _ => by rw [hbackslash]; rfl, fun _ => rfl⟩
  · exact .inl ⟨['b'], rfl, fun _ => by rw [hbs]; rfl, fun _ => rfl⟩
  · exact .inl ⟨['t'], rfl, fun _ => by rw [htab]; rfl, fun _ => rfl⟩
  · exact .inl ⟨['n'], rfl, fun _ => by rw [hlf]; rfl, fun _ => rfl⟩
  · exact .inl ⟨['f'], rfl, fun _ => by rw [hff]; rfl, fun _ => rfl⟩
  · exact .inl ⟨['r'], rfl, fun _ => by rw [hcr]; rfl, fun _ => rfl⟩
  · refine .inl ⟨_, rfl, fun rest => ?_, fun _ => rfl⟩
    simp only [List.cons_append, List.nil_append, escape?, numberedChar?_of_isControl hcontrol]
    rfl
  · exact .inr ⟨hquote, hbackslash, by simpa using hcontrol, rfl⟩

/-! ## One line -/

theorem lineText?_close (quote : Char) (rest : List Char) :
    lineText? quote (quote :: rest) = some ([], rest) := by
  rw [lineText?, if_pos rfl]

/-- A character that stands as it is. -/
theorem lineText?_cons {quote c : Char} (hquote : c ≠ quote)
    (hbackslash : ¬(c = '\\' ∧ quote = '"')) (hcontrol : isControl c = false) (rest : List Char) :
    lineText? quote (c :: rest) =
      (lineText? quote rest).map fun p => (c :: p.1, p.2) := by
  rw [lineText?, if_neg hquote, if_neg hbackslash, if_neg (by simp [hcontrol])]
  cases lineText? quote rest <;> rfl

theorem lineText?_basicChar_append (c : Char) (rest : List Char) :
    lineText? '"' (basicChar c ++ rest) =
      (lineText? '"' rest).map fun p => (c :: p.1, p.2) := by
  rcases basicChar_cases c with ⟨e, hc, hescape, _⟩ | ⟨hquote, hbackslash, hcontrol, hc⟩
  · rw [hc, List.cons_append, lineText?, if_neg (by decide), if_pos ⟨rfl, rfl⟩, hescape]
    simp only [Option.bind_eq_bind, Option.bind_some, List.drop_left]
    cases lineText? '"' rest <;> rfl
  · rw [hc]
    exact lineText?_cons hquote (fun h => hbackslash h.1) hcontrol rest

/-- **A basic text is read back**, whatever it holds, since every character that might end it or be
refused is escaped. -/
theorem lineText?_flatMap_basicChar (s rest : List Char) :
    lineText? '"' (s.flatMap basicChar ++ '"' :: rest) = some (s, rest) := by
  induction s with
  | nil => exact lineText?_close _ _
  | cons c s ih =>
    rw [List.flatMap_cons, List.append_assoc, lineText?_basicChar_append, ih]
    rfl

/-- **A literal text is read back**, if it has neither controls nor single quotes. -/
theorem lineText?_literal {s : List Char} (h : ∀ c ∈ s, c ≠ '\'' ∧ isControl c = false)
    (rest : List Char) : lineText? '\'' (s ++ '\'' :: rest) = some (s, rest) := by
  induction s with
  | nil => exact lineText?_close _ _
  | cons c s ih =>
    obtain ⟨⟨hquote, hcontrol⟩, hs⟩ := List.forall_mem_cons.1 h
    rw [List.cons_append, lineText?_cons hquote (by simp) hcontrol, ih hs]
    rfl

/-! ## Several lines -/

/-- A text in which no quote comes next. -/
def StartsOff (quote : Char) (s : List Char) : Prop := s.head? ≠ some quote

theorem length_takeWhile_quotes {quote : Char} {s : List Char} (h : StartsOff quote s) (n : Nat) :
    ((List.replicate n quote ++ s).takeWhile (· = quote)).length = n := by
  rw [List.takeWhile_append_of_pos (fun c hc => by simp [List.eq_of_mem_replicate hc])]
  have hnone : s.takeWhile (· = quote) = [] := by
    cases s with
    | nil => rfl
    | cons c s =>
      have hc : c ≠ quote := fun he => h (congrArg some he)
      simp [hc]
  rw [hnone, List.append_nil, List.length_replicate]

/-- Three quotes close a text, and up to two before them belong to it. -/
theorem linesText?_close {quote : Char} {n : Nat} (hn : n ≤ 2) {rest : List Char}
    (h : StartsOff quote rest) : linesText? quote (List.replicate (n + 3) quote ++ rest) =
      some (List.replicate n quote, rest) := by
  have hmore := length_takeWhile_quotes h (n + 2)
  have hmin : min (n + 2) 4 = n + 2 := by omega
  rw [List.replicate_succ, List.cons_append, linesText?, if_pos rfl]
  simp only [hmore, hmin]
  rw [if_pos (by omega), List.drop_left' (List.length_replicate ..)]
  rfl

/-- Up to two quotes belong to the text if no third one follows. -/
theorem linesText?_quotes {quote : Char} {n : Nat} (hn : n ≤ 2) {rest : List Char}
    (h : StartsOff quote rest) : linesText? quote (List.replicate n quote ++ rest) =
      (linesText? quote rest).map fun p => (List.replicate n quote ++ p.1, p.2) := by
  induction n with
  | zero => simp
  | succ n ih =>
    have hmore := length_takeWhile_quotes h n
    rw [List.replicate_succ, List.cons_append, linesText?, if_pos rfl]
    simp only [hmore]
    rw [if_neg (by omega), ih (by omega)]
    cases linesText? quote rest <;> rfl

/-- A character that stands as it is. -/
theorem linesText?_cons {quote c : Char} (hquote : c ≠ quote)
    (hbackslash : ¬(c = '\\' ∧ quote = '"')) (hcontrol : isControl c = false ∨ c = '\n')
    (rest : List Char) : linesText? quote (c :: rest) =
      (linesText? quote rest).map fun p => (c :: p.1, p.2) := by
  rw [linesText?, if_neg hquote, if_neg hbackslash, if_neg (by rintro ⟨h, hn, _⟩; simp_all)]
  cases linesText? quote rest <;> rfl

theorem linesText?_basicChar_append (c : Char) (rest : List Char) :
    linesText? '"' (basicChar c ++ rest) =
      (linesText? '"' rest).map fun p => (c :: p.1, p.2) := by
  rcases basicChar_cases c with ⟨e, hc, hescape, hline⟩ | ⟨hquote, hbackslash, hcontrol, hc⟩
  · rw [hc, List.cons_append, linesText?, if_neg (by decide), if_pos ⟨rfl, rfl⟩, hescape,
      if_neg (by simp [hline])]
    simp only [Option.bind_eq_bind, Option.bind_some, List.drop_left]
    cases linesText? '"' rest <;> rfl
  · rw [hc]
    exact linesText?_cons hquote (fun h => hbackslash h.1) (.inl hcontrol) rest

theorem startsOff_basicChar_append (c : Char) (rest : List Char) :
    StartsOff '"' (basicChar c ++ rest) := by
  rcases basicChar_cases c with ⟨e, hc, _⟩ | ⟨hquote, _, _, hc⟩
  · rw [hc]
    exact fun h => absurd (Option.some.inj h) (by decide)
  · rw [hc]
    exact fun h => hquote (Option.some.inj h)

/-- **A multi-line basic text is read back**, whatever it holds, after up to two quotes that stand
before what is still to be written. -/
theorem linesText?_basicLinesChars {n : Nat} (hn : n ≤ 2) (s : List Char) {rest : List Char}
    (h : StartsOff '"' rest) : linesText? '"' (List.replicate n '"' ++ (basicLinesChars n s ++
      (List.replicate 3 '"' ++ rest))) = some (List.replicate n '"' ++ s, rest) := by
  induction s generalizing n with
  | nil =>
    rw [basicLinesChars, List.nil_append, ← List.append_assoc, List.replicate_append_replicate,
      List.append_nil]
    exact linesText?_close hn h
  | cons c s ih =>
    have hrest := ih (Nat.zero_le 2)
    rw [List.replicate_zero, List.nil_append, List.nil_append] at hrest
    have hchar : linesText? '"' (List.replicate n '"' ++ (basicChar c ++ (basicLinesChars 0 s ++
        (List.replicate 3 '"' ++ rest)))) = some (List.replicate n '"' ++ c :: s, rest) := by
      rw [linesText?_quotes hn (startsOff_basicChar_append c _), linesText?_basicChar_append, hrest]
      rfl
    rw [basicLinesChars]
    split_ifs with hquote hfull hbreak
    · rw [hquote] at hchar ⊢
      exact hchar
    · -- the quote joins those before it
      have hjoin := ih (Nat.lt_of_le_of_ne hn hfull)
      rw [List.replicate_succ', List.append_assoc, List.append_assoc] at hjoin
      rw [hquote]
      exact hjoin
    · have hoff : StartsOff '"' ('\n' :: (basicLinesChars 0 s ++ (List.replicate 3 '"' ++ rest))) :=
        fun h => absurd (Option.some.inj h) (by decide)
      rw [hbreak, List.cons_append, linesText?_quotes hn hoff,
        linesText?_cons (by decide) (by decide) (.inr rfl), hrest]
      rfl
    · rw [List.append_assoc]
      exact hchar

/-! ## Quotes in a row -/

theorem le_snd_foldl_countRun (c : Char) (s : List Char) (p : Nat × Nat) :
    p.2 ≤ (s.foldl (countRun c) p).2 := by
  induction s generalizing p with
  | nil => exact Nat.le_refl _
  | cons d s ih =>
    refine Nat.le_trans ?_ (ih (countRun c p d))
    unfold countRun
    split_ifs
    · exact Nat.le_max_left _ _
    · exact Nat.le_refl _

/-- A text without any of a character in a row does not hold it. -/
theorem not_mem_of_longestRun {c : Char} {s : List Char} (h : longestRun c s = 0) : c ∉ s := by
  intro hmem
  obtain ⟨before, after, rfl⟩ := List.append_of_mem hmem
  rw [longestRun, List.foldl_append, List.foldl_cons] at h
  have hone : 1 ≤ (countRun c (before.foldl (countRun c) (0, 0)) c).2 := by
    simp only [countRun, if_true]
    omega
  have hle := le_snd_foldl_countRun c after (countRun c (before.foldl (countRun c) (0, 0)) c)
  omega

/-- **A multi-line literal text is read back**, if it has no controls but line breaks, and no three
quotes in a row, those counted that stand before what is still to be written. -/
theorem linesText?_literal {n most : Nat} {s : List Char}
    (hs : ∀ c ∈ s, isControl c = false ∨ c = '\n')
    (hrun : (s.foldl (countRun '\'') (n, most)).2 ≤ 2) (hn : n ≤ 2) {rest : List Char}
    (h : StartsOff '\'' rest) : linesText? '\'' (List.replicate n '\'' ++ (s ++
      (List.replicate 3 '\'' ++ rest))) = some (List.replicate n '\'' ++ s, rest) := by
  induction s generalizing n most with
  | nil =>
    rw [List.nil_append, ← List.append_assoc, List.replicate_append_replicate, List.append_nil]
    exact linesText?_close hn h
  | cons c s ih =>
    obtain ⟨hcontrol, hs⟩ := List.forall_mem_cons.1 hs
    rw [List.foldl_cons] at hrun
    by_cases hquote : c = '\''
    · -- the quote joins those before it
      rw [countRun, if_pos hquote] at hrun
      have hjoined : n + 1 ≤ 2 :=
        Nat.le_trans (Nat.le_max_right most (n + 1))
          (Nat.le_trans (le_snd_foldl_countRun '\'' s (n + 1, max most (n + 1))) hrun)
      have hjoin := ih hs hrun hjoined
      rw [List.replicate_succ', List.append_assoc, List.append_assoc] at hjoin
      rw [hquote]
      exact hjoin
    · rw [countRun, if_neg hquote] at hrun
      have hrest := ih hs hrun (Nat.zero_le 2)
      rw [List.replicate_zero, List.nil_append, List.nil_append] at hrest
      have hoff : StartsOff '\'' (c :: (s ++ (List.replicate 3 '\'' ++ rest))) :=
        fun h => hquote (Option.some.inj h)
      rw [List.cons_append, linesText?_quotes hn hoff,
        linesText?_cons hquote (by simp) hcontrol, hrest]
      rfl

/-! ## The style of a text -/

theorem styleOf_literal {s : List Char} (h : styleOf s = .literal) :
    ∀ c ∈ s, c ≠ '\'' ∧ isControl c = false := by
  have hcond : (∀ c ∈ s, isControl c = true → c = '\n') ∧ '\n' ∉ s ∧ longestRun '\'' s = 0 := by
    unfold styleOf at h
    dsimp only at h
    split_ifs at h with hbasic hliteral
    simpa [and_assoc] using hliteral
  obtain ⟨hclean, hlines, hrun⟩ := hcond
  refine fun c hc => ⟨?_, ?_⟩
  · rintro rfl
    exact not_mem_of_longestRun hrun hc
  · cases hcontrol : isControl c with
    | false => rfl
    | true => exact absurd (hclean c hc hcontrol ▸ hc) hlines

theorem styleOf_literalLines {s : List Char} (h : styleOf s = .literalLines) :
    (∀ c ∈ s, isControl c = false ∨ c = '\n') ∧ longestRun '\'' s ≤ 2 := by
  have hcond : (∀ c ∈ s, isControl c = true → c = '\n') ∧ longestRun '\'' s ≤ 2 := by
    unfold styleOf at h
    dsimp only at h
    split_ifs at h with hbasic hliteral hbasicLines hliteralLines
    simpa using hliteralLines
  refine ⟨fun c hc => ?_, hcond.2⟩
  cases hcontrol : isControl c with
  | false => exact .inl rfl
  | true => exact .inr (hcond.1 c hc hcontrol)

/-- A line break is dropped only where it opens a text. -/
theorem dropLineBreak_eq_self {s : List Char} (h : ∀ c ∈ s.head?, isControl c = false) :
    dropLineBreak s = s := by
  unfold dropLineBreak
  split
  · exact absurd (h _ rfl) (by decide)
  · exact absurd (h _ rfl) (by decide)
  · rfl

/-- The line break that is written before a text with line breaks is dropped again. -/
theorem dropLineBreak_opening {s written : List Char}
    (h : '\n' ∉ s → ∀ c ∈ written.head?, isControl c = false) :
    dropLineBreak ((if s.contains '\n' then ['\n'] else []) ++ written) = written := by
  by_cases hlines : '\n' ∈ s
  · rw [if_pos (by simpa using hlines)]
    rfl
  · rw [if_neg (by simpa using hlines)]
    exact dropLineBreak_eq_self (h hlines)

theorem isControl_head_basicChar (c : Char) (rest : List Char) :
    ∀ d ∈ (basicChar c ++ rest).head?, isControl d = false := by
  rcases basicChar_cases c with ⟨e, hc, _⟩ | ⟨_, _, hcontrol, hc⟩
  · rw [hc]
    rintro d ⟨⟩
    decide
  · rw [hc]
    rintro d ⟨⟩
    exact hcontrol

theorem isControl_head_basicLinesChars {s : List Char} (h : '\n' ∉ s) (rest : List Char) :
    ∀ d ∈ (basicLinesChars 0 s ++ (List.replicate 3 '"' ++ rest)).head?, isControl d = false := by
  cases s with
  | nil =>
    rintro d ⟨⟩
    decide
  | cons c s =>
    rw [basicLinesChars]
    split_ifs with hquote _ hbreak
    · rintro d ⟨⟩
      decide
    · rintro d ⟨⟩
      decide
    · exact absurd (hbreak ▸ List.mem_cons_self) h
    · rw [List.append_assoc]
      exact isControl_head_basicChar c _

/-- A text on one line, whose quote no other one follows where it ends. -/
theorem quotedText?_line {quote : Char} {written rest s : List Char}
    (hwritten : written ≠ [] → StartsOff quote (written ++ quote :: rest))
    (hrest : StartsOff quote rest)
    (h : lineText? quote (written ++ quote :: rest) = some (s, rest)) :
    quotedText? quote (written ++ quote :: rest) = some ((false, s), rest) := by
  have htwo : (written ++ quote :: rest).take 2 ≠ [quote, quote] := by
    intro htake
    cases written with
    | nil =>
      cases rest with
      | nil => simp at htake
      | cons c rest => exact hrest (congrArg some (by simpa using htake))
    | cons c written =>
      refine hwritten (by simp) (congrArg some ?_)
      rw [List.cons_append, List.take_succ_cons] at htake
      exact (List.cons.inj htake).1
  rw [quotedText?, if_neg htwo, h]
  rfl

/-- A text on several lines, after two more quotes and perhaps a line break. -/
theorem quotedText?_lines {quote : Char} {s written rest : List Char}
    (hhead : '\n' ∉ s → ∀ c ∈ written.head?, isControl c = false)
    (h : linesText? quote written = some (s, rest)) :
    quotedText? quote (quote :: quote ::
      ((if s.contains '\n' then ['\n'] else []) ++ written)) = some ((true, s), rest) := by
  simp only [quotedText?, List.take_succ_cons, List.take_zero, if_true, List.drop_succ_cons,
    List.drop_zero, dropLineBreak_opening hhead, h]
  rfl

/-- **A text in quotes is read as that text**, whatever it holds, if no quote follows it. -/
theorem quotedText?_quote (s : List Char) : ∃ mark written multiline, (mark = '"' ∨ mark = '\'') ∧
    quote s = mark :: written ∧ ∀ rest, StartsOff '"' rest → StartsOff '\'' rest →
      quotedText? mark (written ++ rest) = some ((multiline, s), rest) := by
  unfold quote
  dsimp only
  cases hstyle : styleOf s with
  | basic =>
    refine ⟨'"', _, false, .inl rfl, rfl, fun rest hdouble _ => ?_⟩
    rw [List.append_assoc]
    refine quotedText?_line (fun hs => ?_) hdouble (lineText?_flatMap_basicChar s rest)
    cases s with
    | nil => exact absurd rfl hs
    | cons c s =>
      rw [List.flatMap_cons, List.append_assoc]
      exact startsOff_basicChar_append c _
  | literal =>
    have hs := styleOf_literal hstyle
    refine ⟨'\'', _, false, .inr rfl, rfl, fun rest _ hsingle => ?_⟩
    rw [List.append_assoc]
    refine quotedText?_line (fun hne => ?_) hsingle (lineText?_literal hs rest)
    cases s with
    | nil => exact absurd rfl hne
    | cons c s => exact fun h => (hs c List.mem_cons_self).1 (Option.some.inj h)
  | basicLines =>
    refine ⟨'"', _, true, .inl rfl, rfl, fun rest hdouble _ => ?_⟩
    have hread := linesText?_basicLinesChars (Nat.zero_le 2) s hdouble
    rw [List.replicate_zero, List.nil_append, List.nil_append] at hread
    simpa using quotedText?_lines (fun h => isControl_head_basicLinesChars h rest) hread
  | literalLines =>
    obtain ⟨hs, hrun⟩ := styleOf_literalLines hstyle
    refine ⟨'\'', _, true, .inr rfl, rfl, fun rest _ hsingle => ?_⟩
    have hread := linesText?_literal hs hrun (Nat.zero_le 2) hsingle
    rw [List.replicate_zero, List.nil_append, List.nil_append] at hread
    refine (congrArg (quotedText? '\'') ?_).trans (quotedText?_lines (fun h => ?_) hread)
    · simp
    · cases s with
      | nil =>
        rintro d ⟨⟩
        decide
      | cons c s =>
        rintro d ⟨⟩
        exact (hs c List.mem_cons_self).resolve_right fun he => h (he ▸ List.mem_cons_self)

end Toml

end Retrace
