/-
# Lines are read back

A line assigns a value to a key without quotes.  Its tokens are always six, and taking them one by
one adds the entry to the root table, if the key is new:

| token | phase after it |
| --- | --- |
| the key | `keyEnd` |
| a space | the same |
| an equals sign | `value` |
| a space | the same |
| the value | `lineEnd` if it is in quotes, else `scalar` |
| the end of the line | `line` |

How a value may be written on a line is a matter of its own: in quotes (`spells_quote`), or in
digits (`spells_toDigits`).  Reading a text that begins with a line goes on with the rest of the
text and one entry more (`readFrom_line`); so a document of lines, by induction, is read as their
entries (`parse?_lines`).
-/

import Retrace.Proofs.Json.Token
import Retrace.Proofs.Toml.Quoted
import Retrace.Toml.Config

namespace Retrace

namespace Toml

/-! ## Numbers -/

theorem ungroup?_of_forall_isDigit {digits : List Char} (hne : digits ≠ [])
    (h : ∀ c ∈ digits, c.isDigit = true) : ungroup? Char.isDigit digits = some digits := by
  induction digits with
  | nil => exact absurd rfl hne
  | cons c digits ih =>
    obtain ⟨hc, hdigits⟩ := List.forall_mem_cons.1 h
    cases digits with
    | nil => simp [ungroup?, hc]
    | cons d digits =>
      have hd : ∀ rest, d :: digits ≠ '_' :: rest := by
        rintro rest ⟨⟩
        exact absurd (hdigits '_' List.mem_cons_self) (by decide)
      rw [ungroup?, if_pos hc, ih (by simp) hdigits]
      · rfl
      · simp
      · exact hd

theorem hexValue?_of_isDigit {c : Char} (h : c.isDigit = true) :
    hexValue? c = some (c.toNat - '0'.toNat) := by
  have hrange : '0' ≤ c ∧ c ≤ '9' := by
    simpa [Char.isDigit, Char.le_def] using h
  rw [hexValue?, if_pos hrange]
  rfl

theorem ofDigits_ten {digits : List Char} (h : ∀ c ∈ digits, c.isDigit = true) :
    ofDigits 10 digits = Nat.ofDigitChars 10 digits 0 := by
  have hfold : ∀ n, digits.foldl (fun n c => 10 * n + (hexValue? c).getD 0) n =
      Nat.ofDigitChars 10 digits n := by
    induction digits with
    | nil => exact fun _ => rfl
    | cons c digits ih =>
      obtain ⟨hc, hdigits⟩ := List.forall_mem_cons.1 h
      intro n
      rw [List.foldl_cons, hexValue?_of_isDigit hc, ih hdigits]
      rfl
  exact hfold 0

theorem decimal?_toDigits (n : Nat) : decimal? (Nat.toDigits 10 n) = some (Nat.toDigits 10 n) := by
  have hzero : ¬((Nat.toDigits 10 n).head? = some '0' ∧ (Nat.toDigits 10 n).length ≠ 1) := by
    rcases Nat.eq_zero_or_pos n with rfl | hpos
    · rw [Nat.toDigits_zero]
      decide
    · rintro ⟨hhead, _⟩
      obtain ⟨rest, hrest⟩ := List.head?_eq_some_iff.1 hhead
      exact Json.toDigits_ne_zero_cons hpos rest hrest
  rw [decimal?, ungroup?_of_forall_isDigit Nat.toDigits_ne_nil fun c => Json.isDigit_of_mem_decimal]
  exact if_neg hzero

/-- Digits have neither a sign nor a letter that announces another base. -/
theorem integer?_of_forall_isDigit {digits : List Char} (h : ∀ c ∈ digits, c.isDigit = true)
    (hdecimal : decimal? digits = some digits)
    (hlt : ofDigits 10 digits < 0x100000000000000000000000000000000) :
    integer? digits = some (.ofNat (ofDigits 10 digits)) := by
  have hsecond : ∀ c d rest, c.isDigit = false → digits ≠ d :: c :: rest := by
    rintro c d rest hc rfl
    exact absurd (h c (by simp)) (by simp [hc])
  have hsign : signed digits = (false, digits) := by
    unfold signed
    split
    · exact absurd (h '-' List.mem_cons_self) (by decide)
    · exact absurd (h '+' List.mem_cons_self) (by decide)
    · rfl
  unfold integer?
  split
  · exact absurd rfl (hsecond 'x' '0' _ rfl)
  · exact absurd rfl (hsecond 'o' '0' _ rfl)
  · exact absurd rfl (hsecond 'b' '0' _ rfl)
  · simp only [hsign, hdecimal]
    have hnonneg : 0 ≤ Int.ofNat (ofDigits 10 digits) := Int.natCast_nonneg _
    have hbound : Int.ofNat (ofDigits 10 digits) < 0x100000000000000000000000000000000 :=
      Int.ofNat_lt.2 hlt
    rw [Option.map_some, Option.bind_eq_bind, Option.bind_some, if_neg Bool.false_ne_true,
      if_pos ⟨Int.le_trans (by decide) hnonneg, hbound⟩]

/-- **The digits of a number are read as that number**, if it has no more than 64 bits. -/
theorem scalar?_toDigits {n : Nat} (h : n < UInt64.size) :
    scalar? (Nat.toDigits 10 n) = some (.integer n) := by
  have hdigit : ∀ c ∈ Nat.toDigits 10 n, c.isDigit = true := fun c => Json.isDigit_of_mem_decimal
  have htrue : Nat.toDigits 10 n ≠ ['t', 'r', 'u', 'e'] := fun he =>
    absurd (hdigit 't' (he ▸ List.mem_cons_self)) (by decide)
  have hfalse : Nat.toDigits 10 n ≠ ['f', 'a', 'l', 's', 'e'] := fun he =>
    absurd (hdigit 'f' (he ▸ List.mem_cons_self)) (by decide)
  have hnumber : ofDigits 10 (Nat.toDigits 10 n) = n :=
    (ofDigits_ten hdigit).trans Nat.ofDigitChars_ten_toDigits
  have hlt : n < 0x100000000000000000000000000000000 := Nat.lt_trans h (by decide)
  rw [scalar?, if_neg htrue, if_neg hfalse,
    integer?_of_forall_isDigit hdigit (decimal?_toDigits n) (hnumber.symm ▸ hlt), hnumber]
  rfl

/-! ## Tokens -/

theorem tokens?_cons {c : Char} {s rest : List Char} {t : Token}
    (h : token? c s = some (t, rest)) : tokens? (c :: s) = (tokens? rest).map (t :: ·) := by
  rw [tokens?]
  split
  · next t' rest' h' =>
    obtain ⟨rfl, rfl⟩ := Prod.mk.inj (Option.some.inj (h.symm.trans h'))
    rfl
  · next h' => exact absurd (h.symm.trans h') (by simp)

/-- A character that ends no atom begins one. -/
theorem token?_of_not_endsAtom {c : Char} (h : endsAtom c = false) (s : List Char) :
    token? c s = some (.atom (c :: s.takeWhile fun d => !endsAtom d),
      s.dropWhile fun d => !endsAtom d) := by
  unfold token?
  split
  case h_15 => rfl
  all_goals exact absurd h (by decide)

/-- An atom goes on up to the first character that ends it. -/
theorem tokens?_atom_append {atom : List Char} (hne : atom ≠ [])
    (h : ∀ c ∈ atom, endsAtom c = false) {d : Char} (hd : endsAtom d = true) (rest : List Char) :
    tokens? (atom ++ d :: rest) = (tokens? (d :: rest)).map (.atom atom :: ·) := by
  cases atom with
  | nil => exact absurd rfl hne
  | cons c atom =>
    obtain ⟨hc, hatom⟩ := List.forall_mem_cons.1 h
    have hgoes : ∀ e ∈ atom, (!endsAtom e) = true := fun e he => by simp [hatom e he]
    have hstop : ¬(!endsAtom d) = true := by simp [hd]
    have htoken := token?_of_not_endsAtom hc (atom ++ d :: rest)
    rw [List.takeWhile_append_of_pos hgoes, List.dropWhile_append_of_pos hgoes,
      List.takeWhile_cons_of_neg (p := fun e => !endsAtom e) hstop,
      List.dropWhile_cons_of_neg (p := fun e => !endsAtom e) hstop, List.append_nil] at htoken
    rw [List.cons_append, tokens?_cons htoken]

theorem endsAtom_of_isBare {c : Char} (h : isBare c = true) : endsAtom c = false := by
  cases hends : endsAtom c with
  | false => rfl
  | true =>
    simp only [endsAtom, List.contains_iff_mem, List.mem_cons, List.not_mem_nil, or_false] at hends
    rcases hends with rfl | rfl | rfl | rfl | rfl | rfl | rfl | rfl | rfl | rfl | rfl | rfl | rfl |
      rfl <;> exact absurd h (by decide)

/-! ## Values -/

/-- A text on one line that is one token, which is taken as a value, and which the end of the line
follows. -/
def Spells (written : List Char) (v : Value) : Prop :=
  ∃ t, (∀ rest, tokens? (written ++ '\n' :: rest) = (tokens? rest).map (t :: .newline :: ·)) ∧
    ∀ root key, [t, .newline].foldlM Reader.step { root, stack := [.line key], phase := .value } =
      (Entries.assignUnder [] key v root).map fun root => { root }

theorem tokens?_newline (rest : List Char) :
    tokens? ('\n' :: rest) = (tokens? rest).map (.newline :: ·) :=
  tokens?_cons rfl

/-- **Quotes spell the text between them**, in whichever style it has been put. -/
theorem spells_quote (text : String) : Spells (quote text.toList) (.text text) := by
  obtain ⟨mark, written, multiline, hmark, hquote, hread⟩ := quotedText?_quote text.toList
  refine ⟨.text multiline text.toList, fun rest => ?_, fun root key => ?_⟩
  · have hoff : ∀ mark, mark = '"' ∨ mark = '\'' → StartsOff mark ('\n' :: rest) := by
      rintro _ (rfl | rfl) h
      all_goals exact absurd (Option.some.inj h) (by decide)
    have htoken : token? mark (written ++ '\n' :: rest) =
        some (.text multiline text.toList, '\n' :: rest) := by
      have hread := hread ('\n' :: rest) (hoff _ (.inl rfl)) (hoff _ (.inr rfl))
      rcases hmark with rfl | rfl
      all_goals simp only [token?, hread, Option.map_some]
    rw [hquote, List.cons_append, tokens?_cons htoken, tokens?_newline, Option.map_map]
    rfl
  · simp only [List.foldlM_cons, List.foldlM_nil, Reader.step, Reader.stepPlain, Reader.beginValue,
      Reader.complete, String.ofList_toList]
    cases Entries.assignUnder [] key (.text text) root <;> rfl

/-- **Decimal digits spell a number**, if it has no more than 64 bits. -/
theorem spells_toDigits {n : Nat} (h : n < UInt64.size) :
    Spells (Nat.toDigits 10 n) (.scalar (.integer n)) := by
  have hatom : ∀ c ∈ Nat.toDigits 10 n, endsAtom c = false := fun c hc =>
    endsAtom_of_isBare (by simp [isBare, Char.isAlphanum, Json.isDigit_of_mem_decimal hc])
  refine ⟨.atom (Nat.toDigits 10 n), fun rest => ?_, fun root key => ?_⟩
  · rw [tokens?_atom_append Nat.toDigits_ne_nil hatom (by decide), tokens?_newline, Option.map_map]
    rfl
  · simp only [List.foldlM_cons, List.foldlM_nil, Reader.step, Reader.stepPlain, Reader.beginValue,
      Reader.goOn, Reader.endScalar, scalar?_toDigits h, Reader.complete, Option.bind_eq_bind,
      Option.bind_some]
    cases Entries.assignUnder [] key (.scalar (.integer n)) root <;> rfl

/-! ## Documents -/

/-- Reads a text before which some entries have been read. -/
def readFrom (root : Entries) (s : List Char) : Option Entries := do
  let tokens ← tokens? s
  let r ← (tokens ++ [Token.newline]).foldlM Reader.step { root }
  if r.phase = .line then some r.root else none

theorem parse?_eq (text : String) : parse? text = readFrom [] (dropByteOrderMark text.toList) := rfl

theorem readFrom_nil (root : Entries) : readFrom root [] = some root := by
  rw [readFrom, tokens?]
  rfl

theorem assignUnder_key {root : Entries} {key : String} (h : root.lookup key = none) (v : Value) :
    Entries.assignUnder [] [key] v root = some (root ++ [(key, v)]) := by
  have hadd : Entries.assignUnder [] [key] v root = Entries.add key v root := rfl
  rw [hadd, Entries.add, h]

/-- The tokens of a line before its value. -/
def opening (key : String) : List Token := [.atom key.toList, .space, .equals, .space]

theorem tokens?_line {key : String} {written : List Char} {t : Token} (hkey : key.toList ≠ [])
    (hbare : key.toList.all isBare = true)
    (ht : ∀ rest, tokens? (written ++ '\n' :: rest) = (tokens? rest).map (t :: .newline :: ·))
    (rest : List Char) : tokens? (line key written ++ rest) =
      (tokens? rest).map (opening key ++ [t, .newline] ++ ·) := by
  have hatom : ∀ c ∈ key.toList, endsAtom c = false := fun c hc =>
    endsAtom_of_isBare (List.all_eq_true.1 hbare c hc)
  have hspace := fun s => tokens?_cons (c := ' ') (s := s) rfl
  have hequals := fun s => tokens?_cons (c := '=') (s := s) rfl
  have hshape : line key written ++ rest =
      key.toList ++ ' ' :: '=' :: ' ' :: (written ++ '\n' :: rest) := by
    simp [line]
  rw [hshape, tokens?_atom_append hkey hatom (by decide), hspace, hequals, hspace, ht]
  simp only [Option.map_map]
  rfl

/-- After a key and an equals sign, the value of the key is expected. -/
theorem foldlM_opening {key : String} (hbare : key.toList.all isBare = true) (root : Entries) :
    (opening key).foldlM Reader.step { root } =
      some { root, stack := [.line [key]], phase := .value } := by
  have hpart : keyPart? (.atom key.toList) = some key := by
    rw [keyPart?, if_pos hbare, String.ofList_toList]
  simp only [opening, List.foldlM_cons, List.foldlM_nil, Reader.step, Reader.stepPlain, hpart,
    Option.bind_some, Reader.goOn, Option.bind_eq_bind]
  rfl

/-- **A line adds an entry**, if its key is new, and leaves the reader where it was, at the
beginning of a line. -/
theorem readFrom_line {root : Entries} {key : String} {written : List Char} {v : Value}
    (hkey : key.toList ≠ []) (hbare : key.toList.all isBare = true)
    (hnew : root.lookup key = none) (hv : Spells written v) (rest : List Char) :
    readFrom root (line key written ++ rest) = readFrom (root ++ [(key, v)]) rest := by
  obtain ⟨t, ht, htaken⟩ := hv
  rw [readFrom, tokens?_line hkey hbare ht, readFrom]
  cases tokens? rest with
  | none => rfl
  | some tokens =>
    have htake : (opening key ++ [t, .newline] ++ tokens ++ [Token.newline]).foldlM Reader.step
        { root } = (tokens ++ [Token.newline]).foldlM Reader.step { root := root ++ [(key, v)] } := by
      rw [List.append_assoc, List.append_assoc, List.foldlM_append, foldlM_opening hbare,
        Option.bind_eq_bind, Option.bind_some, List.foldlM_append, htaken, assignUnder_key hnew]
      rfl
    simp only [Option.map_some, Option.bind_eq_bind, Option.bind_some, htake]

/-! ## Documents of lines -/

/-- A line, and what it assigns: a key without quotes, and a value by a text that spells it. -/
structure Line where
  /-- The key. -/
  key : String
  /-- How the value is written. -/
  written : List Char
  /-- The value. -/
  value : Value
  key_ne : key.toList ≠ []
  bare : key.toList.all isBare = true
  spells : Spells written value

namespace Line

/-- The characters of a line. -/
def chars (l : Line) : List Char := line l.key l.written

/-- The entry that a line adds. -/
def entry (l : Line) : String × Value := (l.key, l.value)

/-- A line does not begin with a byte order mark. -/
theorem dropByteOrderMark_chars_append (l : Line) (rest : List Char) :
    dropByteOrderMark (l.chars ++ rest) = l.chars ++ rest := by
  unfold dropByteOrderMark
  split
  · next rest' hbegin =>
    have hbare := l.bare
    cases hkey : l.key.toList with
    | nil => exact absurd hkey l.key_ne
    | cons c key =>
      rw [chars, line, hkey] at hbegin
      rw [hkey, (List.cons.inj hbegin).1] at hbare
      exact absurd (Bool.and_eq_true_iff.1 hbare).1 (by decide)
  · rfl

end Line

/-- **Lines with different keys add all their entries**, in the order of the lines. -/
theorem readFrom_lines {lines : List Line} {root : Entries}
    (h : (root.map Prod.fst ++ lines.map Line.key).Nodup) :
    readFrom root (lines.flatMap Line.chars) = some (root ++ lines.map Line.entry) := by
  induction lines generalizing root with
  | nil => rw [List.flatMap_nil, readFrom_nil, List.map_nil, List.append_nil]
  | cons l lines ih =>
    have hnew : root.lookup l.key = none := List.lookup_eq_none_iff.2 fun e he =>
      bne_iff_ne.2 ((List.nodup_append.1 h).2.2 _ (List.mem_map_of_mem he) _
        List.mem_cons_self).symm
    have hrest : ((root ++ [l.entry]).map Prod.fst ++ lines.map Line.key).Nodup := by
      simpa [Line.entry] using h
    rw [List.flatMap_cons, Line.chars, readFrom_line l.key_ne l.bare hnew l.spells, ← Line.entry,
      ih hrest, List.map_cons, List.append_assoc]
    rfl

/-- **A document of lines with different keys holds their entries**, and nothing else. -/
theorem parse?_lines {lines : List Line} (h : (lines.map Line.key).Nodup) :
    parse? (String.ofList (lines.flatMap Line.chars)) = some (lines.map Line.entry) := by
  have hmark : dropByteOrderMark (lines.flatMap Line.chars) = lines.flatMap Line.chars := by
    cases lines with
    | nil => rfl
    | cons l lines => exact l.dropByteOrderMark_chars_append _
  have hnodup : (([] : Entries).map Prod.fst ++ lines.map Line.key).Nodup := h
  rw [parse?_eq, String.toList_ofList, hmark, readFrom_lines hnodup, List.nil_append]

end Toml

end Retrace
