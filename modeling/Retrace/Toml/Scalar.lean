/-
# Unquoted scalars in TOML

| scalar | written |
| --- | --- |
| integer | decimal with an optional sign, or after `0x`, `0o`, `0b` without one |
| float | decimal with a fraction, an exponent or both; `inf`, `nan` |
| truth value | `true`, `false` |
| moment | a date, a time of day, or both and perhaps an offset from UTC |

One underscore may stand between two digits of a number, and a decimal number has no leading zeros.
An integer fits into 128 bits, with or without sign, and a float is not beyond the greatest double.
The seconds of a time may be missing.
-/

import Retrace.Text.Hex

namespace Retrace

namespace Toml

/-- An unquoted scalar; nothing here reads floats and moments, so they are kept as written. -/
inductive Scalar where
  /-- A whole number. -/
  | integer (value : Int)
  /-- A number with a fraction or exponent, infinity, or no number. -/
  | float (lexeme : String)
  /-- A truth value. -/
  | boolean (value : Bool)
  /-- A date, a time of day, or both. -/
  | moment (lexeme : String)
deriving DecidableEq

/-! ## Numbers -/

/-- Digits without the underscores between them; nothing if one stands at either end or beside
another. -/
def ungroup? (isDigit : Char → Bool) : List Char → Option (List Char)
  | [] => none
  | [c] => if isDigit c then some [c] else none
  | c :: '_' :: rest => if isDigit c then (ungroup? isDigit rest).map (c :: ·) else none
  | c :: rest => if isDigit c then (ungroup? isDigit rest).map (c :: ·) else none

/-- The digits of a decimal number, which does not begin with a zero unless it is one. -/
def decimal? (s : List Char) : Option (List Char) := do
  let digits ← ungroup? Char.isDigit s
  if digits.head? = some '0' ∧ digits.length ≠ 1 then none else some digits

/-- The number that digits spell to a base. -/
def ofDigits (base : Nat) (digits : List Char) : Nat :=
  digits.foldl (fun n c => base * n + (hexValue? c).getD 0) 0

/-- The number spelled to a base other than ten. -/
def based? (base : Nat) (s : List Char) : Option Nat :=
  (ungroup? (fun c => (hexValue? c).any (· < base)) s).map (ofDigits base)

/-- The sign of a number, and what follows it. -/
def signed : List Char → Bool × List Char
  | '-' :: rest => (true, rest)
  | '+' :: rest => (false, rest)
  | s => (false, s)

/-- The integer that is written, if it fits into 128 bits with a sign or without one. -/
def integer? (s : List Char) : Option Int := do
  let value ← match s with
    | '0' :: 'x' :: rest => (based? 16 rest).map Int.ofNat
    | '0' :: 'o' :: rest => (based? 8 rest).map Int.ofNat
    | '0' :: 'b' :: rest => (based? 2 rest).map Int.ofNat
    | _ =>
      let (negative, rest) := signed s
      (decimal? rest).map fun digits =>
        let n := Int.ofNat (ofDigits 10 digits)
        if negative then -n else n
  if -0x80000000000000000000000000000000 ≤ value ∧ value < 0x100000000000000000000000000000000 then
    some value
  else none

/-- Whether the double nearest to `m * 10 ^ e` is finite: the number is below the middle between the
greatest double and the next power of two. -/
def isFinite (m : Nat) (e : Int) : Bool :=
  let magnitude := Int.ofNat (Nat.toDigits 10 m).length + e
  let bound := Nat.pow 2 1024 - Nat.pow 2 970
  if m = 0 ∨ magnitude < 309 then true
  else if 309 < magnitude then false
  else m * Nat.pow 10 e.toNat < bound * Nat.pow 10 (-e).toNat

/-- Whether a float is written: it has a fraction, an exponent or both, and does not round to
infinity. -/
def isFloat (s : List Char) : Bool :=
  let (_, s) := signed s
  if s = ['i', 'n', 'f'] ∨ s = ['n', 'a', 'n'] then true
  else
    let isMark := fun c => c == 'e' || c == 'E'
    let mantissa := s.takeWhile fun c => !isMark c
    let units := mantissa.takeWhile (· ≠ '.')
    let fraction := match mantissa.dropWhile (· ≠ '.') with
      | [] => some []
      | _ :: digits => ungroup? Char.isDigit digits
    let exponent := match s.dropWhile fun c => !isMark c with
      | [] => some 0
      | _ :: rest =>
        let (negative, digits) := signed rest
        (ungroup? Char.isDigit digits).map fun digits =>
          let n := Int.ofNat (ofDigits 10 digits)
          if negative then -n else n
    match decimal? units, fraction, exponent with
    | some units, some fraction, some exponent =>
      s.any (fun c => c == '.' || isMark c) &&
        isFinite (ofDigits 10 (units ++ fraction)) (exponent - Int.ofNat fraction.length)
    | _, _, _ => false

/-! ## Moments -/

/-- The number that so many digits at the head of a text spell, and what follows them; more digits
may follow. -/
def digits? (count : Nat) (s : List Char) : Option (Nat × List Char) :=
  let digits := s.take count
  if digits.length = count ∧ digits.all Char.isDigit then
    some (ofDigits 10 digits, s.drop count)
  else none

/-- What follows a certain character. -/
def after? (c : Char) : List Char → Option (List Char)
  | [] => none
  | d :: rest => if d = c then some rest else none

/-- How many days a month has, in the calendar that leaves out three leap years in four
centuries. -/
def daysIn (year month : Nat) : Nat :=
  if month = 2 then
    if year % 4 = 0 ∧ (year % 100 ≠ 0 ∨ year % 400 = 0) then 29 else 28
  else if month = 4 ∨ month = 6 ∨ month = 9 ∨ month = 11 then 30
  else 31

/-- What follows a date, which must be one that there is: a year of four digits, a month and a day
of two. -/
def afterDate? (s : List Char) : Option (List Char) := do
  let (year, s) ← digits? 4 s
  let (month, s) ← digits? 2 (← after? '-' s)
  let (day, s) ← digits? 2 (← after? '-' s)
  if 1 ≤ month ∧ month ≤ 12 ∧ 1 ≤ day ∧ day ≤ daysIn year month then some s else none

/-- What follows the fraction of a second, if there is one. -/
def afterFraction? : List Char → Option (List Char)
  | '.' :: s =>
    if (s.takeWhile Char.isDigit).isEmpty then none else some (s.dropWhile Char.isDigit)
  | s => some s

/-- What follows a time of day.  Its seconds may be missing, and any minute may have a leap
second. -/
def afterTime? (s : List Char) : Option (List Char) := do
  let (hour, s) ← digits? 2 s
  let (minute, s) ← digits? 2 (← after? ':' s)
  if 23 < hour ∨ 59 < minute then none
  else match s with
    | ':' :: s =>
      let (second, s) ← digits? 2 s
      if 60 < second then none else afterFraction? s
    | s => some s

/-- Whether an offset from UTC is written, in hours and minutes or as a letter, or nothing at
all. -/
def isOffset : List Char → Bool
  | [] => true
  | ['Z'] => true
  | ['z'] => true
  | sign :: s =>
    (sign = '+' || sign = '-') && ((do
      let (hour, s) ← digits? 2 s
      let (minute, s) ← digits? 2 (← after? ':' s)
      return hour ≤ 23 ∧ minute ≤ 59 ∧ s = []) : Option Bool).getD false

/-- Whether a date and nothing else is written. -/
def isDate (s : List Char) : Bool := afterDate? s = some []

/-- Whether a moment is written: a date, a time of day, or one after the other with a letter or a
space between. -/
def isMoment (s : List Char) : Bool :=
  match afterDate? s with
  | some [] => true
  | some (c :: rest) => (c = 'T' || c = 't' || c = ' ') && (afterTime? rest).any isOffset
  | none => afterTime? s = some []

/-! ## All scalars -/

/-- The scalar that is written; nothing if it is none, as with a text that lacks its quotes. -/
def scalar? (s : List Char) : Option Scalar :=
  if s = ['t', 'r', 'u', 'e'] then some (.boolean true)
  else if s = ['f', 'a', 'l', 's', 'e'] then some (.boolean false)
  else match integer? s with
    | some n => some (.integer n)
    | none =>
      if isFloat s then some (.float (String.ofList s))
      else if isMoment s then some (.moment (String.ofList s))
      else none

end Toml

end Retrace
