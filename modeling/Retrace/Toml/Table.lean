/-
# TOML tables

A table is filled by assignments and headers, and how it came about decides what may be added:

| origin | made by | a header may | a dotted key may |
| --- | --- | --- | --- |
| `implied` | a header below it | define it, pass through it | pass through it |
| `dotted` | a dotted key | pass through it | pass through it, add to it |
| `defined` | a header | pass through it | |
| `inline` | braces | | |

A path that meets a list of tables goes on in its last one.  No key is given twice.
-/

import Retrace.Toml.Scalar

namespace Retrace

namespace Toml

/-- How a table came about, which decides by what means entries may still be added to it. -/
inductive TableOrigin where
  /-- By a header of a table below it. -/
  | implied
  /-- By a dotted key. -/
  | dotted
  /-- By a header of its own. -/
  | defined
  /-- As a value in braces. -/
  | inline
deriving DecidableEq

/-- A TOML value.  A table keeps its origin, and tables that share a header are told from an array
of tables. -/
inductive Value where
  /-- A text. -/
  | text (value : String)
  /-- An unquoted scalar. -/
  | scalar (value : Scalar)
  /-- Values in brackets. -/
  | array (elements : List Value)
  /-- A table, with its entries in the order of their keys' first appearance. -/
  | table (origin : TableOrigin) (entries : List (String × Value))
  /-- Tables that share a header in double brackets. -/
  | tables (members : List (List (String × Value)))

/-- The entries of a table. -/
abbrev Entries := List (String × Value)

namespace Entries

/-- Gives a new value to a key that has one; every other entry stays, and so does the order. -/
def replace (entries : Entries) (key : String) (value : Value) : Entries :=
  entries.map fun e => if e.1 = key then (key, value) else e

/-- Makes a change in the table that a path leads to, from a table of a certain origin.  Tables on
the way that are not there yet are made, with the origin `made`; a way that is barred makes the
whole text wrong. -/
def change (made : TableOrigin) (edit : TableOrigin → Entries → Option Entries) :
    List String → TableOrigin → Entries → Option Entries
  | [], origin, entries => edit origin entries
  | key :: path, _, entries =>
    match entries.lookup key with
    | none => do
      let inner ← change made edit path made []
      return entries ++ [(key, .table made inner)]
    | some (.table origin inner) =>
      if origin = .inline ∨ (made = .dotted ∧ origin = .defined) then none
      else do
        let inner ← change made edit path origin inner
        return entries.replace key (.table origin inner)
    | some (.tables members) => do
      let last ← members.getLast?
      let last ← change made edit path .defined last
      return entries.replace key (.tables (members.dropLast ++ [last]))
    | some _ => none

/-- Adds an entry under a key that is not there yet, after all others. -/
def add (key : String) (value : Value) (entries : Entries) : Option Entries :=
  match entries.lookup key with
  | none => some (entries ++ [(key, value)])
  | some _ => none

/-- The last part of a path, and the parts before it. -/
def splitLast? (path : List String) : Option (List String × String) :=
  path.getLast?.map fun key => (path.dropLast, key)

/-- Assigns a value to a dotted key.  All but its last part lead to the table, which only such keys
may have made. -/
def assign (path : List String) (value : Value) (entries : Entries) : Option Entries := do
  let (parents, key) ← splitLast? path
  let edit := fun origin inner =>
    if parents = [] ∨ origin = .dotted then add key value inner else none
  change .dotted edit parents .defined entries

/-- Assigns a value to a dotted key in the table of a header, which is there since the header was
read. -/
def assignUnder (header path : List String) (value : Value) (entries : Entries) : Option Entries :=
  change .implied (fun _ inner => assign path value inner) header .defined entries

/-- Defines the table of a header.  It may be there already for the sake of a table below it, but
not by a header of its own. -/
def define (header : List String) (entries : Entries) : Option Entries := do
  let (parents, key) ← splitLast? header
  let edit := fun _ (inner : Entries) =>
    match inner.lookup key with
    | none => some (inner ++ [(key, .table .defined [])])
    | some (.table .implied below) => some (inner.replace key (.table .defined below))
    | some _ => none
  change .implied edit parents .defined entries

/-- Adds a table to the list of a header in double brackets, and makes the list if it is the
first. -/
def extend (header : List String) (entries : Entries) : Option Entries := do
  let (parents, key) ← splitLast? header
  let edit := fun _ (inner : Entries) =>
    match inner.lookup key with
    | none => some (inner ++ [(key, .tables [[]])])
    | some (.tables members) => some (inner.replace key (.tables (members ++ [[]])))
    | some _ => none
  change .implied edit parents .defined entries

end Entries

end Toml

end Retrace
