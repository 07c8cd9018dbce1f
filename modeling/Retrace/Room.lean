/-
# Room that is set aside

Some lists and tables get room for all that they are expected to hold as soon as they are made.  How
much that is comes from the configuration, whose capacities are hints only (specification, section
4.3), so it is never too little.  But it may be too much: no single piece of room has more bytes than
half of what 64 bits can address, and where more is asked for, the program breaks off.

| room for | bytes |
| --- | --- |
| a list of `count` items | `count * size` |
| a table of `count` entries | `places * (size + 1)`, and 31 more |

A table has more places than entries (`places`), and a byte beside each place that says whether it is
taken.  Of the 31 bytes 16 repeat the first of these, and 15 are lost if the table is to begin at a
multiple of 16.

Below the bound it is up to the machine whether there is so much memory, and nothing is said about
that.

The specification knows of storage that is sized in advance (sections 4.1 and 4.3); what becomes of
a size that nothing can have is left to the program, and this is what it does.
-/

namespace Retrace

/-- A piece of room that is set aside in advance, for a number of items of so many bytes each. -/
inductive Room where
  /-- Room for the items of a list, one after another. -/
  | list (count size : Nat)
  /-- Room for the entries of a hash table, spread over more places than there are entries. -/
  | table (count size : Nat)
deriving DecidableEq

namespace Room

/-- How many places a hash table has that is to take so many entries without growing: a power of two,
of which one place in eight stays free, but no fewer than four. -/
def places (count : Nat) : Nat :=
  if count < 4 then 4
  else if count < 8 then 8
  else Nat.pow 2 ((count * 8 / 7 - 1).log2 + 1)

/-- How many bytes are asked for; a table for no entries has no places yet. -/
def bytes : Room → Nat
  | list count size => count * size
  | table 0 _ => 0
  | table count size => places count * (size + 1) + 31

/-- Whether so many bytes may be asked for at once. -/
def Fits (room : Room) : Prop := room.bytes ≤ 0x7FFFFFFFFFFFFFFF

instance (room : Room) : Decidable room.Fits := inferInstanceAs (Decidable (_ ≤ _))

/-- What the program says when it breaks off because too much is asked for. -/
def words : Room → String
  | list .. => "capacity overflow"
  | table .. => "Hash table capacity overflow"

end Room

end Retrace
