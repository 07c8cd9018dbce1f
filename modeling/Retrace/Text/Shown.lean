/-
# Names in quotes

A name that is shown in quotes is written so that every character can be told from its look:

| character | written |
| --- | --- |
| NUL, tab, line feed, carriage return | `\0`, `\t`, `\n`, `\r` |
| double quote, backslash | after a backslash |
| hidden | `\u`, and its number in braces |
| any other | as it is |

A character is hidden if there is nothing to see of it, if it may go unshown, or if it melts into
the one before.  The space is not, and neither are the halfwidth sound marks: they extend the
character before them but have a width of their own.

The messages of the inspector show the names of files and the paths that came out only once in this
way.
-/

import Retrace.Text.DefaultIgnorable
import Retrace.Text.GraphemeExtend
import Retrace.Text.Invisible

namespace Retrace

/-- Whether a character is one of the halfwidth sound marks. -/
def isHalfwidthSoundMark (c : Char) : Bool := c = '\uFF9E' || c = '\uFF9F'

/-- Whether a character cannot be told from its look, so that it is shown by its number. -/
def isHidden (c : Char) : Bool :=
  (isInvisible c && c ≠ ' ') || isDefaultIgnorable c ||
    (isGraphemeExtend c && !isHalfwidthSoundMark c)

/-- A character of a name that is shown in quotes: with a letter after a backslash if it has one, by
its number if it is hidden, else as it is. -/
def shownChar (c : Char) : List Char :=
  if c = '\x00' then ['\\', '0']
  else if c = '\t' then ['\\', 't']
  else if c = '\n' then ['\\', 'n']
  else if c = '\r' then ['\\', 'r']
  else if c = '"' ∨ c = '\\' then ['\\', c]
  else if isHidden c then ['\\', 'u', '{'] ++ Nat.toDigits 16 c.toNat ++ ['}']
  else [c]

/-- A name in quotes, as messages show the names of files and the paths that came out only once. -/
def shown (name : String) : String :=
  String.ofList ('"' :: (name.toList.flatMap shownChar ++ ['"']))

end Retrace
