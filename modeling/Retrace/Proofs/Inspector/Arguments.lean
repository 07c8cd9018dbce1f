/-
# Plain arguments

An argument that does not look like an option is none (`commonOption?_of_not_dashed`).  So a command
with a plain file name, and nothing besides, is read as it stands:

| arguments | command |
| --- | --- |
| `paths`, a file name | the paths of the image in that file, from all of its roots |
| `verify`, a file name | a check of that image |

The commands are those of the command-line tool (specification, section 10).
-/

import Mathlib.Data.List.Basic
import Retrace.Inspector.Invocation

namespace Retrace

namespace Inspector

variable {option argument image : String} {named : Option String}

theorem isDashed_of_joined? (hoption : option.toList.head? = some '-') {value : String}
    (h : joined? option argument = some value) : isDashed argument = true := by
  obtain ⟨t, ht, _⟩ := Option.map_eq_some_iff.1 h
  have happend := List.append_eq_of_isPrefixOf?_eq_some ht
  have hlength : 2 ≤ argument.toList.length := by
    cases hc : option.toList with
    | nil => simp [hc] at hoption
    | cons c cs =>
      simp only [← happend, hc, List.length_append, List.length_cons]
      omega
  have hdash : argument ≠ "-" := by
    rintro rfl
    simp at hlength
  have hhead : argument.toList.head? = some '-' := by
    rw [← happend, List.append_assoc, List.head?_append, hoption]
    rfl
  simp [isDashed, hdash, hhead]

theorem value?_of_not_dashed (hoption : isDashed option = true) (h : isDashed argument = false)
    (rest : List String) : value? option (argument :: rest) = none := by
  have hhead : option.toList.head? = some '-' := by
    simp only [isDashed, Bool.and_eq_true, decide_eq_true_eq] at hoption
    exact hoption.2
  have hjoined : joined? option argument = none := by
    rw [Option.eq_none_iff_forall_ne_some]
    intro value hvalue
    rw [isDashed_of_joined? hhead hvalue] at h
    cases h
  have hne : argument ≠ option := by
    rintro rfl
    rw [hoption] at h
    cases h
  simp [value?, hjoined, hne]

/-- **An argument that does not look like an option is none**, whatever stands after it. -/
theorem commonOption?_of_not_dashed (h : isDashed argument = false) (o : Options)
    (rest : List String) : commonOption? o (argument :: rest) = none := by
  unfold commonOption?
  rw [value?_of_not_dashed (by decide) h rest]
  dsimp only
  split
  · next he =>
    cases he
    exact absurd h (by decide)
  · rfl

/-- A file name alone may stand after a command, and is then taken as it is. -/
theorem readAfter_image (h : isDashed image = false) (takesRoots : Bool) :
    readAfter takesRoots 1 {} [] [image] = .ok ({}, [image]) := by
  have hend : image ≠ "--" := by
    rintro rfl
    exact absurd h (by decide)
  have hroot : (if takesRoots then value? "--root" [image] else none) = none := by
    rw [value?_of_not_dashed (by decide) h, ite_self]
  rw [readAfter, if_neg hend]
  split
  · next he => simp [commonOption?_of_not_dashed h] at he
  · next he => simp [commonOption?_of_not_dashed h] at he
  · split
    · next he => simp [hroot] at he
    · next he => simp [hroot] at he
    · simp [h, readAfter]

/-- A command that reads its arguments without options is the whole of a call. -/
theorem read_of_command? (hnamed : named ≠ some "") {name : String} (hdash : isDashed name = false)
    (hversion : name.toList.take 2 ≠ ['-', 'V']) {rest : List String} {c : Command}
    (h : command? name rest = some (.ok ({}, c))) :
    Invocation.read named (name :: rest) = .ok ⟨named, false, c⟩ := by
  have hne : name ≠ "--version" := by
    rintro rfl
    exact absurd hdash (by decide)
  rw [Invocation.read, readBefore]
  split
  · next he => simp [commonOption?_of_not_dashed hdash] at he
  · next he => simp [commonOption?_of_not_dashed hdash] at he
  · rw [if_neg (not_or.2 ⟨hne, hversion⟩), h]
    simp [bind, Except.bind, join, hnamed]

theorem read_verify (hnamed : named ≠ some "") (himage : image ≠ "")
    (hdash : isDashed image = false) :
    Invocation.read named ["verify", image] = .ok ⟨named, false, .verify image⟩ :=
  read_of_command? hnamed (by decide) (by decide)
    (by simp [command?, readAfter_image hdash, himage, bind, Except.bind])

theorem read_paths (hnamed : named ≠ some "") (himage : image ≠ "")
    (hdash : isDashed image = false) :
    Invocation.read named ["paths", image] = .ok ⟨named, false, .paths image []⟩ :=
  read_of_command? hnamed (by decide) (by decide)
    (by simp [command?, readAfter_image hdash, himage, bind, Except.bind])

end Inspector

end Retrace
