/-
# Files

What the inspector finds under a file name, and files that are held in memory.

A name is followed from slash to slash, beginning at the directory of the files:

| part | leads |
| --- | --- |
| empty, or a dot | nowhere else, but only from a directory |
| two dots | to the directory above, but only from a directory |
| any other | to what has that name in the directory |

Above the files nothing is known but that there are directories; a name that begins with a slash
begins there.  A name that is too long leads nowhere.
-/

namespace Retrace

namespace Inspector

/-- What is found under a file name, as far as the inspector can tell. -/
inductive FileContent where
  /-- There is nothing. -/
  | missing
  /-- There is something that is no text. -/
  | unreadable
  /-- There is a text. -/
  | text (content : String)
deriving DecidableEq

/-- The names of the directories on the way to a file, and its own, where two dots lead one part
back.  Nothing is looked at for it. -/
def nameParts (name : String) : List String :=
  (name.splitOn "/").foldl (fun parts part =>
    if part = "" ∨ part = "." then parts
    else if part = ".." then parts.dropLast
    else parts ++ [part]) []

/-- How many bytes a name may have. -/
def longestName : Nat := 4095

/-- Files, each with its path.  A directory is there if a file is in it, and no file is one. -/
structure FileTree where
  /-- The paths of the files, with their bytes. -/
  files : List (List String × ByteArray)

/-- What a file name leads to. -/
inductive Place where
  /-- A directory above the files. -/
  | above
  /-- A directory of the files, with its path. -/
  | directory (path : List String)
  /-- A file. -/
  | file (content : ByteArray)

namespace FileTree

/-- Files by name. -/
def ofNames (files : List (String × ByteArray)) : FileTree :=
  ⟨files.map fun f => (nameParts f.1, f.2)⟩

/-- What is at a path: a file, or a directory on the way to one; nothing if no file has to do with
it. -/
def at? (tree : FileTree) (path : List String) : Option Place :=
  match tree.files.lookup path with
  | some content => some (.file content)
  | none =>
    if tree.files.any fun f => path.isPrefixOf f.1 then some (.directory path) else none

/-- Follows one part of a name, from where the parts before it have led. -/
def enter? (tree : FileTree) (place : Place) (part : String) : Option Place :=
  match place with
  | .file _ => none
  | .above => if part ∈ ["", ".", ".."] then some .above else none
  | .directory path =>
    if part = "" ∨ part = "." then some place
    else if part = ".." then some (if path = [] then .above else .directory path.dropLast)
    else tree.at? (path ++ [part])

/-- What the parts of a name lead to; an empty name leads nowhere. -/
def follow? (tree : FileTree) : List String → Option Place
  | [""] => none
  | "" :: parts => parts.foldlM tree.enter? .above
  | parts => parts.foldlM tree.enter? (.directory [])

/-- What a name leads to, unless it is too long to lead anywhere. -/
def find? (tree : FileTree) (name : String) : Option Place :=
  if name.utf8ByteSize ≤ longestName then tree.follow? (name.splitOn "/") else none

/-- What is found under a name: the text of a file, if its bytes are UTF-8.  A directory is no
text. -/
def read (tree : FileTree) (name : String) : FileContent :=
  match tree.find? name with
  | none => .missing
  | some (.file content) =>
    match String.fromUTF8? content with
    | some text => .text text
    | none => .unreadable
  | some _ => .unreadable

end FileTree

end Inspector

end Retrace
