import Kestrel.Module.Loader

/-!
# File trees

Files given by their paths from a top directory, which is where relative paths start. The
directories are those that the paths go through. Of what lies beside or above the top directory
nothing is known but that it is a tree of directories with a root, so that every name is missing
there.
-/

namespace Kestrel

/-- Files by their components from the top directory. -/
structure FileTree where
  files : List (List String × String)

namespace FileTree

/-- The tree of files with these paths. -/
def ofList (files : List (String × String)) : FileTree :=
  ⟨files.map fun file => ((Path.ofText file.1).normal.parts.map PathPart.text, file.2)⟩

/-- Whether some file lies below a directory. -/
def hasDirectory (tree : FileTree) (directory : List String) : Bool :=
  tree.files.any fun file => directory.isPrefixOf file.1 && directory != file.1

/-- Where the walk along a path has come to. -/
inductive Place where
  /-- A directory of the tree, last component first. -/
  | inside (directory : List String)
  /-- A directory above the top one, up to the root. -/
  | beyond
  | file (content : String)
  deriving DecidableEq, Repr

/-- The longest name that a component may have, in bytes. -/
def nameLimit : Nat := 255

/-- The longest path, in bytes. -/
def pathLimit : Nat := 4095

/-- What is found under a name that no directory has. -/
def absent (name : String) : FileContent :=
  if nameLimit < name.utf8ByteSize then .longName else .missing

/-- Walks along the pieces of a path between its slashes. -/
def walk (tree : FileTree) : Place → List String → FileContent
  | .inside _, [] => .directory
  | .beyond, [] => .directory
  | .file content, [] => .text content
  | .file _, _ :: _ => .throughFile
  | .inside directory, piece :: pieces =>
    match PathPart.ofText piece, directory with
    | .current, _ => tree.walk (.inside directory) pieces
    | .parent, [] => tree.walk .beyond pieces
    | .parent, _ :: above => tree.walk (.inside above) pieces
    | .name name, _ =>
      let place := name :: directory
      if name = "" then tree.walk (.inside directory) pieces
      else
        match tree.files.lookup place.reverse with
        | some content => tree.walk (.file content) pieces
        | none =>
          if tree.hasDirectory place.reverse then tree.walk (.inside place) pieces
          else absent name
  | .beyond, piece :: pieces =>
    match PathPart.ofText piece with
    | .name name => if name = "" then tree.walk .beyond pieces else absent name
    | _ => tree.walk .beyond pieces

/-- What is found at a path. -/
def find (tree : FileTree) : Files := fun path =>
  let letters := path.toList
  if letters.contains '\x00' then .withNul
  else if letters.isEmpty then .missing
  else if pathLimit < path.utf8ByteSize then .longName
  else
    let start : Place := if letters.head? == some '/' then .beyond else .inside []
    tree.walk start (splitAtSlashes [] letters)

end FileTree

end Kestrel
