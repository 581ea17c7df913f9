/-!
# Paths

A path is read as a list of components between slashes. Two paths that name the same components
are brought to one text by `Path.normal`, which is the key of the module at that path.
-/

namespace Kestrel

/-- A component of a path. -/
inductive PathPart where
  /-- `.`, the place itself; it is kept only at the start of a relative path. -/
  | current
  /-- `..`, the place above. -/
  | parent
  | name (text : String)
  deriving DecidableEq, Repr, Inhabited

/-- A path: whether it starts at the root, and its components. -/
structure Path where
  isAbsolute : Bool
  parts : List PathPart
  deriving DecidableEq, Repr, Inhabited

namespace PathPart

/-- The component that a text between slashes stands for. -/
def ofText (text : String) : PathPart :=
  if text = "." then .current else if text = ".." then .parent else .name text

/-- A component as text. -/
def text : PathPart → String
  | current => "."
  | parent => ".."
  | name text => text

end PathPart

/-- The pieces of a text between slashes; `piece` is the current one, last character first. -/
def splitAtSlashes (piece : List Char) : List Char → List String
  | [] => [String.ofList piece.reverse]
  | c :: rest =>
    if c = '/' then String.ofList piece.reverse :: splitAtSlashes [] rest
    else splitAtSlashes (c :: piece) rest

/-- A file name cut at its last dot. A dot at the start does not count. -/
def splitExtension (name : String) : String × Option String :=
  let backwards := name.toList.reverse
  match backwards.dropWhile (· != '.') with
  | [] => (name, none)
  | [_] => (name, none)
  | _ :: stem =>
    (String.ofList stem.reverse,
      some (String.ofList (backwards.takeWhile (· != '.')).reverse))

namespace Path

/-- The extension of source files. -/
def sourceExtension : String := "kes"

/-- The path that a text denotes. Repeated slashes count once, a slash at the end and a `.` inside
not at all. -/
def ofText (text : String) : Path :=
  let isAbsolute := text.toList.head? == some '/'
  let parts := ((splitAtSlashes [] text.toList).filter (· != "")).map PathPart.ofText
  let kept := match isAbsolute, parts with
    | false, .current :: others => .current :: others.filter (· != .current)
    | _, _ => parts.filter (· != .current)
  ⟨isAbsolute, kept⟩

/-- A path as text. -/
def text (path : Path) : String :=
  (if path.isAbsolute then "/" else "") ++ "/".intercalate (path.parts.map PathPart.text)

/-- The name at the end of a path. -/
def fileName? (path : Path) : Option String :=
  match path.parts.getLast? with
  | some (.name name) => some name
  | _ => none

/-- What follows the last dot of the file name. -/
def extension? (path : Path) : Option String :=
  path.fileName?.bind fun name => (splitExtension name).2

/-- The path without its last component; the root and the empty path have none to lose. -/
def parent? (path : Path) : Option Path :=
  if path.parts.isEmpty then none else some { path with parts := path.parts.dropLast }

/-- A path inside a directory; an absolute path is not inside. -/
def join (directory path : Path) : Path :=
  if path.isAbsolute then path
  else if !directory.isAbsolute && directory.parts.isEmpty then path
  else { directory with parts := directory.parts ++ path.parts.filter (· != .current) }

/-- A path whose file name, if it has one, ends in the source extension. -/
def withSourceExtension (path : Path) : Path :=
  match path.fileName?, path.extension? with
  | some name, none =>
    { path with parts := path.parts.dropLast ++ [.name (name ++ "." ++ sourceExtension)] }
  | _, _ => path

/-- Adds a component to a normal path, given last component first: `..` takes the last component
away and stays only where there is none. -/
def step (parts : List PathPart) : PathPart → List PathPart
  | .current => parts
  | .parent =>
    match parts with
    | [] => [.parent]
    | _ :: others => others
  | part => part :: parts

/-- A path without detours. -/
def normal (path : Path) : Path :=
  { path with parts := (path.parts.foldl step []).reverse }

end Path

/-- A name with the source extension, unless it has an extension. -/
def withSourceExtension (name : String) : String :=
  match (Path.ofText name).extension? with
  | some _ => name
  | none => name ++ "." ++ Path.sourceExtension

namespace Path

/-- The path of a module that is imported as `path` from the module `importer`: beside the importer
unless it starts at the root. -/
def resolve (path importer : String) : Path :=
  let path := ofText path
  let resolved := match (ofText importer).parent? with
    | some directory => directory.join path
    | none => path
  resolved.withSourceExtension.normal

/-- The key of the module in a file. -/
def moduleKey (path : String) : String := (ofText path).normal.text

end Path

end Kestrel
