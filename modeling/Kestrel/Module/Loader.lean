import Kestrel.Module.Path

/-!
# Loading modules

Modules come from files or from memory. Loading gives a module's key, which is the same however
the module is named, and its source text.
-/

namespace Kestrel

/-- What is found at a path. -/
inductive FileContent where
  | text (content : String)
  | directory
  /-- Something that cannot be read, and why. -/
  | unreadable (reason : String)
  /-- Nothing, and why. -/
  | absent (reason : String)
  /-- Nobody has looked yet. -/
  | unknown
  deriving DecidableEq, Repr, Inhabited

namespace FileContent

/-- There is no such file. -/
def missing : FileContent := .absent "No such file or directory (os error 2)"

/-- Something that is no directory is used as one. -/
def throughFile : FileContent := .absent "Not a directory (os error 20)"

/-- A name is longer than a system allows. -/
def longName : FileContent := .absent "File name too long (os error 36)"

/-- A path has a character that no path can have. -/
def withNul : FileContent := .absent "file name contained an unexpected NUL byte"

end FileContent

/-- Files by the text of their paths. -/
abbrev Files := String → FileContent

/-- A module ready to be parsed. -/
structure ModuleSource where
  key : String
  source : String
  deriving DecidableEq, Repr

/-- What loading gives. -/
inductive Loaded where
  | module (source : ModuleSource)
  | refused (reason : String)
  /-- The file at this path has to be looked at first. -/
  | awaiting (path : String)
  deriving DecidableEq, Repr

/-- What reading a file gives. -/
inductive FileRead where
  | content (text : String)
  | failed (reason : String)
  | awaiting
  deriving DecidableEq, Repr

/-- Reads a file. Failures are worded and numbered as the system does. -/
def readFile (files : Files) (path : String) : FileRead :=
  match files path with
  | .text content => .content content
  | .directory => .failed "Is a directory (os error 21)"
  | .unreadable reason => .failed reason
  | .absent reason => .failed reason
  | .unknown => .awaiting

/-- Where modules come from. -/
structure Loader where
  /-- Loads what the module `importer` imports as `path`. -/
  load : (path importer : String) → Loaded
  /-- The key of a module that is run under a name. -/
  entryKey : (name : String) → String

namespace Loader

/-- Modules from files, relative to the importing module. -/
def fromFiles (files : Files) : Loader where
  load path importer :=
    let resolved := (Path.resolve path importer).text
    match readFile files resolved with
    | .content source => .module ⟨resolved, source⟩
    | .failed reason => .refused (resolved ++ ": " ++ reason)
    | .awaiting => .awaiting resolved
  entryKey name := Path.moduleKey (withSourceExtension name)

/-- Modules from a list of keys with sources. -/
def fromMemory (modules : List (String × String)) : Loader where
  load path _ :=
    let key := withSourceExtension path
    match modules.lookup key with
    | some source => .module ⟨key, source⟩
    | none => .refused ("no module named '" ++ path ++ "'")
  entryKey := withSourceExtension

/-- Modules in memory under names that may lack the source extension. Of two modules with one key
the later one counts. -/
def ofModules (modules : List (String × String)) : Loader :=
  .fromMemory (modules.reverse.map fun module => (withSourceExtension module.1, module.2))

end Loader

end Kestrel
