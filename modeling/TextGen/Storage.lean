/-!
Stored files as a program sees them: what a path leads to. Paths are texts with `/` between their
parts.
-/

namespace TextGen

namespace Path

def join (base child : String) : String :=
  if child.startsWith "/" ∨ base.isEmpty then child
  else if base.endsWith "/" then base ++ child
  else base ++ "/" ++ child

end Path

inductive StoredEntry
  | directory
  | file (contents : List UInt8)
  deriving DecidableEq, Repr

abbrev Storage := String → Option StoredEntry

namespace Storage

def isDirectory (storage : Storage) (path : String) : Bool :=
  match storage path with
  | some .directory => true
  | _ => false

def read? (storage : Storage) (path : String) : Option (List UInt8) :=
  match storage path with
  | some (.file contents) => some contents
  | _ => none

def resolve (storage : Storage) (path name : String) : String :=
  if storage.isDirectory path then Path.join path name else path

end Storage

structure FileTree where
  files : List (List String × List UInt8)
  directories : List (List String)

namespace FileTree

def entry? (tree : FileTree) (names : List String) : Option StoredEntry :=
  match tree.files.lookup names with
  | some contents => some (.file contents)
  | none =>
    let below (path : List String) : Bool := names.isPrefixOf path
    if names.isEmpty ∨ tree.files.any (fun f => below f.1) ∨ tree.directories.any below then
      some .directory
    else none

/--
Follow the parts of a path from a directory down. An empty part and `.` stay, `..` goes back up, and
every part but the last has to lead to a directory.
-/
def follow (tree : FileTree) : List String → List String → Option StoredEntry
  | names, [] => tree.entry? names
  | names, part :: parts =>
    match tree.entry? names with
    | some .directory =>
      if part = "" ∨ part = "." then follow tree names parts
      else if part = ".." then follow tree names.dropLast parts
      else follow tree (names ++ [part]) parts
    | _ => none

def parts (path : String) : List String := path.splitOn "/"

def storage (tree : FileTree) : Storage := fun path =>
  if path.isEmpty then none else tree.follow [] (parts path)

def insert (tree : FileTree) (path : String) (contents : List UInt8) : FileTree :=
  { tree with files := (parts path, contents) :: tree.files }

end FileTree

end TextGen
