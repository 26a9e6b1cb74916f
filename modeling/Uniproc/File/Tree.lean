import Uniproc.File.View

/-!
A tree of files and directories, and the walk that finds a file in it. The walk starts in
the top directory of the tree. What is known of the directory above the top stands in the
top under the name `..`; nothing else is around the tree.
-/

namespace Uniproc

inductive FileTree
  | file (bytes : List UInt8)
  | directory (entries : List (String × FileTree))
deriving Inhabited

namespace FileTree

def empty : FileTree := .directory []

/-- What stands in a directory. In a file stands nothing. -/
def entries : FileTree → List (String × FileTree)
  | .file _ => []
  | .directory entries => entries

/-- What a new entry replaces, or an empty directory where there was none. -/
def child (entries : List (String × FileTree)) (name : String) : FileTree :=
  (entries.lookup name).getD empty

def setEntry (entries : List (String × FileTree)) (name : String) (node : FileTree) :
    List (String × FileTree) :=
  if entries.any (·.1 == name) then
    entries.map fun e => if e.1 == name then (name, node) else e
  else entries ++ [(name, node)]

/-- The tree with what is at the end of a chain of names changed. Missing directories on
the way are made, and a file on the way gives way to one. -/
def alter (f : FileTree → FileTree) : List String → FileTree → FileTree
  | [], tree => f tree
  | name :: names, tree =>
    .directory (setEntry tree.entries name (alter f names (child tree.entries name)))

/-- A directory stays as it is, and a file gives way to an empty one. -/
def asDirectory (tree : FileTree) : FileTree :=
  .directory tree.entries

/-- The tree with all directories that a walk passes. The names behind the walk are given
with the last one first, then those in front of it. -/
def insertDirectories : List String → List String → FileTree → FileTree
  | _, [], tree => tree
  | passed, name :: names, tree =>
    let passed := Path.follow passed name
    insertDirectories passed names (alter asDirectory passed.reverse tree)

def insertDirectory (p : Path) (tree : FileTree) : FileTree :=
  insertDirectories [] p.names tree

/-- The directories on the way to a file are made before the file, also those that a later
`..` leaves again. -/
def insertFile (bytes : List UInt8) (p : Path) (tree : FileTree) : FileTree :=
  alter (fun _ => .file bytes) (Path.settle p.names)
    (insertDirectories [] p.names.dropLast tree)

/-- The tree without what is at the end of a chain of names. The top stays. -/
def erase : List String → FileTree → FileTree
  | [], tree => tree
  | _, .file bytes => .file bytes
  | [name], .directory entries => .directory (entries.filter (·.1 != name))
  | name :: names, .directory entries =>
    match entries.lookup name with
    | none => .directory entries
    | some node => .directory (setEntry entries name (erase names node))

/-- A walk stands in a directory, with the directories that lead there, innermost first; or
on a file. -/
inductive Place
  | inside (entries : List (String × FileTree)) (above : List (List (String × FileTree)))
  | onFile (bytes : List UInt8)

def longestName : Nat := 255

def longestPath : Nat := 4095

def Place.enter (name : String) : Place → Except ReadFault Place
  | .onFile _ => .error .notDirectory
  | .inside here above =>
    if name = ".." then
      match above with
      | [] => .ok (.inside (child here name).entries [])
      | parent :: rest => .ok (.inside parent rest)
    else if longestName < name.utf8ByteSize then .error .nameTooLong
    else match here.lookup name with
      | none => .error .notFound
      | some (.file bytes) => .ok (.onFile bytes)
      | some (.directory inner) => .ok (.inside inner (here :: above))

def Place.read : Place → Except ReadFault (List UInt8)
  | .onFile bytes => .ok bytes
  | .inside _ _ => .error .isDirectory

/-- An absolute path starts where nothing is known. -/
def start (p : Path) : FileTree → Place
  | .file bytes => if p.isAbsolute then .inside [] [] else .onFile bytes
  | .directory entries => .inside (if p.isAbsolute then [] else entries) []

def view (tree : FileTree) : FileView := fun p =>
  if longestPath < p.toString.utf8ByteSize then .error .nameTooLong
  else do
    let place ← p.names.foldlM (fun place name => place.enter name) (tree.start p)
    place.read

/-- The tree without a file that can be read. Nothing else is removed. -/
def remove (p : Path) (tree : FileTree) : FileTree :=
  if (tree.view p).isOk then erase (Path.settle p.names) tree else tree

end FileTree
end Uniproc
