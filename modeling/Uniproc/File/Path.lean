import Uniproc.Text.Pieces

/-!
Paths of files. A path has a root, which is empty for a relative one, and names.
Empty names and `.` are dropped when a path is read; `..` stays, because where it
leads depends on the files there are.
-/

namespace Uniproc

structure Path where
  root : String
  names : List String
deriving DecidableEq, Repr, Inhabited

namespace Path

/-- The directory one is in. -/
def here : Path := ⟨"", []⟩

/-- Exactly two leading slashes are a root of their own. -/
def rootOf (s : List Char) : String :=
  match (s.takeWhile (· = '/')).length with
  | 0 => ""
  | 2 => "//"
  | _ => "/"

def ofString (s : String) : Path where
  root := rootOf s.toList
  names :=
    let pieces := (Text.pieces '/' s.toList).filter fun name => name ≠ [] ∧ name ≠ ['.']
    pieces.map String.ofList

def isAbsolute (p : Path) : Bool :=
  p.root ≠ ""

/-- What `p` names when one is in `base`. -/
def join (base p : Path) : Path :=
  if p.isAbsolute then p else ⟨base.root, base.names ++ p.names⟩

def toString (p : Path) : String :=
  let s := p.root ++ "/".intercalate p.names
  if s.isEmpty then "." else s

/-- No file has a name with a null character. -/
def hasNull (p : Path) : Bool :=
  p.names.any fun name => name.toList.contains '\x00'

/-- One name more, after names of which the last comes first. A `..` takes back the name
before it; with nothing to take back it stays. -/
def follow : List String → String → List String
  | [], name => [name]
  | last :: passed, name =>
    if name = ".." ∧ last ≠ ".." then passed else name :: last :: passed

/-- The names that are left of a chain when every `..` has been followed. They lead to the
same place if no directory on the way is missing. -/
def settle (names : List String) : List String :=
  (names.foldl follow []).reverse

end Path
end Uniproc
