import Uniproc.Double.Basic
import Uniproc.Text.CodePoints

/-!
JSON values. Integers are kept apart from other numbers, an object keeps its
members in order, and a text is a sequence of code points.
-/

namespace Uniproc

inductive Json
  | null
  | bool (b : Bool)
  | int (n : Int)
  | real (x : Double)
  | text (s : CodePoints)
  | array (items : List Json)
  | object (members : List (CodePoints × Json))
deriving Inhabited

namespace Json

/-- Members in which no name comes twice. A name that comes again keeps its first
place and takes the new value. -/
def putMember (members : List (CodePoints × Json)) (name : CodePoints) (v : Json) :
    List (CodePoints × Json) :=
  if members.any (·.1 == name) then
    members.map fun m => if m.1 == name then (name, v) else m
  else members ++ [(name, v)]

/-- How many values may be inside each other: arrays and objects in a text that is read, and
values of any kind in one that a message shows. Both are set by what runs the program, which
can show whatever it has read. -/
structure Nesting where
  read : Nat
  shown : Nat
  read_le_shown : read ≤ shown

/-- The same for reading and for showing. -/
def Nesting.upTo (n : Nat) : Nesting where
  read := n
  shown := n
  read_le_shown := Nat.le_refl n

def member? (members : List (CodePoints × Json)) (name : String) : Option Json :=
  members.lookup (CodePoints.ofString name)

end Json
end Uniproc
