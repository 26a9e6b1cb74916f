import Uniproc.Action
import Uniproc.Program.Basic

/-!
Programs as objects. A program is known by its place in the heap and holds its instructions in a
list, which is an object of its own. Both are changed in place, and everybody sees the change who
holds the program, or another program with the same list.
-/

namespace Uniproc
namespace Sharing

/-- The place of a program in the heap. -/
abbrev Reference := Nat

/-- All lists of instructions, and for each program the place of its list. Nothing is ever taken
away. -/
structure Heap where
  lists : List (List Instruction) := []
  programs : List Nat := []
deriving DecidableEq, Repr, Inhabited

namespace Heap

/-- Programs without instructions, each with a list of its own. -/
def ofCount (n : Nat) : Heap where
  lists := List.replicate n []
  programs := List.range n

/-- What a program holds at present. -/
def program (h : Heap) (p : Reference) : Program where
  instructions := ((h.programs[p]?).bind (h.lists[·]?)).getD []

def addList (instructions : List Instruction) : Action Heap Nat :=
  modifyGet fun h => (h.lists.length, { h with lists := h.lists ++ [instructions] })

/-- A new program with a new list of these instructions. -/
def make (instructions : List Instruction) : Action Heap Reference := do
  let list ← addList instructions
  modifyGet fun h => (h.programs.length, { h with programs := h.programs ++ [list] })

/-- A new program that shares nothing with the old one. -/
def copy (p : Reference) : Action Heap Reference := do
  make ((← get).program p).instructions

/-- Empties the list of a program, which stays the same list. -/
def clear (p : Reference) : Action Heap Unit :=
  modify fun h => match h.programs[p]? with
    | some list => { h with lists := h.lists.set list [] }
    | none => h

/-- Gives a program a new list of what another one holds. -/
def replaceWith (p other : Reference) : Action Heap Unit := do
  let list ← addList ((← get).program other).instructions
  modify fun h => { h with programs := h.programs.set p list }

end Heap
end Sharing
end Uniproc
