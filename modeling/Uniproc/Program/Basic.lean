import Uniproc.Fault
import Uniproc.Instruction

/-!
Programs: sequences of instructions.
-/

namespace Uniproc

/-- The operation of the given letter. -/
def Opcode.ofName (name : String) : Except Fault Opcode :=
  match ofCode? name.toList with
  | some op => .ok op
  | none => .error (.unknownOpcode name)

structure Program where
  instructions : List Instruction := []
deriving DecidableEq, Repr, Inhabited

namespace Program

def length (p : Program) : Nat :=
  p.instructions.length

/-- The instruction at a position, which may count from the end. -/
def get (p : Program) (i : Int) : Except Fault Instruction :=
  match (resolveIndex p.length i).bind (p.instructions[·]?) with
  | some instruction => .ok instruction
  | none => .error (.ofPosition i)

/-- The lines of the program's text. -/
def lines (p : Program) : Except Numeral.Limit (List String) :=
  p.instructions.mapM Instruction.text

def display (p : Program) : Except Numeral.Limit String := do
  let lines ← p.lines
  return "Program([" ++ ", ".intercalate (lines.map Text.quoted) ++ "])"

end Program
end Uniproc
