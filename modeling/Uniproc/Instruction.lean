import Uniproc.Numeral

/-!
Instructions of a simulated process and the texts that stand for them in a
program file.
-/

namespace Uniproc

inductive Opcode
  | set
  | add
  | subtract
  | block
  | halt
  | fork
  | replace
deriving DecidableEq, Repr

namespace Opcode

def letter : Opcode → Char
  | .set => 'S'
  | .add => 'A'
  | .subtract => 'D'
  | .block => 'B'
  | .halt => 'E'
  | .fork => 'F'
  | .replace => 'R'

/-- The operation that a code selects: its letter, alone and upper case. -/
def ofCode? : List Char → Option Opcode
  | ['S'] => some .set
  | ['A'] => some .add
  | ['D'] => some .subtract
  | ['B'] => some .block
  | ['E'] => some .halt
  | ['F'] => some .fork
  | ['R'] => some .replace
  | _ => none

/-- Whether the argument of the operation is a number. -/
def isNumeric : Opcode → Bool
  | .set | .add | .subtract | .fork => true
  | .block | .halt | .replace => false

theorem ofCode?_letter (op : Opcode) : ofCode? [op.letter] = some op := by
  cases op <;> rfl

theorem eq_letter_of_ofCode? {code : List Char} {op : Opcode} (h : ofCode? code = some op) :
    code = [op.letter] := by
  unfold ofCode? at h
  split at h <;> simp_all [letter] <;> subst h <;> rfl

end Opcode

/-- A numeric operation carries a number and a replacement a path. -/
structure Instruction where
  opcode : Opcode
  number : Int := 0
  path : String := ""
deriving DecidableEq, Repr

/-- The line that stands for an instruction. -/
def Instruction.text (i : Instruction) : Except Numeral.Limit String :=
  if i.opcode.isNumeric then
    (fun number => s!"{i.opcode.letter} {number}") <$> Numeral.text i.number
  else if i.opcode = .replace then .ok s!"{i.opcode.letter} {i.path}"
  else .ok (String.singleton i.opcode.letter)

end Uniproc
