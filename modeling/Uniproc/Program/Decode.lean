import Uniproc.Program.Basic
import Uniproc.Text.Uppercase

/-!
Decoding of program text. The first character of a line that is not blank selects
the operation and the rest is its argument; blank lines are skipped. One bad line
fails the whole program.
-/

namespace Uniproc

/-- The instruction of a line, the `line`-th of the text `source`, and nothing for a
blank one. A line is looked at without the blanks around it. -/
def Instruction.ofLine (source : String) (line : Nat) (raw : List Char) :
    Except Fault (Option Instruction) :=
  match Text.strip raw with
  | [] => .ok none
  | first :: rest =>
    let code := Text.upperChar first
    let argument := Text.strip rest
    match Opcode.ofCode? code with
    | none => .error (.load (.invalidOperation (String.ofList code) line source))
    | some opcode =>
      if opcode.isNumeric then
        match Numeral.leading argument with
        | .ok number => .ok (some { opcode, number })
        | .error limit => .error (.numeral limit)
      else if opcode = .replace then
        if argument.isEmpty then .error (.load (.missingArgument line source))
        else .ok (some { opcode, path := String.ofList argument })
      else .ok (some { opcode })

namespace Program

def defaultSource : String := "<program>"

def defaultLimit : Int := 100

/-- The instructions of the lines from the `line`-th on, when there are `count` of
them already. A line is checked before the room that is left for it. -/
def decodeFrom (source : String) (limit : Int) :
    Nat → Nat → List (List Char) → Except Fault (List Instruction)
  | _, _, [] => .ok []
  | line, count, raw :: rest =>
    match Instruction.ofLine source line raw with
    | .error fault => .error fault
    | .ok none => decodeFrom source limit (line + 1) count rest
    | .ok (some instruction) =>
      if limit ≤ count then .error (.ofTooLong limit source)
      else (instruction :: ·) <$> decodeFrom source limit (line + 1) (count + 1) rest

/-- The program that lines stand for, if it has no more than `limit` instructions. Lines are
made of characters: halves of surrogate pairs, which no UTF-8 text has, are not in them. -/
def decode (lines : List (List Char)) (source : String) (limit : Int) : Except Fault Program :=
  Program.mk <$> decodeFrom source limit 1 0 lines

end Program
end Uniproc
