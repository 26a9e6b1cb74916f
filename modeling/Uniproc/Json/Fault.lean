import Uniproc.Numeral

/-!
Why a text is no JSON value, and where.
-/

namespace Uniproc
namespace Json

inductive Problem
  | byteOrderMark
  | value
  | name
  | colon
  | comma
  | unterminated
  | control
  | escape
  | unicodeEscape
  | extra
deriving DecidableEq, Repr

def Problem.message : Problem → String
  | .byteOrderMark => "Unexpected UTF-8 BOM (decode using utf-8-sig)"
  | .value => "Expecting value"
  | .name => "Expecting property name enclosed in double quotes"
  | .colon => "Expecting ':' delimiter"
  | .comma => "Expecting ',' delimiter"
  | .unterminated => "Unterminated string starting at"
  | .control => "Invalid control character at"
  | .escape => "Invalid \\escape"
  | .unicodeEscape => "Invalid \\uXXXX escape"
  | .extra => "Extra data"

/-- `position` counts characters from 0, line and column from 1. -/
structure Fault where
  problem : Problem
  line : Nat
  column : Nat
  position : Nat
deriving DecidableEq, Repr

def Fault.message (f : Fault) : String :=
  s!"{f.problem.message}: line {f.line} column {f.column} (char {f.position})"

/-- The fault `position` characters into a text. -/
def Fault.locate (problem : Problem) (s : List Char) (position : Nat) : Fault :=
  let before := s.take position
  { problem, position
    line := before.count '\n' + 1
    column := (before.reverse.takeWhile (· ≠ '\n')).length + 1 }

/-- What can hold other values. -/
inductive Container
  | array
  | object
deriving DecidableEq, Repr

def Container.name : Container → String
  | .array => "array"
  | .object => "object"

/-- A text can also hold too much: an integer with too many digits, or too many arrays
and objects inside each other, of which the given one is the first too many. -/
inductive ReadError
  | malformed (fault : Fault)
  | digits (limit : Numeral.Limit)
  | tooDeep (container : Container)
deriving DecidableEq, Repr

end Json
end Uniproc
