import Uniproc.Text.Blank
import Uniproc.Text.Digit

/-!
Decimal numerals. Integers have any size, but no numeral may have more than 4300
digits, neither when it is read nor when it is written.
-/

namespace Uniproc
namespace Numeral

def digitLimit : Nat := 4300

/-- A numeral with too many digits: one of the given length that was to be read, or
one that was to be written. -/
inductive Limit
  | reading (digits : Nat)
  | writing
deriving DecidableEq, Repr

def Limit.message : Limit → String
  | .reading digits =>
    "Exceeds the limit (4300 digits) for integer string conversion: " ++
      s!"value has {digits} digits; use sys.set_int_max_str_digits() to increase the limit"
  | .writing =>
    "Exceeds the limit (4300 digits) for integer string conversion; " ++
      "use sys.set_int_max_str_digits() to increase the limit"

def writingBound : Nat := Nat.pow 10 digitLimit

def isWritable (n : Int) : Bool :=
  n.natAbs < writingBound

def text (n : Int) : Except Limit String :=
  if isWritable n then .ok (toString n) else .error .writing

/-- The positional value of a run of digits, which may be of mixed scripts. -/
def value (digits : List Char) : Nat :=
  digits.foldl (fun n c => 10 * n + (Text.digitValue c).getD 0) 0

def ofDigitsUpTo (limit : Nat) (digits : List Char) : Except Limit Nat :=
  if digits.length ≤ limit then .ok (value digits) else .error (.reading digits.length)

def ofDigits (digits : List Char) : Except Limit Nat :=
  ofDigitsUpTo digitLimit digits

/-- A text's sign, if it starts with one, and what follows it. -/
def sign : List Char → Bool × List Char
  | '-' :: rest => (true, rest)
  | '+' :: rest => (false, rest)
  | s => (false, s)

def signed (negative : Bool) (n : Nat) : Int :=
  if negative then -n else n

/-- The integer a text starts with, or 0 if it starts with none. Whatever follows
the digits is ignored. -/
def leading (s : List Char) : Except Limit Int :=
  let (negative, rest) := sign s
  signed negative <$> ofDigits (rest.takeWhile Text.isDigit)

/-- The digits of a run in which single underscores may stand between two digits. -/
def ungrouped : List Char → Option (List Char)
  | [] => none
  | [c] => if Text.isDigit c then some [c] else none
  | c :: '_' :: rest => if Text.isDigit c then (c :: ·) <$> ungrouped rest else none
  | c :: rest => if Text.isDigit c then (c :: ·) <$> ungrouped rest else none

/-- Blanks that may surround an integer: all but the information separators. -/
def isMargin (c : Char) : Bool :=
  Text.isBlank c && !(0x1C ≤ c.toNat && c.toNat ≤ 0x1F)

/-- The integer that a whole text denotes, blanks around it apart. -/
def whole? (s : List Char) : Option Int :=
  let (negative, rest) := sign (Text.trim isMargin s)
  match (ungrouped rest).map ofDigits with
  | some (.ok n) => some (signed negative n)
  | _ => none

/-- One more digit at the end makes the value ten times as large, and adds itself. -/
theorem value_append (digits : List Char) {c : Char} {d : Nat} (h : Text.digitValue c = some d) :
    value (digits ++ [c]) = 10 * value digits + d := by
  simp [value, h]

end Numeral
end Uniproc
