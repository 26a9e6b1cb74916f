import Uniproc.Double.Decimal
import Uniproc.Json.Basic
import Uniproc.Json.Fault
import Uniproc.Text.Hex

/-!
Reading JSON. Beside the standard's numbers, `NaN`, `Infinity` and `-Infinity` are
read; a text may hold halves of surrogate pairs, but no control character. Each
reader takes what is left of the text and returns what it leaves.
-/

namespace Uniproc
namespace Json

/-- A fault is placed by the number of characters from it to the end of the text. -/
inductive Stop
  | malformed (problem : Problem) (left : Nat)
  | digits (limit : Numeral.Limit)
  | tooDeep (container : Container)

abbrev Reader (α : Type) := List Char → Except Stop (α × List Char)

def isGap (c : Char) : Bool :=
  c = ' ' || c = '\t' || c = '\n' || c = '\r'

def skipGap (s : List Char) : List Char :=
  s.dropWhile isGap

def isAsciiDigit (c : Char) : Bool :=
  '0' ≤ c && c ≤ '9'

def escaped? : Char → Option Nat
  | '"' => some 0x22
  | '\\' => some 0x5C
  | '/' => some 0x2F
  | 'b' => some 0x08
  | 'f' => some 0x0C
  | 'n' => some 0x0A
  | 'r' => some 0x0D
  | 't' => some 0x09
  | _ => none

/-- The code points up to the closing quote, or what is wrong and how many characters
before the end; without a closing quote that is the fault. -/
def readPoints (s : List Char) : Except (Option (Problem × Nat)) (CodePoints × List Char) :=
  match s with
  | [] | ['\\'] => .error none
  | '"' :: rest => .ok ([], rest)
  | '\\' :: 'u' :: rest =>
    match Text.hexNumber? (rest.take 4) with
    | some n =>
      if (rest.drop 4).isEmpty then .error (some (.unicodeEscape, rest.length + 1))
      else do
        let (points, rest) ← readPoints (rest.drop 4)
        return (n :: points, rest)
    | none => .error (some (.unicodeEscape, rest.length + 1))
  | '\\' :: c :: rest =>
    match escaped? c with
    | some n => do
      let (points, rest) ← readPoints rest
      return (n :: points, rest)
    | none => .error (some (.escape, rest.length + 2))
  | c :: rest =>
    if c.toNat < 0x20 then .error (some (.control, rest.length + 1))
    else do
      let (points, rest) ← readPoints rest
      return (c.toNat :: points, rest)
termination_by s.length
decreasing_by all_goals simp; try omega

/-- A text after its opening quote. -/
def readText : Reader CodePoints := fun s =>
  match readPoints s with
  | .ok (points, rest) => .ok (points.joinPairs, rest)
  | .error (some (problem, left)) => .error (.malformed problem left)
  | .error none => .error (.malformed .unterminated (s.length + 1))

/-- The digits of a fraction, if a point with at least one digit comes next. -/
def readFraction : List Char → List Char × List Char
  | '.' :: rest =>
    let digits := rest.takeWhile isAsciiDigit
    if digits.isEmpty then ([], '.' :: rest) else (digits, rest.dropWhile isAsciiDigit)
  | s => ([], s)

/-- An exponent, if a complete one comes next. -/
def readExponent : List Char → Option Int × List Char
  | [] => (none, [])
  | c :: rest =>
    let (negative, tail) := Numeral.sign rest
    let digits := tail.takeWhile isAsciiDigit
    if (c = 'e' ∨ c = 'E') ∧ digits ≠ [] then
      (some (Numeral.signed negative (Numeral.value digits)), tail.dropWhile isAsciiDigit)
    else (none, c :: rest)

/-- A number without a leading zero. It is an integer if it has neither a fraction
nor an exponent; an integer has at most `limit` digits. -/
def readNumber (limit : Nat) : Reader Json := fun s =>
  let (negative, unsigned) := match s with
    | '-' :: rest => (true, rest)
    | s => (false, s)
  let (whole, rest) := match unsigned with
    | '0' :: rest => (['0'], rest)
    | s => (s.takeWhile isAsciiDigit, s.dropWhile isAsciiDigit)
  if whole.isEmpty then .error (.malformed .value s.length)
  else
    let (fraction, rest) := readFraction rest
    let (exponent, rest) := readExponent rest
    if fraction.isEmpty ∧ exponent = none then
      match Numeral.ofDigitsUpTo limit whole with
      | .ok n => .ok (.int (Numeral.signed negative n), rest)
      | .error limit => .error (.digits limit)
    else
      let place := exponent.getD 0 - (fraction.length : Int)
      .ok (.real (.ofDecimal negative (Numeral.value (whole ++ fraction)) place), rest)

def words : List (List Char × Json) := [
  ("null".toList, .null), ("true".toList, .bool true), ("false".toList, .bool false),
  ("NaN".toList, .real .nan), ("Infinity".toList, .real (.infinite false)),
  ("-Infinity".toList, .real (.infinite true))]

def readWord? (s : List Char) : Option (Json × List Char) :=
  (words.find? fun w => w.1.isPrefixOf s).map fun w => (w.2, s.drop w.1.length)

mutual

/-- A value that starts at once and is at most `depth` deep. The fuel bounds the number
of values, items and members; twice the length of the text is always enough of it. -/
def readValue (digits : Nat) : (fuel depth : Nat) → Reader Json
  | 0, _, s => .error (.malformed .value s.length)
  | fuel + 1, depth, s =>
    match s, depth with
    | '"' :: rest, _ => do
      let (t, rest) ← readText rest
      return (.text t, rest)
    | '[' :: _, 0 => .error (.tooDeep .array)
    | '\x7b' :: _, 0 => .error (.tooDeep .object)
    | '[' :: rest, depth + 1 =>
      match skipGap rest with
      | ']' :: rest => .ok (.array [], rest)
      | rest => do
        let (items, rest) ← readItems digits fuel depth rest
        return (.array items, rest)
    | '\x7b' :: rest, depth + 1 =>
      match skipGap rest with
      | '\x7d' :: rest => .ok (.object [], rest)
      | rest => do
        let (members, rest) ← readMembers digits fuel depth [] rest
        return (.object members, rest)
    | s, _ => match readWord? s with
      | some found => .ok found
      | none => readNumber digits s

/-- The items up to the closing bracket. -/
def readItems (digits : Nat) : (fuel depth : Nat) → Reader (List Json)
  | 0, _, s => .error (.malformed .value s.length)
  | fuel + 1, depth, s => do
    let (item, rest) ← readValue digits fuel depth s
    match skipGap rest with
    | ']' :: rest => return ([item], rest)
    | ',' :: rest => do
      let (items, rest) ← readItems digits fuel depth (skipGap rest)
      return (item :: items, rest)
    | rest => .error (.malformed .comma rest.length)

/-- The members up to the closing brace, after those read before. -/
def readMembers (digits : Nat) :
    (fuel depth : Nat) → List (CodePoints × Json) → Reader (List (CodePoints × Json))
  | 0, _, _, s => .error (.malformed .value s.length)
  | fuel + 1, depth, members, s =>
    match s with
    | '"' :: rest => do
      let (name, rest) ← readText rest
      match skipGap rest with
      | ':' :: rest => do
        let (v, rest) ← readValue digits fuel depth (skipGap rest)
        let members := putMember members name v
        match skipGap rest with
        | '\x7d' :: rest => return (members, rest)
        | ',' :: rest => readMembers digits fuel depth members (skipGap rest)
        | rest => .error (.malformed .comma rest.length)
      | rest => .error (.malformed .colon rest.length)
    | s => .error (.malformed .name s.length)

end

/-- The value a whole text denotes, if its integers have at most `digits` digits and no more
than `depth` arrays and objects are inside each other. -/
def readWithin (digits depth : Nat) (s : List Char) : Except ReadError Json :=
  let fail (problem : Problem) (left : Nat) : Except ReadError Json :=
    .error (.malformed (.locate problem s (s.length - left)))
  if s.head? = some '\uFEFF' then fail .byteOrderMark s.length
  else match readValue digits (2 * s.length + 2) depth (skipGap s) with
    | .error (.malformed problem left) => fail problem left
    | .error (.digits limit) => .error (.digits limit)
    | .error (.tooDeep container) => .error (.tooDeep container)
    | .ok (v, rest) => match skipGap rest with
      | [] => .ok v
      | rest => fail .extra rest.length

def read (depth : Nat) (s : List Char) : Except ReadError Json :=
  readWithin Numeral.digitLimit depth s

end Json
end Uniproc
