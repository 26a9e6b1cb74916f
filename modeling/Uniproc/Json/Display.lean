import Uniproc.Double.Shortest
import Uniproc.Json.Basic
import Uniproc.Numeral
import Uniproc.Text.Quoted

/-!
JSON values as messages show them.
-/

namespace Uniproc
namespace Json

/-- Why a value cannot be shown: an integer in it has too many digits, or too many values in
it are inside each other. -/
inductive DisplayError
  | digits (limit : Numeral.Limit)
  | tooDeep
deriving DecidableEq, Repr

mutual

/-- A value as a message shows it, if no more than `levels` values in it are inside each
other. -/
def display : (levels : Nat) → Json → Except DisplayError String
  | 0, _ => .error .tooDeep
  | _ + 1, .null => .ok "None"
  | _ + 1, .bool b => .ok (if b then "True" else "False")
  | _ + 1, .int n => (Numeral.text n).mapError .digits
  | _ + 1, .real x => .ok x.shortest
  | _ + 1, .text s => .ok (Text.quotedPoints s)
  | levels + 1, .array items => do
    let shown ← displayItems levels items
    return "[" ++ ", ".intercalate shown ++ "]"
  | levels + 1, .object members => do
    let shown ← displayMembers levels members
    return "\x7b" ++ ", ".intercalate shown ++ "\x7d"

def displayItems (levels : Nat) : List Json → Except DisplayError (List String)
  | [] => .ok []
  | item :: rest => do
    let first ← display levels item
    return first :: (← displayItems levels rest)

def displayMembers (levels : Nat) :
    List (CodePoints × Json) → Except DisplayError (List String)
  | [] => .ok []
  | (name, v) :: rest => do
    let shown ← display levels v
    return (Text.quotedPoints name ++ ": " ++ shown) :: (← displayMembers levels rest)

end

end Json
end Uniproc
