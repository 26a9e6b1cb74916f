import Uniproc.Text.CodePoints
import Uniproc.Text.Hex

/-!
Halves of surrogate pairs that stand alone. A sequence of code points can hold them, but they
are no characters and UTF-8 has no bytes for them.
-/

namespace Uniproc
namespace CodePoints

def isHalf (n : Nat) : Bool :=
  0xD800 ≤ n && n ≤ 0xDFFF

/-- Halves in a row, from `start` up to `stop`; `first` is the one at `start`. -/
structure Unpaired where
  first : Nat
  start : Nat
  stop : Nat
deriving DecidableEq, Repr

def Unpaired.message (u : Unpaired) : String :=
  if u.stop = u.start + 1 then
    let digits := String.ofList (Text.hexDigits 4 u.first)
    s!"'utf-8' codec can't encode character '\\u{digits}' in position {u.start}: " ++
      "surrogates not allowed"
  else
    s!"'utf-8' codec can't encode characters in position {u.start}-{u.stop - 1}: " ++
      "surrogates not allowed"

/-- The first halves in a text that stand in a row. -/
def unpaired? (s : CodePoints) : Option Unpaired :=
  match s.dropWhile (!isHalf ·) with
  | [] => none
  | first :: rest =>
    let start := (s.takeWhile (!isHalf ·)).length
    some { first, start, stop := start + 1 + (rest.takeWhile isHalf).length }

end CodePoints
end Uniproc
