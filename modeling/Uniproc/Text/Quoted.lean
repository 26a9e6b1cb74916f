import Uniproc.Text.CodePoints
import Uniproc.Text.Hex
import Uniproc.Text.HiddenTable

/-!
Quoted texts. The quote is `'`, or `"` for a text that has a `'` and no `"`. Inside,
the quote and the backslash follow a backslash, three controls have a letter, and
whatever has no visible form is written by its number.
-/

namespace Uniproc
namespace Text

def isVisible (n : Nat) : Bool :=
  if n < 0x7F then 0x20 ≤ n else !(hiddenRuns.any fun r => r.1 ≤ n && n ≤ r.2)

/-- One code point between quotes of the kind `quote`. -/
def quotedPoint (quote : Char) (n : Nat) : List Char :=
  if n == quote.toNat || n == 0x5C then ['\\', Char.ofNat n]
  else if n == 0x0A then ['\\', 'n']
  else if n == 0x0D then ['\\', 'r']
  else if n == 0x09 then ['\\', 't']
  else if isVisible n then [Char.ofNat n]
  else if n < 0x100 then '\\' :: 'x' :: hexDigits 2 n
  else if n < 0x10000 then '\\' :: 'u' :: hexDigits 4 n
  else '\\' :: 'U' :: hexDigits 8 n

def quoteFor (s : CodePoints) : Char :=
  if s.contains 0x27 && !s.contains 0x22 then '"' else '\''

def quotedPoints (s : CodePoints) : String :=
  let quote := quoteFor s
  String.ofList (quote :: s.flatMap (quotedPoint quote) ++ [quote])

def quoted (s : String) : String :=
  quotedPoints (CodePoints.ofString s)

end Text
end Uniproc
