/-!
Texts as sequences of code points. Unlike a string, such a text can hold one half
of a surrogate pair alone, which escapes in JSON can produce.
-/

namespace Uniproc

abbrev CodePoints := List Nat

namespace CodePoints

def ofString (s : String) : CodePoints :=
  s.toList.map Char.toNat

/-- The characters of a text, with U+FFFD for each half of a pair that stands alone. -/
def toChars (s : CodePoints) : List Char :=
  s.map fun n => if n.isValidChar then Char.ofNat n else '\uFFFD'

def toString (s : CodePoints) : String :=
  String.ofList s.toChars

/-- Two halves of a surrogate pair in a row are one character. -/
def joinPairs : CodePoints → CodePoints
  | [] => []
  | [n] => [n]
  | high :: low :: rest =>
    if 0xD800 ≤ high ∧ high ≤ 0xDBFF ∧ 0xDC00 ≤ low ∧ low ≤ 0xDFFF then
      (0x10000 + (high - 0xD800) * 0x400 + (low - 0xDC00)) :: joinPairs rest
    else high :: joinPairs (low :: rest)

/-- Lexicographic order by code point. -/
def le (s t : CodePoints) : Bool :=
  !(List.lex t s)

end CodePoints
end Uniproc
