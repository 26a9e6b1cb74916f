/-!
Pieces of a text between separators, and cutting at the first separator.
-/

namespace Uniproc
namespace Text

/-- There is always a piece, and one more for each separator. -/
def pieces (separator : Char) : List Char → List (List Char)
  | [] => [[]]
  | c :: rest =>
    if c = separator then [] :: pieces separator rest
    else match pieces separator rest with
      | [] => [[c]]
      | piece :: more => (c :: piece) :: more

/-- What stands before the first separator and what follows it, if there is one. -/
def cut (separator : Char) (s : List Char) : List Char × Option (List Char) :=
  (s.takeWhile (· ≠ separator), (s.dropWhile (· ≠ separator)).tail?)

end Text
end Uniproc
