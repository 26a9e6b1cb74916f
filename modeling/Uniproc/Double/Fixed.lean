import Uniproc.Double.Basic

/-!
Numbers with a fixed count of decimal places. The exact value is rounded, a half
to the even neighbour.
-/

namespace Uniproc
namespace Double

/-- A whole count of units of the last place as digits around a point. -/
def placed (places units : Nat) : String :=
  let whole := units / Nat.pow 10 places
  let part := toString (units % Nat.pow 10 places)
  let zeros := String.ofList (List.replicate (places - part.length) '0')
  s!"{whole}.{zeros}{part}"

def fixed (places : Nat) : Double → String
  | .nan => "nan"
  | .infinite negative => if negative then "-inf" else "inf"
  | .finite negative m e =>
    let (a, b) := descale (m * Nat.pow 10 places) 1 (-e)
    (if negative then "-" else "") ++ placed places (roundDiv a b)

end Double
end Uniproc
