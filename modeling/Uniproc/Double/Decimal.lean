import Uniproc.Double.Basic

/-!
The number nearest to a decimal.
-/

namespace Uniproc
namespace Double

/-- The number nearest to `c · 10 ^ k`. Far outside the range of finite numbers the
power itself is not worked out. -/
def ofDecimal (negative : Bool) (c : Nat) (k : Int) : Double :=
  if c = 0 then .finite negative 0 leastExponent
  else
    let size : Int := (Nat.toDigits 10 c).length + k
    if 310 < size then .infinite negative
    else if size < -330 then .finite negative 0 leastExponent
    else if 0 ≤ k then ofRatio negative (c * Nat.pow 10 k.toNat) 1
    else ofRatio negative c (Nat.pow 10 (-k).toNat)

end Double
end Uniproc
