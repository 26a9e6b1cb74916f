/-!
Floating-point numbers of 64 bits, held exactly: a finite one is its sign, a whole
coefficient and a power of two. Quotients of whole numbers are rounded to the
nearest such number, and of two equally near ones to that with the even coefficient.
-/

namespace Uniproc

/-- `finite negative m e` is `m · 2 ^ e`, or its opposite. Either `m` has 53 binary
digits, or it has fewer and `e` is the least exponent. -/
inductive Double
  | nan
  | infinite (negative : Bool)
  | finite (negative : Bool) (coefficient : Nat) (exponent : Int)
deriving DecidableEq, Repr, Inhabited

namespace Double

def leastExponent : Int := -1074

def greatestExponent : Int := 971

def zero : Double := .finite false 0 leastExponent

/-- The whole number nearest to `n / d`, and the even one of two that are. -/
def roundDiv (n d : Nat) : Nat :=
  let q := n / d
  let twice := 2 * (n % d)
  if twice < d then q
  else if d < twice then q + 1
  else if q % 2 = 0 then q else q + 1

/-- `n / d` as a quotient of whole numbers after a division by `2 ^ e`. -/
def descale (n d : Nat) (e : Int) : Nat × Nat :=
  if 0 ≤ e then (n, d * Nat.pow 2 e.toNat) else (n * Nat.pow 2 (-e).toNat, d)

/-- The exponent at which the coefficient of `n / d` has 53 binary digits, or the
least one. -/
def exponentOf (n d : Nat) : Int :=
  let e := (n.log2 : Int) - (d.log2 : Int) - 53
  let (a, b) := descale n d e
  max leastExponent (if Nat.pow 2 53 ≤ a / b then e + 1 else e)

/-- The number nearest to `n / d` with the given sign. -/
def ofRatio (negative : Bool) (n d : Nat) : Double :=
  if n = 0 then .finite negative 0 leastExponent
  else
    let e := exponentOf n d
    let (a, b) := descale n d e
    let m := roundDiv a b
    let (m, e) := if m = Nat.pow 2 53 then (Nat.pow 2 52, e + 1) else (m, e)
    if greatestExponent < e then .infinite negative else .finite negative m e

/-- The quotient of two whole numbers, if it is not too large. The divisor is not 0. -/
def quotient? (a b : Int) : Option Double :=
  match ofRatio ((decide (a < 0)) != (decide (b < 0))) a.natAbs b.natAbs with
  | .infinite _ => none
  | x => some x

/-- The number with the given 64 bits. -/
def ofBits (bits : Nat) : Double :=
  let negative : Bool := bits / Nat.pow 2 63 % 2 == 1
  let biased : Nat := bits / Nat.pow 2 52 % Nat.pow 2 11
  let fraction : Nat := bits % Nat.pow 2 52
  if biased = 2047 then if fraction = 0 then .infinite negative else .nan
  else if biased = 0 then .finite negative fraction leastExponent
  else .finite negative (Nat.pow 2 52 + fraction) ((biased : Int) - 1075)

def toBits : Double → Nat
  | .nan => 2047 * Nat.pow 2 52 + Nat.pow 2 51
  | .infinite negative => (if negative then Nat.pow 2 63 else 0) + 2047 * Nat.pow 2 52
  | .finite negative m e =>
    (if negative then Nat.pow 2 63 else 0) +
      if m < Nat.pow 2 52 then m else (e + 1075).toNat * Nat.pow 2 52 + (m - Nat.pow 2 52)

end Double
end Uniproc
