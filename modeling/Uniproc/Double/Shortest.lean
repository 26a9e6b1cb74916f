import Uniproc.Double.Basic

/-!
The shortest decimal text that reads back as the same number. Among the decimals of
least length that do, the nearest is taken.
-/

namespace Uniproc
namespace Double

/-- The numbers that round to `m · 2 ^ e` reach from `low / scale` to `high / scale`,
with both ends if `closed`; the number itself is `mid / scale`. -/
structure Interval where
  low : Nat
  mid : Nat
  high : Nat
  scale : Nat
  closed : Bool

/-- Below a power of two the next number is only half as far away as above it. -/
def interval (m : Nat) (e : Int) : Interval :=
  let atPower := m = Nat.pow 2 52 ∧ leastExponent < e
  let low := if atPower then 4 * m - 1 else 4 * m - 2
  let (up, scale) := if 2 ≤ e then (Nat.pow 2 (e - 2).toNat, 1) else (1, Nat.pow 2 (2 - e).toNat)
  ⟨low * up, 4 * m * up, (4 * m + 2) * up, scale, m % 2 = 0⟩

/-- Whether `n / d` lies in the interval. -/
def Interval.holds (i : Interval) (n d : Nat) : Bool :=
  if i.closed then i.low * d ≤ n * i.scale && n * i.scale ≤ i.high * d
  else i.low * d < n * i.scale && n * i.scale < i.high * d

/-- The number of digits before the point of a value `n / d` of at least 1; for a
smaller one, minus the number of zeros after the point. -/
def pointOf (n d : Nat) : Int :=
  if d ≤ n then (Nat.toDigits 10 (n / d)).length
  else 1 - ((Nat.toDigits 10 ((d - 1) / n)).length : Int)

/-- `10 ^ k` as a quotient of whole numbers. -/
def tenth (k : Int) : Nat × Nat :=
  if 0 ≤ k then (Nat.pow 10 k.toNat, 1) else (1, Nat.pow 10 (-k).toNat)

/-- The nearest multiple of `10 ^ k` that lies in the interval, as a multiplier. -/
def Interval.on? (i : Interval) (k : Int) : Option Nat :=
  let (p, q) := tenth k
  let lower := i.mid * q / (i.scale * p)
  let upper := lower + 1
  let fits (c : Nat) := i.holds (c * p) q
  match fits lower && lower != 0, fits upper with
  | true, true =>
    let below := 2 * (i.mid * q - lower * i.scale * p)
    let unit := i.scale * p
    some (if below < unit ∨ (below = unit ∧ lower % 2 = 0) then lower else upper)
  | true, false => some lower
  | false, true => some upper
  | false, false => none

/-- The shortest digits as a whole number `c` and a place `k`: the number is close to
`c · 10 ^ k`. Seventeen digits always suffice. -/
def digitsFrom (i : Interval) (point : Int) : Nat → Nat × Int
  | 0 => (0, 0)
  | left + 1 =>
    let k := point - (17 - left)
    match i.on? k with
    | some c => (c, k)
    | none => digitsFrom i point left

def shortestDigits (m : Nat) (e : Int) : Nat × Int :=
  let i := interval m e
  digitsFrom i (pointOf i.mid i.scale) 17

/-- Digits without the zeros at their end. -/
def significant (c : Nat) : List Char :=
  ((Nat.toDigits 10 c).reverse.dropWhile (· = '0')).reverse

def exponentText (x : Int) : String :=
  let size := toString x.natAbs
  (if x < 0 then "e-" else "e+") ++ (if size.length < 2 then "0" else "") ++ size

/-- A text of digits, the first of which stands just before a place of `10 ^ x`: with
a point in its place from `10 ^ -4` to `10 ^ 15`, and with an exponent beyond. -/
def layOut (digits : List Char) (x : Int) : String :=
  let n : Int := digits.length
  if x < -4 ∨ 16 ≤ x then
    let rest := digits.drop 1
    String.ofList (digits.take 1 ++ (if rest.isEmpty then [] else '.' :: rest)) ++ exponentText x
  else if x < 0 then
    String.ofList (['0', '.'] ++ List.replicate (-x - 1).toNat '0' ++ digits)
  else if n ≤ x + 1 then
    String.ofList (digits ++ List.replicate (x + 1 - n).toNat '0' ++ ['.', '0'])
  else
    String.ofList (digits.take (x + 1).toNat ++ '.' :: digits.drop (x + 1).toNat)

def shortest : Double → String
  | .nan => "nan"
  | .infinite negative => if negative then "-inf" else "inf"
  | .finite negative m e =>
    (if negative then "-" else "") ++
      if m = 0 then "0.0"
      else
        let (c, k) := shortestDigits m e
        layOut (significant c) ((Nat.toDigits 10 c).length - 1 + k)

end Double
end Uniproc
