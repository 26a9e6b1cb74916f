/-!
Positions in a sequence. A negative position counts from the end, so that -1 is
the last one.
-/

namespace Uniproc

/-- Where position `i` lies in a sequence of the given length, if it lies in it. -/
def resolveIndex (length : Nat) (i : Int) : Option Nat :=
  let k := if i < 0 then i + length else i
  if 0 ≤ k ∧ k < length then some k.toNat else none

/-- Whether 64 bits hold the position. One that they do not hold is refused for that
reason, whatever the length. -/
def isAddressable (i : Int) : Bool :=
  -(Nat.pow 2 63 : Int) ≤ i && i < (Nat.pow 2 63 : Int)

theorem resolveIndex_of_lt {length k : Nat} (h : k < length) :
    resolveIndex length k = some k := by
  have h0 : ¬ (k : Int) < 0 := by omega
  simp only [resolveIndex, h0, if_false]
  rw [if_pos (by omega)]
  simp

end Uniproc
