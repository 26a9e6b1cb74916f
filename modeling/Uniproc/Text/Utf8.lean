/-!
Reading UTF-8. A fault names the first byte of the sequence that cannot be read and the
first byte after what was accepted of it.
-/

namespace Uniproc
namespace Utf8

inductive Reason
  | invalidStart
  | invalidContinuation
  | truncated
deriving DecidableEq, Repr

def Reason.message : Reason → String
  | .invalidStart => "invalid start byte"
  | .invalidContinuation => "invalid continuation byte"
  | .truncated => "unexpected end of data"

/-- The bytes from `start` up to `stop` are no character; `first` is the byte at
`start`. -/
structure Fault where
  reason : Reason
  start : Nat
  stop : Nat
  first : UInt8
deriving DecidableEq, Repr

/-- A character under way: `owed` more bytes, the next of them from `low` to
`high`, and `bits` read so far. -/
structure Pending where
  start : Nat
  first : UInt8
  owed : Nat
  low : Nat
  high : Nat
  bits : Nat

/-- What the first byte of a longer character announces. The bounds on its second
byte keep out overlong forms, surrogates and values above U+10FFFF. -/
def Pending.ofLead? (start : Nat) (b : UInt8) : Option Pending :=
  let n := b.toNat
  if 0xC2 ≤ n && n ≤ 0xDF then some ⟨start, b, 1, 0x80, 0xBF, n - 0xC0⟩
  else if n == 0xE0 then some ⟨start, b, 2, 0xA0, 0xBF, 0⟩
  else if n == 0xED then some ⟨start, b, 2, 0x80, 0x9F, 0xD⟩
  else if 0xE1 ≤ n && n ≤ 0xEF then some ⟨start, b, 2, 0x80, 0xBF, n - 0xE0⟩
  else if n == 0xF0 then some ⟨start, b, 3, 0x90, 0xBF, 0⟩
  else if 0xF1 ≤ n && n ≤ 0xF3 then some ⟨start, b, 3, 0x80, 0xBF, n - 0xF0⟩
  else if n == 0xF4 then some ⟨start, b, 3, 0x80, 0x8F, 4⟩
  else none

/-- Reads the bytes from position `pos` on, after the pending part of a character
if there is one. -/
def decodeFrom (pos : Nat) : Option Pending → List UInt8 → Except Fault (List Char)
  | none, [] => .ok []
  | some p, [] => .error ⟨.truncated, p.start, pos, p.first⟩
  | none, b :: rest =>
    if b.toNat < 0x80 then (Char.ofNat b.toNat :: ·) <$> decodeFrom (pos + 1) none rest
    else match Pending.ofLead? pos b with
      | none => .error ⟨.invalidStart, pos, pos + 1, b⟩
      | some p => decodeFrom (pos + 1) (some p) rest
  | some p, b :: rest =>
    if p.low ≤ b.toNat && b.toNat ≤ p.high then
      let bits := p.bits * 64 + (b.toNat - 0x80)
      if p.owed ≤ 1 then (Char.ofNat bits :: ·) <$> decodeFrom (pos + 1) none rest
      else
        let p := { p with owed := p.owed - 1, low := 0x80, high := 0xBF, bits }
        decodeFrom (pos + 1) (some p) rest
    else .error ⟨.invalidContinuation, p.start, pos, p.first⟩

def decode (bytes : List UInt8) : Except Fault (List Char) :=
  decodeFrom 0 none bytes

/-- ASCII characters are their own bytes. -/
theorem decodeFrom_ascii {s : List Char} (h : ∀ c ∈ s, c.toNat < 0x80) (pos : Nat) :
    decodeFrom pos none (s.map fun c => UInt8.ofNat c.toNat) = .ok s := by
  induction s generalizing pos with
  | nil => rfl
  | cons c rest ih =>
    have hc := h c List.mem_cons_self
    have hbyte : (UInt8.ofNat c.toNat).toNat = c.toNat := by
      rw [UInt8.toNat_ofNat']
      omega
    have hrest := ih (fun d hd => h d (List.mem_cons_of_mem _ hd)) (pos + 1)
    rw [List.map_cons, decodeFrom, hbyte, if_pos hc, hrest]
    simp only [Functor.map, Except.map, Char.ofNat_toNat]

end Utf8
end Uniproc
