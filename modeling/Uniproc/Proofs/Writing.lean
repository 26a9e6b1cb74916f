import Uniproc.Proofs.Action
import Uniproc.Simulation.Step

/-!
Which texts can be written: those whose numbers are all short enough.
-/

namespace Uniproc

/-- None of the numbers is too long for a text. -/
def Writable (numbers : List Int) : Prop :=
  ∀ n ∈ numbers, Numeral.isWritable n = true

instance (numbers : List Int) : Decidable (Writable numbers) :=
  inferInstanceAs (Decidable (∀ n ∈ numbers, _))

theorem writable_cons {n : Int} {numbers : List Int} :
    Writable (n :: numbers) ↔ Numeral.isWritable n = true ∧ Writable numbers :=
  List.forall_mem_cons

theorem writable_append {l₁ l₂ : List Int} :
    Writable (l₁ ++ l₂) ↔ Writable l₁ ∧ Writable l₂ :=
  List.forall_mem_append

@[simp] theorem writable_nil : Writable [] :=
  List.forall_mem_nil _

namespace Numeral

theorem text_of_isWritable {n : Int} (h : isWritable n = true) : text n = .ok (toString n) := by
  rw [text, if_pos h]

theorem text_of_not_isWritable {n : Int} (h : ¬ isWritable n = true) :
    text n = .error .writing := by
  rw [text, if_neg h]

theorem eq_toString_of_text {n : Int} {shown : String} (h : text n = .ok shown) :
    shown = toString n := by
  unfold text at h
  split at h
  · exact (Except.ok.inj h).symm
  · cases h

theorem isWritable_of_bounds {n : Int} (h0 : 0 ≤ n) (hlt : n < writingBound) :
    isWritable n = true := by
  simp only [isWritable, decide_eq_true_eq]
  omega

theorem lt_writingBound_of_lt_pow {n k : Nat} (h : n < Nat.pow 10 k) (hk : k ≤ digitLimit) :
    n < writingBound := by
  unfold writingBound
  apply Nat.lt_of_lt_of_le h
  apply Nat.pow_le_pow_right
  · decide
  · exact hk

theorem lt_writingBound {n : Nat} (h : n < 10) : n < writingBound := by
  have hpow : n < Nat.pow 10 1 := h
  exact lt_writingBound_of_lt_pow hpow (by decide)

end Numeral

/-- The numbers in the line of an instruction. -/
def Instruction.numbers (i : Instruction) : List Int :=
  if i.opcode.isNumeric then [i.number] else []

/-- The line of an instruction whose number is short enough. -/
def Instruction.line (i : Instruction) : String :=
  if i.opcode.isNumeric then s!"{i.opcode.letter} {i.number}"
  else if i.opcode = .replace then s!"{i.opcode.letter} {i.path}"
  else String.singleton i.opcode.letter

theorem Instruction.text_of_writable {i : Instruction} (h : Writable i.numbers) :
    i.text = .ok i.line := by
  unfold text line
  split
  · next hnumeric =>
    rw [numbers, if_pos hnumeric, writable_cons] at h
    rw [Numeral.text_of_isWritable h.1]
    rfl
  · split <;> rfl

theorem Instruction.text_of_not_writable {i : Instruction} (h : ¬ Writable i.numbers) :
    i.text = .error .writing := by
  unfold text
  split
  · next hnumeric =>
    rw [numbers, if_pos hnumeric, writable_cons] at h
    rw [Numeral.text_of_not_isWritable fun hn => h ⟨hn, writable_nil⟩]
    rfl
  · next hnumeric =>
    rw [numbers, if_neg hnumeric] at h
    exact absurd writable_nil h

theorem Simulation.heading_of_writable {tick : Nat} {slot : Int}
    (h : Writable [(tick : Int), slot]) :
    heading tick slot = .ok s!"Time: {tick}, Process {slot}" := by
  obtain ⟨htick, hslot, _⟩ := (writable_cons.trans (and_congr_right' writable_cons)).mp h
  simp only [heading, Numeral.text_of_isWritable htick, Numeral.text_of_isWritable hslot]
  rfl

theorem Simulation.heading_of_not_writable {tick : Nat} {slot : Int}
    (h : ¬ Writable [(tick : Int), slot]) : heading tick slot = .error .writing := by
  simp only [heading]
  by_cases htick : Numeral.isWritable (tick : Int) = true
  · have hslot : ¬ Numeral.isWritable slot = true := by
      intro hslot
      exact h (writable_cons.mpr ⟨htick, writable_cons.mpr ⟨hslot, writable_nil⟩⟩)
    rw [Numeral.text_of_isWritable htick, Numeral.text_of_not_isWritable hslot]
    rfl
  · rw [Numeral.text_of_not_isWritable htick]
    rfl

end Uniproc
