import Uniproc.Text.Utf8

/-!
What is written in UTF-8 is read back: the first byte of a character announces the others,
and its second one lies in the bounds that the first one sets.
-/

namespace Uniproc
namespace Utf8

variable {pos : Nat} {p : Pending} {rest : List UInt8} {s : List Char} {c : Char}

theorem toNat_ofNat {n : Nat} (h : n < 256) : (UInt8.ofNat n).toNat = n :=
  UInt8.toNat_ofNat_of_lt' h

theorem ofLead?_two {a : Nat} (hlow : 2 ≤ a) (ha : a < 32) :
    Pending.ofLead? pos (UInt8.ofNat (a + 0xC0)) =
      some ⟨pos, UInt8.ofNat (a + 0xC0), 1, 0x80, 0xBF, a⟩ := by
  have hn := toNat_ofNat (n := a + 0xC0) (by omega)
  simp only [Pending.ofLead?, hn, Bool.and_eq_true, decide_eq_true_eq]
  rw [if_pos (by omega), Nat.add_sub_cancel]

/-- The second byte is in bounds if the character has no shorter form and is no half of a
pair. -/
theorem ofLead?_three (pos : Nat) {a b : Nat} (ha : a < 16) (hb : b < 64) (hlow : a = 0 → 32 ≤ b)
    (hpair : a = 13 → b < 32) : ∃ low high,
      Pending.ofLead? pos (UInt8.ofNat (a + 0xE0)) =
        some ⟨pos, UInt8.ofNat (a + 0xE0), 2, low, high, a⟩ ∧
      low ≤ b + 0x80 ∧ b + 0x80 ≤ high := by
  have hn := toNat_ofNat (n := a + 0xE0) (by omega)
  obtain rfl | rfl | hother : a = 0 ∨ a = 13 ∨ a ≠ 0 ∧ a ≠ 13 := by omega
  · exact ⟨0xA0, 0xBF, rfl, by omega, by omega⟩
  · exact ⟨0x80, 0x9F, rfl, by omega, by omega⟩
  · refine ⟨0x80, 0xBF, ?_, by omega, by omega⟩
    simp only [Pending.ofLead?, hn, Bool.and_eq_true, decide_eq_true_eq, beq_iff_eq]
    rw [if_neg (by omega), if_neg (by omega), if_neg (by omega), if_pos (by omega),
      Nat.add_sub_cancel]

/-- The second byte is in bounds if the character has no shorter form and is not beyond the
last one. -/
theorem ofLead?_four (pos : Nat) {a b : Nat} (ha : a < 5) (hb : b < 64) (hlow : a = 0 → 16 ≤ b)
    (hlast : a = 4 → b < 16) : ∃ low high,
      Pending.ofLead? pos (UInt8.ofNat (a + 0xF0)) =
        some ⟨pos, UInt8.ofNat (a + 0xF0), 3, low, high, a⟩ ∧
      low ≤ b + 0x80 ∧ b + 0x80 ≤ high := by
  have hn := toNat_ofNat (n := a + 0xF0) (by omega)
  obtain rfl | rfl | hother : a = 0 ∨ a = 4 ∨ a ≠ 0 ∧ a ≠ 4 := by omega
  · exact ⟨0x90, 0xBF, rfl, by omega, by omega⟩
  · exact ⟨0x80, 0x8F, rfl, by omega, by omega⟩
  · refine ⟨0x80, 0xBF, ?_, by omega, by omega⟩
    simp only [Pending.ofLead?, hn, Bool.and_eq_true, decide_eq_true_eq, beq_iff_eq]
    rw [if_neg (by omega), if_neg (by omega), if_neg (by omega), if_neg (by omega),
      if_neg (by omega), if_pos (by omega), Nat.add_sub_cancel]

theorem decodeFrom_lead {n : Nat} (hn : n < 256) (hlead : 0x80 ≤ n)
    (h : Pending.ofLead? pos (UInt8.ofNat n) = some p) :
    decodeFrom pos none (UInt8.ofNat n :: rest) = decodeFrom (pos + 1) (some p) rest := by
  simp only [decodeFrom, toNat_ofNat hn, h]
  rw [if_neg (Nat.not_lt.mpr hlead)]

/-- A byte that completes no character yet. -/
theorem decodeFrom_more {b : Nat} (hb : b < 64) (hlow : p.low ≤ b + 0x80)
    (hhigh : b + 0x80 ≤ p.high) (howed : 1 < p.owed) :
    decodeFrom pos (some p) (UInt8.ofNat (b + 0x80) :: rest) =
      decodeFrom (pos + 1) (some { p with
        owed := p.owed - 1, low := 0x80, high := 0xBF, bits := p.bits * 64 + b }) rest := by
  have hn := toNat_ofNat (n := b + 0x80) (by omega)
  simp only [decodeFrom, hn, Nat.add_sub_cancel]
  rw [if_pos (by simp [hlow, hhigh]), if_neg (Nat.not_le.mpr howed)]

/-- The byte that completes a character. -/
theorem decodeFrom_last {b : Nat} (hb : b < 64) (hlow : p.low ≤ b + 0x80)
    (hhigh : b + 0x80 ≤ p.high) (howed : p.owed ≤ 1) (hbits : p.bits * 64 + b = c.toNat)
    (h : ∀ pos, decodeFrom pos none rest = .ok s) :
    decodeFrom pos (some p) (UInt8.ofNat (b + 0x80) :: rest) = .ok (c :: s) := by
  have hn := toNat_ofNat (n := b + 0x80) (by omega)
  simp only [decodeFrom, hn, Nat.add_sub_cancel, hbits]
  rw [if_pos (by simp [hlow, hhigh]), if_pos howed, h, Char.ofNat_toNat]
  rfl

theorem decodeFrom_utf8EncodeChar (c : Char) (h : ∀ pos, decodeFrom pos none rest = .ok s)
    (pos : Nat) : decodeFrom pos none (String.utf8EncodeChar c ++ rest) = .ok (c :: s) := by
  have hvalid : c.toNat < 0xD800 ∨ 0xDFFF < c.toNat ∧ c.toNat < 0x110000 := c.valid
  simp only [String.utf8EncodeChar, Char.toNat_val]
  split
  · next hone =>
    rw [List.singleton_append, decodeFrom, toNat_ofNat (by omega), if_pos (by omega), h,
      Char.ofNat_toNat]
    rfl
  split
  · next hone htwo =>
    rw [List.cons_append, List.singleton_append, decodeFrom_lead (by omega) (by omega)
      (ofLead?_two (by omega) (by omega))]
    exact decodeFrom_last (by omega) (Nat.le_add_left _ _) (by dsimp only; omega) (Nat.le_refl _)
      (by dsimp only; omega) h
  split
  · next hone htwo hthree =>
    obtain ⟨low, high, hlead, hlow, hhigh⟩ := ofLead?_three pos
      (a := c.toNat / 4096 % 16) (b := c.toNat / 64 % 64) (by omega) (by omega) (by omega)
      (by omega)
    rw [List.cons_append, List.cons_append, List.singleton_append,
      decodeFrom_lead (by omega) (by omega) hlead,
      decodeFrom_more (by omega) hlow hhigh (by dsimp only; omega)]
    exact decodeFrom_last (by omega) (Nat.le_add_left _ _) (by dsimp only; omega) (Nat.le_refl _)
      (by dsimp only; omega) h
  · next hone htwo hthree =>
    obtain ⟨low, high, hlead, hlow, hhigh⟩ := ofLead?_four pos
      (a := c.toNat / 262144 % 8) (b := c.toNat / 4096 % 64) (by omega) (by omega) (by omega)
      (by omega)
    rw [List.cons_append, List.cons_append, List.cons_append, List.singleton_append,
      decodeFrom_lead (by omega) (by omega) hlead,
      decodeFrom_more (by omega) hlow hhigh (by dsimp only; omega),
      decodeFrom_more (by omega) (Nat.le_add_left _ _) (by dsimp only; omega)
        (by dsimp only; omega)]
    exact decodeFrom_last (by omega) (Nat.le_add_left _ _) (by dsimp only; omega) (Nat.le_refl _)
      (by dsimp only; omega) h

theorem decodeFrom_flatMap (s : List Char) (pos : Nat) :
    decodeFrom pos none (s.flatMap String.utf8EncodeChar) = .ok s := by
  induction s generalizing pos with
  | nil => rfl
  | cons c rest ih => exact decodeFrom_utf8EncodeChar c ih pos

/-- The bytes of a text stand for the text. -/
theorem decode_toUTF8 (text : String) : decode text.toUTF8.data.toList = .ok text.toList := by
  have hbytes : text.toUTF8.data.toList = text.toList.flatMap String.utf8EncodeChar := by
    conv => lhs; rw [← String.ofList_toList (s := text)]
    rw [String.toUTF8_eq_toByteArray, String.toByteArray_ofList, List.utf8Encode,
      List.data_toByteArray]
  rw [hbytes]
  exact decodeFrom_flatMap _ 0

end Utf8
end Uniproc
