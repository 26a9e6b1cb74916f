import Mathlib.Data.List.Basic
import Mathlib.Data.List.TakeWhile
import Uniproc.Session

/-!
Which messages can be printed. Every string can; what is left are the messages that name unknown
keys, which can have halves of surrogate pairs in them.
-/

namespace Uniproc

variable {s : CodePoints}

theorem CodePoints.unpaired?_eq_none_iff : s.unpaired? = none ↔ ∀ n ∈ s, isHalf n = false := by
  have hdrop : s.dropWhile (!isHalf ·) = [] ↔ ∀ n ∈ s, isHalf n = false := by
    simp [List.dropWhile_eq_nil_iff]
  rw [← hdrop, unpaired?]
  split
  · next hnil => exact iff_of_true rfl hnil
  · next hcons => exact iff_of_false nofun (by simp [hcons])

theorem CodePoints.isHalf_of_mem_ofString {text : String} {n : Nat}
    (h : n ∈ CodePoints.ofString text) : isHalf n = false := by
  obtain ⟨c, _, rfl⟩ := List.mem_map.mp h
  have hvalid := c.valid
  unfold isHalf
  rw [Bool.and_eq_false_iff, decide_eq_false_iff_not, decide_eq_false_iff_not]
  change c.toNat < 0xD800 ∨ 0xDFFF < c.toNat ∧ c.toNat < 0x110000 at hvalid
  omega

theorem CodePoints.unpaired?_ofString (text : String) : (ofString text).unpaired? = none :=
  unpaired?_eq_none_iff.mpr fun _ hn => isHalf_of_mem_ofString hn

namespace Settings

/-- Halves in a row of keys come from the keys. -/
theorem exists_half_intercalate_iff {separator : CodePoints} {keys : List CodePoints}
    (h : ∀ n ∈ separator, CodePoints.isHalf n = false) :
    (∃ n ∈ separator.intercalate keys, CodePoints.isHalf n = true) ↔
      ∃ key ∈ keys, ∃ n ∈ key, CodePoints.isHalf n = true := by
  have hseparator : ¬ ∃ n ∈ separator, CodePoints.isHalf n = true := by
    rintro ⟨n, hn, hhalf⟩
    rw [h n hn] at hhalf
    cases hhalf
  induction keys with
  | nil => simp
  | cons key rest ih =>
      cases rest with
      | nil => simp
      | cons next rest =>
          rw [List.intercalate_cons_cons, List.exists_mem_cons_iff]
          simp only [List.mem_append, or_and_right, exists_or, hseparator, or_false]
          exact or_congr_right ih

/-- A message that cannot be printed names a key that cannot. -/
theorem exists_half_message_iff {cause : Error} :
    (∃ n ∈ cause.message, CodePoints.isHalf n = true) ↔
      ∃ keys, cause = .unknownKeys keys ∧ ∃ key ∈ keys, ∃ n ∈ key, CodePoints.isHalf n = true := by
  have hstring {text : String} : ¬ ∃ n ∈ CodePoints.ofString text, CodePoints.isHalf n = true := by
    rintro ⟨n, hn, hhalf⟩
    rw [CodePoints.isHalf_of_mem_ofString hn] at hhalf
    cases hhalf
  cases cause with
  | unknownKeys keys =>
      rw [Error.message]
      simp only [List.mem_append, or_and_right, exists_or, hstring, false_or]
      rw [exists_half_intercalate_iff fun _ hn => CodePoints.isHalf_of_mem_ofString hn]
      simp
  | _ => exact iff_of_false hstring (by simp)

end Settings

/-- A stream refuses just the texts with halves in them, and a buffer refuses none. -/
theorem Output.refusal?_ne_none_iff {output : Output} :
    output.refusal? s ≠ none ↔ output = .stream ∧ ∃ n ∈ s, CodePoints.isHalf n = true := by
  cases output with
  | buffer => simp [refusal?]
  | stream => simp [refusal?, CodePoints.unpaired?_eq_none_iff]

theorem Output.refusal?_ofString (output : Output) (text : String) :
    output.refusal? (CodePoints.ofString text) = none := by
  cases output with
  | buffer => rfl
  | stream => exact CodePoints.unpaired?_ofString text

end Uniproc
