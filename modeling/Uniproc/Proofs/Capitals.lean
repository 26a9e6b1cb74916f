import Uniproc.Console

/-!
Which characters share the capitals of ASCII letters. Among the others only a form of `i` and
one of `s` do, so that a command has no other spellings than its letter in either case.
-/

namespace Uniproc

/-- The command of a character. -/
def Command.ofChar? : Char → Option Command
  | 'Q' | 'q' => some .step
  | 'U' | 'u' => some .unblock
  | 'P' | 'p' => some .print
  | 'T' | 't' => some .stop
  | _ => none

namespace Text

/-- The capitals of the run are valid and not ASCII, unless its only capital is `I` or `S`. -/
def CaseRun.Apart (r : CaseRun) : Prop :=
  0x80 ≤ r.first + r.shift ∧ (r.last + r.shift < 0xD800 ∨
      0xDFFF < r.first + r.shift ∧ r.last + r.shift < 0x110000) ∨
    r.first = r.last ∧ (r.first + r.shift = 'I'.toNat ∨ r.first + r.shift = 'S'.toNat)

instance (r : CaseRun) : Decidable r.Apart :=
  inferInstanceAs (Decidable (_ ∨ _))

theorem apart_of_mem_caseRuns : ∀ r ∈ caseRuns, r.Apart := by
  decide +kernel

theorem length_of_mem_longCapitals : ∀ entry ∈ longCapitals, 2 ≤ entry.2.length := by
  decide +kernel

theorem toNat_ofNat {n : Nat} (h : n.isValidChar) : (Char.ofNat n).toNat = n := by
  rw [Char.ofNat, dif_pos h]
  rfl

/-- No other character has an ASCII character as its capital, except for `I` and `S`. -/
theorem apart_of_upperChar {c d : Char} (hc : 0x80 ≤ c.toNat) (h : upperChar c = [d]) :
    0x80 ≤ d.toNat ∨ d = 'I' ∨ d = 'S' := by
  unfold upperChar at h
  dsimp only at h
  rw [if_neg (Nat.not_lt.mpr hc)] at h
  split at h
  · next form hfind =>
    have hlong := length_of_mem_longCapitals _ (List.mem_of_find?_eq_some hfind)
    have hlength := congrArg List.length h
    rw [List.length_map, List.length_singleton] at hlength
    dsimp only at hlong
    omega
  split at h
  · next r hfind =>
    have hcovers := List.find?_some hfind
    simp only [CaseRun.covers, Bool.and_eq_true, decide_eq_true_eq] at hcovers
    obtain ⟨⟨hfirst, hlast⟩, _⟩ := hcovers
    have hd := (List.singleton_inj.mp h).symm
    obtain ⟨hlow, hvalid⟩ | ⟨hsame, hcapital⟩ :=
      apart_of_mem_caseRuns r (List.mem_of_find?_eq_some hfind)
    · left
      rw [hd, toNat_ofNat (by unfold Nat.isValidChar; omega)]
      omega
    · right
      have heq : (c.toNat : Int) = r.first := by omega
      rw [heq] at hd
      obtain hI | hS := hcapital
      · rw [hI] at hd
        exact .inl hd
      · rw [hS] at hd
        exact .inr hd
  · cases h
    exact .inl hc

theorem upperChar_ne_nil (c : Char) : upperChar c ≠ [] := by
  unfold upperChar
  dsimp only
  split
  · exact List.cons_ne_nil _ _
  split
  · next form hfind =>
    have hlong := length_of_mem_longCapitals _ (List.mem_of_find?_eq_some hfind)
    rw [ne_eq, List.map_eq_nil_iff]
    rintro rfl
    exact absurd hlong (Nat.not_succ_le_zero 1)
  · split <;> exact List.cons_ne_nil _ _

/-- Only one character has a single capital. -/
theorem upperChar_of_upper {s : List Char} {x : Char} (h : upper s = [x]) :
    ∃ d, s = [d] ∧ upperChar d = [x] := by
  have hpos (c : Char) : 0 < (upperChar c).length := List.length_pos_iff.mpr (upperChar_ne_nil c)
  match s with
  | [] => cases h
  | [d] => exact ⟨d, rfl, by rw [← h, upper, List.flatMap_singleton]⟩
  | d :: e :: rest =>
      have hlength := congrArg List.length h
      rw [upper, List.flatMap_cons, List.flatMap_cons, List.length_append, List.length_append,
        List.length_singleton] at hlength
      have hd := hpos d
      have he := hpos e
      omega

theorem upper_upperChar_ne {c x : Char} (hc : 0x80 ≤ c.toNat) (hx : x.toNat < 0x80)
    (hi : x ≠ 'I') (hs : x ≠ 'S') : upper (upperChar c) ≠ [x] := by
  intro h
  obtain ⟨d, hfirst, hsecond⟩ := upperChar_of_upper h
  obtain hd | rfl | rfl := apart_of_upperChar hc hfirst
  · obtain hfar | rfl | rfl := apart_of_upperChar hd hsecond
    · exact absurd hx (Nat.not_lt.mpr hfar)
    · exact hi rfl
    · exact hs rfl
  · exact hi (List.singleton_inj.mp hsecond).symm
  · exact hs (List.singleton_inj.mp hsecond).symm

end Text

namespace Command

theorem ofText?_upperChar_ascii :
    ∀ n < 0x80, ofText? (Text.upperChar (Char.ofNat n)) = ofChar? (Char.ofNat n) := by
  decide +kernel

/-- A command is known by its letter in either case, and by nothing else. -/
theorem ofText?_upperChar (c : Char) : ofText? (Text.upperChar c) = ofChar? c := by
  by_cases hc : c.toNat < 0x80
  · have hascii := ofText?_upperChar_ascii c.toNat hc
    rwa [Char.ofNat_toNat] at hascii
  · have hfar : 0x80 ≤ c.toNat := Nat.not_lt.mp hc
    have hchar : ofChar? c = none := by
      unfold ofChar?
      split
      all_goals first | exact absurd hfar (by decide) | rfl
    have htext : ofText? (Text.upperChar c) = none := by
      unfold ofText?
      split
      · next h => exact absurd h (Text.upper_upperChar_ne hfar (by decide) (by decide) (by decide))
      · next h => exact absurd h (Text.upper_upperChar_ne hfar (by decide) (by decide) (by decide))
      · next h => exact absurd h (Text.upper_upperChar_ne hfar (by decide) (by decide) (by decide))
      · next h => exact absurd h (Text.upper_upperChar_ne hfar (by decide) (by decide) (by decide))
      · rfl
    rw [hchar, htext]

end Command
end Uniproc
