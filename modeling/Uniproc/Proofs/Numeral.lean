import Mathlib.Data.List.Basic
import Mathlib.Data.List.TakeWhile
import Uniproc.Numeral

/-!
Numbers that are read, and numbers that are written and read again. What is read of a text is
the integer that it starts with, a sign and as many digits as there are; the text of a number
has a sign and digits, no blanks, so a text that starts with it starts with that number.
-/

namespace Uniproc
namespace Numeral

/-- A run of digits that what follows does not carry on. -/
structure IsRun (digits rest : List Char) : Prop where
  ne_nil : digits ≠ []
  isDigit {c : Char} : c ∈ digits → Text.isDigit c = true
  stops {c : Char} : rest.head? = some c → Text.isDigit c = false

/-- The text starts with a run of digits, behind a sign or none, and this is the integer. -/
inductive Opens : List Char → Int → Prop
  | unsigned {digits rest : List Char} (h : IsRun digits rest) :
      Opens (digits ++ rest) (value digits)
  | plus {digits rest : List Char} (h : IsRun digits rest) :
      Opens ('+' :: (digits ++ rest)) (value digits)
  | minus {digits rest : List Char} (h : IsRun digits rest) :
      Opens ('-' :: (digits ++ rest)) (-value digits)

/-- The number is the integer that the text starts with, or 0 if it starts with none. -/
def Leads (s : List Char) (n : Int) : Prop :=
  Opens s n ∨ (n = 0 ∧ ∀ m, ¬ Opens s m)

/-- The digits behind the sign of a text. -/
def run (s : List Char) : List Char :=
  (sign s).2.takeWhile Text.isDigit

theorem leading_eq_run (s : List Char) :
    leading s = (fun n => signed (sign s).1 n) <$> ofDigits (run s) :=
  rfl

/-- Nothing is taken of a text exactly if its first character is none of those wanted. -/
theorem takeWhile_eq_nil_iff_head? {p : Char → Bool} {s : List Char} :
    s.takeWhile p = [] ↔ ∀ c, s.head? = some c → p c = false := by
  cases s with
  | nil => simp
  | cons c rest => cases h : p c <;> simp [h]

theorem digitValue_of_isDigit {c : Char} (h : c.isDigit = true) :
    Text.digitValue c = some (c.toNat - '0'.toNat) := by
  obtain ⟨hlow, hhigh⟩ := Char.isDigit_iff_toNat.mp h
  have hlow : 0x30 ≤ c.toNat := hlow
  have hhigh : c.toNat < 0x30 + 10 := Nat.lt_succ_of_le hhigh
  rw [Text.digitValue, Text.zeros, List.find?_cons_of_pos (by simp [hlow, hhigh])]
  rfl

theorem isDigit_of_isDigit {c : Char} (h : c.isDigit = true) : Text.isDigit c = true := by
  rw [Text.isDigit, digitValue_of_isDigit h]
  rfl

theorem value_toDigits (n : Nat) : value (Nat.toDigits 10 n) = n := by
  have hfold : value (Nat.toDigits 10 n) = Nat.ofDigitChars 10 (Nat.toDigits 10 n) 0 := by
    refine List.foldl_ext _ _ _ fun k c hc => ?_
    rw [digitValue_of_isDigit (Nat.isDigit_of_mem_toDigits (by decide) (Nat.le_refl _) hc),
      Option.getD_some]
  rw [hfold, Nat.ofDigitChars_ten_toDigits]

theorem toList_toString (n : Int) : (toString n).toList =
    (if n < 0 then ['-'] else []) ++ Nat.toDigits 10 n.natAbs := by
  rw [Int.toString_eq_repr]
  cases n with
  | ofNat m =>
      rw [if_neg (by simp)]
      exact Nat.toList_repr
  | negSucc m =>
      rw [if_pos (by simp)]
      exact String.toList_append.trans (congrArg _ Nat.toList_repr)

theorem toString_ne_nil (n : Int) : (toString n).toList ≠ [] := by
  rw [toList_toString]
  exact List.append_ne_nil_of_right_ne_nil _ Nat.toDigits_ne_nil

/-- No digit of any script is white space: the zeros stand far enough from the blanks. -/
theorem isBlank_of_isDigit {c : Char} (h : Text.isDigit c = true) : Text.isBlank c = false := by
  obtain ⟨d, hd⟩ := Option.isSome_iff_exists.mp h
  obtain ⟨z, hz, -⟩ := Option.map_eq_some_iff.mp hd
  have hrange := List.find?_some hz
  have hapart : ∀ z ∈ Text.zeros, 0x20 < z ∧ (z + 10 ≤ 0x85 ∨ 0xA0 < z) ∧
      (z + 10 ≤ 0x1680 ∨ 0x1680 < z) ∧ (z + 10 ≤ 0x2000 ∨ 0x3000 < z) := by decide
  obtain ⟨hlow, hnext, hogham, hgeneral⟩ := hapart z (List.mem_of_find?_eq_some hz)
  rw [Bool.eq_false_iff]
  intro hblank
  simp only [Text.isBlank, Bool.or_eq_true, Bool.and_eq_true, decide_eq_true_eq,
    beq_iff_eq] at hblank hrange
  omega

theorem mem_toString {n : Int} {c : Char} (h : c ∈ (toString n).toList) :
    c = '-' ∨ c.isDigit = true := by
  rw [toList_toString, List.mem_append] at h
  refine h.imp (fun hsign => ?_) fun hdigit =>
    Nat.isDigit_of_mem_toDigits (by decide) (Nat.le_refl _) hdigit
  split at hsign
  · exact List.mem_singleton.mp hsign
  · cases hsign

theorem isBlank_of_mem_toString {n : Int} {c : Char} (h : c ∈ (toString n).toList) :
    Text.isBlank c = false := by
  obtain rfl | hdigit := mem_toString h
  · rfl
  · exact isBlank_of_isDigit (isDigit_of_isDigit hdigit)

/-- No sign is a digit. -/
theorem sign_cons {c : Char} (h : Text.isDigit c = true) (rest : List Char) :
    sign (c :: rest) = (false, c :: rest) := by
  unfold sign
  split
  · next heq =>
    cases heq
    exact absurd h (by decide)
  · next heq =>
    cases heq
    exact absurd h (by decide)
  · rfl

theorem sign_toString (n : Int) :
    sign (toString n).toList = (decide (n < 0), Nat.toDigits 10 n.natAbs) := by
  rw [toList_toString]
  by_cases hneg : n < 0
  · rw [if_pos hneg, decide_eq_true hneg]
    rfl
  · rw [if_neg hneg, decide_eq_false hneg, List.nil_append]
    cases hdigits : Nat.toDigits 10 n.natAbs with
    | nil => exact absurd hdigits Nat.toDigits_ne_nil
    | cons c rest =>
        have hmem : c ∈ Nat.toDigits 10 n.natAbs := hdigits ▸ List.mem_cons_self
        have hdigit := Nat.isDigit_of_mem_toDigits (by decide) (Nat.le_refl _) hmem
        exact sign_cons (isDigit_of_isDigit hdigit) rest

theorem signed_natAbs (n : Int) : signed (decide (n < 0)) n.natAbs = n := by
  unfold signed
  split
  · next h =>
    rw [decide_eq_true_eq] at h
    omega
  · next h =>
    rw [decide_eq_true_eq] at h
    omega

theorem length_toDigits_le {n k : Nat} (hk : 0 < k) (h : n < Nat.pow 10 k) :
    (Nat.toDigits 10 n).length ≤ k :=
  (Nat.length_toDigits_le_iff (by decide) hk).mpr h

/-- A number that can be written is read back. -/
theorem leading_toString {n : Int} (h : isWritable n = true) :
    leading (toString n).toList = .ok n := by
  have hdigits : (Nat.toDigits 10 n.natAbs).takeWhile Text.isDigit =
      Nat.toDigits 10 n.natAbs := by
    rw [List.takeWhile_eq_self_iff]
    intro c hc
    exact isDigit_of_isDigit (Nat.isDigit_of_mem_toDigits (by decide) (Nat.le_refl _) hc)
  have hlength : (Nat.toDigits 10 n.natAbs).length ≤ digitLimit := by
    have hbound : n.natAbs < writingBound := of_decide_eq_true h
    unfold writingBound at hbound
    exact length_toDigits_le (by decide) hbound
  rw [leading, sign_toString]
  dsimp only
  rw [hdigits, ofDigits, ofDigitsUpTo, if_pos hlength, value_toDigits]
  exact congrArg Except.ok (signed_natAbs n)

theorem eq_of_toString_eq {m n : Int} (h : (toString m).toList = (toString n).toList) :
    m = n := by
  have hsign := congrArg sign h
  rw [sign_toString, sign_toString, Prod.mk.injEq] at hsign
  have habs : m.natAbs = n.natAbs := by
    rw [← value_toDigits m.natAbs, hsign.2, value_toDigits]
  rw [← signed_natAbs m, hsign.1, habs, signed_natAbs]

/-- A character that numerals are written with. -/
def isSymbol (c : Char) : Bool :=
  c = '-' || c.isDigit

/-- The text does not carry on a numeral in front of it. -/
def Stops (text : List Char) : Prop :=
  ∀ c, text.head? = some c → isSymbol c = false

theorem takeWhile_toString_append (n : Int) {rest : List Char} (h : Stops rest) :
    ((toString n).toList ++ rest).takeWhile isSymbol = (toString n).toList := by
  have hrest : rest.takeWhile isSymbol = [] := takeWhile_eq_nil_iff_head?.mpr h
  have hsymbols : ∀ c ∈ (toString n).toList, isSymbol c = true := fun c hc => by
    simpa [isSymbol] using mem_toString hc
  rw [List.takeWhile_append_of_pos hsymbols, hrest, List.append_nil]

/-- A numeral ends where something else stands, so a text starts with one of them only. -/
theorem toString_append_inj {m n : Int} {s t : List Char} (hs : Stops s) (ht : Stops t)
    (h : (toString m).toList ++ s = (toString n).toList ++ t) : m = n ∧ s = t := by
  have htexts := congrArg (List.takeWhile isSymbol) h
  rw [takeWhile_toString_append m hs, takeWhile_toString_append n ht] at htexts
  rw [htexts] at h
  exact ⟨eq_of_toString_eq htexts, List.append_cancel_left h⟩

/-- A label that starts with no symbol ends the numeral in front of it. -/
theorem toString_label_inj {m n : Int} {label s t : List Char}
    (hlabel : label.head?.any (fun c => !isSymbol c) = true)
    (h : (toString m).toList ++ (label ++ s) = (toString n).toList ++ (label ++ t)) :
    m = n ∧ s = t := by
  have hstops (rest : List Char) : Stops (label ++ rest) := by
    intro c hc
    cases label with
    | nil => cases hlabel
    | cons d label =>
        cases hc
        simpa using hlabel
  exact (toString_append_inj (hstops s) (hstops t) h).imp_right List.append_cancel_left

variable {digits rest s : List Char} {n : Int}

theorem IsRun.takeWhile_append (h : IsRun digits rest) :
    (digits ++ rest).takeWhile Text.isDigit = digits := by
  have hrest : rest.takeWhile Text.isDigit = [] :=
    takeWhile_eq_nil_iff_head?.mpr fun _ hc => h.stops hc
  rw [List.takeWhile_append_of_pos fun c hc => h.isDigit hc, hrest, List.append_nil]

theorem IsRun.sign_append (h : IsRun digits rest) :
    sign (digits ++ rest) = (false, digits ++ rest) := by
  cases digits with
  | nil => exact absurd rfl h.ne_nil
  | cons c digits => exact sign_cons (h.isDigit List.mem_cons_self) (digits ++ rest)

theorem isRun_takeWhile (h : s.takeWhile Text.isDigit ≠ []) :
    IsRun (s.takeWhile Text.isDigit) (s.dropWhile Text.isDigit) where
  ne_nil := h
  isDigit hc := List.mem_takeWhile_imp hc
  stops hc := by
    have hnot := List.head?_dropWhile_not Text.isDigit s
    rw [hc] at hnot
    simpa using hnot

theorem sign_cases (s : List Char) : (∃ rest, s = '-' :: rest ∧ sign s = (true, rest)) ∨
    (∃ rest, s = '+' :: rest ∧ sign s = (false, rest)) ∨ sign s = (false, s) := by
  unfold sign
  split
  · exact .inl ⟨_, rfl, rfl⟩
  · exact .inr (.inl ⟨_, rfl, rfl⟩)
  · exact .inr (.inr rfl)

theorem opens_iff : Opens s n ↔ run s ≠ [] ∧ n = signed (sign s).1 (value (run s)) := by
  unfold run
  constructor
  · intro h
    cases h with
    | unsigned h =>
        rw [h.sign_append, h.takeWhile_append]
        exact ⟨h.ne_nil, rfl⟩
    | plus h =>
        simp only [sign, h.takeWhile_append]
        exact ⟨h.ne_nil, rfl⟩
    | minus h =>
        simp only [sign, h.takeWhile_append]
        exact ⟨h.ne_nil, rfl⟩
  · rintro ⟨hne, rfl⟩
    obtain ⟨rest, rfl, hsign⟩ | ⟨rest, rfl, hsign⟩ | hsign := sign_cases s
    all_goals rw [hsign] at hne ⊢
    · have hopens := Opens.minus (isRun_takeWhile hne)
      rwa [List.takeWhile_append_dropWhile] at hopens
    · have hopens := Opens.plus (isRun_takeWhile hne)
      rwa [List.takeWhile_append_dropWhile] at hopens
    · have hopens := Opens.unsigned (isRun_takeWhile hne)
      rwa [List.takeWhile_append_dropWhile] at hopens

/-- What is read of a text is what it starts with. -/
theorem leads_of_leading (h : leading s = .ok n) : Leads s n := by
  have hn : n = signed (sign s).1 (value (run s)) := by
    rw [leading_eq_run, ofDigits, ofDigitsUpTo] at h
    split at h
    · cases h
      rfl
    · cases h
  by_cases hrun : run s = []
  · refine .inr ⟨?_, fun m hm => (opens_iff.mp hm).1 hrun⟩
    rw [hn, hrun]
    cases (sign s).1 <;> rfl
  · exact .inl (opens_iff.mpr ⟨hrun, hn⟩)

end Numeral

end Uniproc
