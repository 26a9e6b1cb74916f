import Mathlib.Data.List.Induction
import Mathlib.Data.Nat.Digits.Defs
import Uniproc.Proofs.Numeral

/-!
The integer that a text starts with. Two recognisers have a part in it, and each has rules of
its own: one looks for a sign and the digits behind it, the other takes the characters that
the first has found and may refuse them. They agree on every text. What has been found has
neither blanks nor underscores, so nothing but its length can make the second refuse it.
-/

namespace Uniproc
namespace Numeral

/-- What stands in front of the digits of an integer. -/
inductive Mark
  | none
  | plus
  | minus
deriving DecidableEq, Repr

def Mark.text : Mark → List Char
  | none => []
  | plus => ['+']
  | minus => ['-']

def Mark.apply : Mark → Nat → Int
  | none, n => n
  | plus, n => n
  | minus, n => -n

/-- The text starts with the mark and the digits, as many as there are, and goes on with the
rest. -/
structure Splits (s : List Char) (mark : Mark) (digits rest : List Char) : Prop where
  eq : s = mark.text ++ (digits ++ rest)
  isRun : IsRun digits rest

/-- A text that starts with no integer: an empty one, one that has no digit behind the sign it
starts with, and one that starts with another character than a sign or a digit. -/
inductive Startless : List Char → Prop
  | empty : Startless []
  | bare {mark : Mark} {rest : List Char} (hmark : mark ≠ .none)
      (h : ∀ c, rest.head? = some c → Text.isDigit c = false) : Startless (mark.text ++ rest)
  | other {c : Char} {rest : List Char} (hplus : c ≠ '+') (hminus : c ≠ '-')
      (h : Text.isDigit c = false) : Startless (c :: rest)

/-- The values of the digits, the units first. -/
def places (digits : List Char) : List Nat :=
  (digits.filterMap Text.digitValue).reverse

variable {s digits rest : List Char} {mark : Mark}

theorem value_eq_ofDigits (h : ∀ c ∈ digits, Text.isDigit c = true) :
    value digits = Nat.ofDigits 10 (places digits) := by
  induction digits using List.reverseRecOn with
  | nil => rfl
  | append_singleton digits c ih =>
      obtain ⟨d, hd⟩ := Option.isSome_iff_exists.mp (h c (by simp))
      have hplaces : places (digits ++ [c]) = d :: places digits := by simp [places, hd]
      rw [value_append digits hd, ih fun b hb => h b (List.mem_append_left _ hb), hplaces,
        Nat.ofDigits_cons]
      exact Nat.add_comm _ _

/-- No underscore is a digit, so a run of digits stands for itself. -/
theorem ungrouped_of_digits (hne : digits ≠ []) (h : ∀ c ∈ digits, Text.isDigit c = true) :
    ungrouped digits = some digits := by
  fun_induction ungrouped digits with
  | case1 => exact absurd rfl hne
  | case2 c hc => rfl
  | case3 c hc => exact absurd (h c List.mem_cons_self) hc
  | case4 c rest hc ih =>
      exact absurd (h '_' (List.mem_cons_of_mem c List.mem_cons_self)) (by decide)
  | case5 c rest hc => exact absurd (h c List.mem_cons_self) hc
  | case6 c rest hrest hunder hc ih =>
      rw [ih hrest fun b hb => h b (List.mem_cons_of_mem c hb)]
      rfl
  | case7 c rest hrest hunder hc => exact absurd (h c List.mem_cons_self) hc

theorem isMargin_of_isDigit {c : Char} (h : Text.isDigit c = true) : isMargin c = false := by
  rw [isMargin, isBlank_of_isDigit h, Bool.false_and]

theorem IsRun.alone (h : IsRun digits rest) : IsRun digits [] where
  ne_nil := h.ne_nil
  isDigit := h.isDigit
  stops := nofun

theorem sign_mark (h : IsRun digits rest) :
    sign (mark.text ++ (digits ++ rest)) = (decide (mark = .minus), digits ++ rest) := by
  cases mark with
  | none => exact h.sign_append
  | plus => rfl
  | minus => rfl

theorem signed_mark (mark : Mark) (n : Nat) :
    signed (decide (mark = .minus)) n = mark.apply n := by
  cases mark <;> rfl

theorem isMargin_of_mem_mark (mark : Mark) : ∀ c ∈ mark.text, isMargin c = false := by
  cases mark with
  | none => nofun
  | plus => exact List.forall_mem_singleton.mpr rfl
  | minus => exact List.forall_mem_singleton.mpr rfl

theorem Splits.run_eq (h : Splits s mark digits rest) : run s = digits := by
  rw [h.eq, run, sign_mark h.isRun, h.isRun.takeWhile_append]

theorem Splits.leading_eq (h : Splits s mark digits rest) :
    leading s = mark.apply <$> ofDigits digits := by
  rw [h.eq, leading, sign_mark h.isRun]
  dsimp only
  rw [h.isRun.takeWhile_append]
  exact congrArg (· <$> ofDigits digits) (funext (signed_mark mark))

theorem IsRun.whole?_eq (h : IsRun digits rest) :
    whole? (mark.text ++ digits) = (mark.apply <$> ofDigits digits).toOption := by
  have hdigits : ∀ c ∈ digits, Text.isDigit c = true := fun _ => h.isDigit
  have htrim : Text.trim isMargin (mark.text ++ digits) = mark.text ++ digits :=
    Text.trim_of_forall fun c hc => (List.mem_append.mp hc).elim (isMargin_of_mem_mark mark c)
      fun hc => isMargin_of_isDigit (hdigits c hc)
  have hsign : sign (mark.text ++ digits) = (decide (mark = .minus), digits) := by
    simpa only [List.append_nil] using sign_mark h.alone
  rw [whole?, htrim, hsign]
  dsimp only
  rw [ungrouped_of_digits h.ne_nil hdigits, Option.map_some]
  cases ofDigits digits with
  | ok n => exact congrArg some (signed_mark mark n)
  | error limit => rfl

/-- What has been found of a text is read as it is read where it stands. -/
theorem Splits.whole?_eq (h : Splits s mark digits rest) :
    whole? (mark.text ++ digits) = (leading s).toOption := by
  rw [h.leading_eq, h.isRun.whole?_eq]

theorem Splits.leading_eq_ok (h : Splits s mark digits rest)
    (hlength : digits.length ≤ digitLimit) :
    leading s = .ok (mark.apply (Nat.ofDigits 10 (places digits))) := by
  rw [h.leading_eq, ofDigits, ofDigitsUpTo, if_pos hlength,
    value_eq_ofDigits fun c hc => h.isRun.isDigit hc]
  rfl

theorem exists_splits (h : run s ≠ []) : ∃ mark digits rest, Splits s mark digits rest := by
  unfold run at h
  have hrun := isRun_takeWhile h
  have happend : run s ++ (sign s).2.dropWhile Text.isDigit = (sign s).2 :=
    List.takeWhile_append_dropWhile
  obtain ⟨rest, rfl, hsign⟩ | ⟨rest, rfl, hsign⟩ | hsign := sign_cases s
  · exact ⟨.minus, _, _, congrArg ('-' :: ·) happend.symm, hrun⟩
  · exact ⟨.plus, _, _, congrArg ('+' :: ·) happend.symm, hrun⟩
  · rw [hsign] at hrun
    exact ⟨.none, _, _, List.takeWhile_append_dropWhile.symm, hrun⟩

/-- The digits are missing from the texts that start with no integer, and from them only. -/
theorem startless_iff : Startless s ↔ run s = [] := by
  constructor
  · intro h
    cases h with
    | empty => rfl
    | @bare mark rest hmark h =>
        cases mark with
        | none => exact absurd rfl hmark
        | plus => exact takeWhile_eq_nil_iff_head?.mpr h
        | minus => exact takeWhile_eq_nil_iff_head?.mpr h
    | @other c rest hplus hminus h =>
        have hsign : sign (c :: rest) = (false, c :: rest) := by simp [sign, hplus, hminus]
        rw [run, hsign]
        exact List.takeWhile_cons_of_neg (by simp [h])
  · intro h
    have hhead := takeWhile_eq_nil_iff_head?.mp h
    obtain ⟨rest, rfl, hsign⟩ | ⟨rest, rfl, hsign⟩ | hsign := sign_cases s
    all_goals rw [hsign] at hhead
    · exact @Startless.bare .minus rest (by decide) hhead
    · exact @Startless.bare .plus rest (by decide) hhead
    · cases s with
      | nil => exact .empty
      | cons c rest =>
          refine .other ?_ ?_ (hhead c rfl)
          · rintro rfl
            exact List.cons_ne_self _ _ (congrArg Prod.snd hsign).symm
          · rintro rfl
            exact List.cons_ne_self _ _ (congrArg Prod.snd hsign).symm

theorem Startless.leading_eq (h : Startless s) : leading s = .ok 0 := by
  rw [leading_eq_run, startless_iff.mp h]
  cases (sign s).1 <;> rfl

/-- No text has both an integer at its start and none, and each has one or the other. -/
theorem startless_iff_not_splits :
    Startless s ↔ ¬ ∃ mark digits rest, Splits s mark digits rest := by
  rw [startless_iff]
  constructor
  · rintro hrun ⟨mark, digits, rest, h⟩
    exact h.isRun.ne_nil (h.run_eq.symm.trans hrun)
  · intro h
    by_contra hrun
    exact h (exists_splits hrun)

/-- A text that starts with an integer is read as the positional value of its digits, with the
sign in front of them, and so is the integer alone. Any other text is read as 0. -/
theorem leading_eq_positional (s : List Char) :
    (∀ mark digits rest, Splits s mark digits rest → digits.length ≤ digitLimit →
      leading s = .ok (mark.apply (Nat.ofDigits 10 (places digits))) ∧
      whole? (mark.text ++ digits) = some (mark.apply (Nat.ofDigits 10 (places digits)))) ∧
    (Startless s → leading s = .ok 0) ∧
    (Startless s ↔ ¬ ∃ mark digits rest, Splits s mark digits rest) := by
  refine ⟨fun mark digits rest h hlength => ?_, Startless.leading_eq, startless_iff_not_splits⟩
  have hread := h.leading_eq_ok hlength
  refine ⟨hread, ?_⟩
  rw [h.whole?_eq, hread]
  rfl

/-- A leading zero, an Arabic three and an underscore that ends the digits. -/
theorem leading_eq_positional_mixed :
    (leading "-0\u06637_5".toList = .ok (-37) ∧ whole? "-0\u06637".toList = some (-37)) ∧
      leading "+x9".toList = .ok 0 := by
  have hdigits : ['0', '\u0663', '7'].all Text.isDigit = true := by decide
  have hrun : IsRun ['0', '\u0663', '7'] ['_', '5'] :=
    ⟨by decide, fun hc => List.all_eq_true.mp hdigits _ hc, by rintro c ⟨⟩; decide⟩
  have hbare : Startless "+x9".toList :=
    @Startless.bare .plus ['x', '9'] (by decide) (by rintro c ⟨⟩; decide)
  exact ⟨(leading_eq_positional _).1 .minus _ _ ⟨rfl, hrun⟩ (by decide),
    (leading_eq_positional _).2.1 hbare⟩

end Numeral
end Uniproc
