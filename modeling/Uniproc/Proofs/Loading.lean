import Mathlib.Algebra.Group.Nat.Defs
import Uniproc.Program.Loader
import Uniproc.Proofs.Numeral
import Uniproc.Proofs.Writing

/-!
What can be loaded. A numeral is not read if it has too many digits, so that the numbers of
a program that comes from a text can all be written. The failure to read it is not one of the
failures to load that are reported.
-/

namespace Uniproc

/-- Not a failure to load a program. -/
def Fault.Escapes (fault : Fault) : Prop :=
  ∀ cause, fault ≠ .load cause

/-- The number of the line has too many digits. -/
def Instruction.Overlong (raw : List Char) : Prop :=
  ∃ first rest opcode, Text.strip raw = first :: rest ∧
    Opcode.ofCode? (Text.upperChar first) = some opcode ∧ opcode.isNumeric = true ∧
    Numeral.digitLimit < ((Numeral.sign (Text.strip rest)).2.takeWhile Text.isDigit).length

/-- The lines are good up to one whose number has too many digits, or that is one too many
where the limit itself has too many digits. -/
def Program.Undecodable (lines : List (List Char)) (source : String) (limit : Int) : Prop :=
  ∃ earlier raw later instructions, lines = earlier ++ raw :: later ∧
    decodeFrom source limit 1 0 earlier = .ok instructions ∧
    (Instruction.Overlong raw ∨
      (∃ i, Instruction.ofLine source (1 + earlier.length) raw = .ok (some i)) ∧
        limit ≤ (instructions.length : Int) ∧ Numeral.isWritable limit = false)

/-- No file can have the name, or the file is a text that cannot be decoded for its numbers. -/
def Loader.Unloadable (loader : Loader) (files : FileView) (name : String) : Prop :=
  (loader.resolve name).hasNull = true ∨ ∃ bytes text,
    files (loader.resolve name) = .ok bytes ∧ Utf8.decode bytes = .ok text ∧
      Program.Undecodable (Text.lines (Text.unifyNewlines text)) name loader.limit

/-- The numbers of all instructions are short enough for a text. -/
def Program.Written (p : Program) : Prop :=
  ∀ i ∈ p.instructions, Writable i.numbers

@[simp] theorem Fault.not_escapes_load (cause : LoadError) : ¬ (Fault.load cause).Escapes :=
  fun h => h cause rfl

theorem Fault.escapes_ofTooLong_iff {limit : Int} {source : String} :
    (Fault.ofTooLong limit source).Escapes ↔ Numeral.isWritable limit = false := by
  unfold ofTooLong
  split
  · next h => simp [h]
  · next h => exact iff_of_true (fun _ => nofun) (by simpa using h)

namespace Numeral

theorem foldl_digits_lt (digits : List Char) (n : Nat) :
    digits.foldl (fun n c => 10 * n + (Text.digitValue c).getD 0) n <
      (n + 1) * 10 ^ digits.length := by
  induction digits generalizing n with
  | nil => simp
  | cons c rest ih =>
      have hdigit : (Text.digitValue c).getD 0 ≤ 9 := by
        cases hc : Text.digitValue c with
        | none => exact Nat.zero_le 9
        | some d => exact Nat.le_of_lt_succ (Text.digitValue_lt_ten hc)
      have hstep : 10 * n + (Text.digitValue c).getD 0 + 1 ≤ (n + 1) * 10 := by omega
      calc (c :: rest).foldl (fun n c => 10 * n + (Text.digitValue c).getD 0) n
          < (10 * n + (Text.digitValue c).getD 0 + 1) * 10 ^ rest.length := ih _
        _ ≤ (n + 1) * 10 * 10 ^ rest.length := Nat.mul_le_mul_right _ hstep
        _ = (n + 1) * 10 ^ (c :: rest).length := by
            rw [List.length_cons, Nat.pow_succ, Nat.mul_assoc, Nat.mul_comm 10]

theorem lt_of_ofDigits {digits : List Char} {n : Nat} (h : ofDigits digits = .ok n) :
    n < writingBound := by
  unfold ofDigits ofDigitsUpTo at h
  split at h
  · next hlength =>
    cases h
    have hvalue := foldl_digits_lt digits 0
    rw [Nat.zero_add, Nat.one_mul] at hvalue
    refine Nat.lt_of_lt_of_le hvalue ?_
    unfold writingBound
    rw [Nat.pow_eq]
    apply Nat.pow_le_pow_right
    · decide
    · exact hlength
  · cases h

theorem isWritable_signed {n : Nat} (h : n < writingBound) (negative : Bool) :
    isWritable (signed negative n) = true := by
  have habs : (signed negative n).natAbs = n := by
    unfold signed
    split <;> simp
  change decide ((signed negative n).natAbs < writingBound) = true
  rw [habs, decide_eq_true_eq]
  exact h

/-- What has been read can be written. -/
theorem isWritable_of_leading {s : List Char} {n : Int} (h : leading s = .ok n) :
    isWritable n = true := by
  rw [leading_eq_run] at h
  cases hdigits : ofDigits (run s) with
  | error limit =>
      rw [hdigits] at h
      cases h
  | ok k =>
      rw [hdigits] at h
      cases h
      exact isWritable_signed (lt_of_ofDigits hdigits) _

theorem exists_leading_error_iff {s : List Char} : (∃ limit, leading s = .error limit) ↔
    digitLimit < ((sign s).2.takeWhile Text.isDigit).length := by
  change _ ↔ digitLimit < (run s).length
  rw [leading_eq_run, ofDigits, ofDigitsUpTo]
  split
  · next h => exact iff_of_false (by rintro ⟨_, ⟨⟩⟩) (Nat.not_lt.mpr h)
  · next h => exact iff_of_true ⟨_, rfl⟩ (Nat.lt_of_not_le h)

theorem leading_ones {n : Nat} (h : digitLimit < n) :
    leading (List.replicate n '1') = .error (.reading n) := by
  have hsign : sign (List.replicate n '1') = (false, List.replicate n '1') := by
    cases n <;> rfl
  have hdigit : Text.isDigit '1' = true := rfl
  have hdigits : (List.replicate n '1').takeWhile Text.isDigit = List.replicate n '1' := by
    rw [List.takeWhile_replicate, if_pos hdigit]
  have hlong : ¬ (List.replicate n '1').length ≤ digitLimit := by
    rw [List.length_replicate]
    exact Nat.not_le.mpr h
  unfold leading
  rw [hsign]
  dsimp only
  rw [hdigits, ofDigits, ofDigitsUpTo, if_neg hlong, List.length_replicate]
  rfl

end Numeral

/-- All else that is wrong with a line is reported. -/
theorem Instruction.escapes_ofLine_iff {source : String} {line : Nat} {raw : List Char} :
    (∃ fault, ofLine source line raw = .error fault ∧ fault.Escapes) ↔ Overlong raw := by
  unfold ofLine Overlong
  cases hstrip : Text.strip raw with
  | nil => exact iff_of_false (by simp) (by simp)
  | cons first rest =>
      dsimp only
      cases hcode : Opcode.ofCode? (Text.upperChar first) with
      | none => exact iff_of_false (by simp) (by simp [hcode])
      | some opcode =>
          have hline : (∃ first' rest' opcode', first :: rest = first' :: rest' ∧
              Opcode.ofCode? (Text.upperChar first') = some opcode' ∧ opcode'.isNumeric = true ∧
              Numeral.digitLimit <
                ((Numeral.sign (Text.strip rest')).2.takeWhile Text.isDigit).length) ↔
              opcode.isNumeric = true ∧ ∃ limit,
                Numeral.leading (Text.strip rest) = .error limit := by
            rw [Numeral.exists_leading_error_iff]
            constructor
            · rintro ⟨_, _, _, ⟨⟩, hcode', hnumeric, hlong⟩
              rw [hcode] at hcode'
              cases hcode'
              exact ⟨hnumeric, hlong⟩
            · rintro ⟨hnumeric, hlong⟩
              exact ⟨first, rest, opcode, rfl, hcode, hnumeric, hlong⟩
          rw [hline]
          dsimp only
          split
          · next hnumeric =>
            rw [and_iff_right hnumeric]
            cases Numeral.leading (Text.strip rest) with
            | ok number => exact iff_of_false (by simp) (by simp)
            | error limit => exact iff_of_true ⟨_, rfl, fun _ => nofun⟩ ⟨_, rfl⟩
          · next hplain =>
            refine iff_of_false ?_ (fun h => hplain h.1)
            rintro ⟨fault, hfault, hescapes⟩
            split at hfault
            · split at hfault <;> cases hfault
              exact Fault.not_escapes_load _ hescapes
            · cases hfault

theorem Instruction.writable_of_ofLine {source : String} {line : Nat} {raw : List Char}
    {i : Instruction} (h : ofLine source line raw = .ok (some i)) : Writable i.numbers := by
  unfold ofLine at h
  split at h
  · cases h
  · dsimp only at h
    split at h
    · cases h
    · next opcode _ =>
      split at h
      · next hnumeric =>
        split at h
        · next number hnumber =>
          cases h
          simp only [numbers, hnumeric, if_true]
          exact writable_cons.mpr ⟨Numeral.isWritable_of_leading hnumber, writable_nil⟩
        · cases h
      · next hnumeric =>
        have hplain (path : String) : Writable { opcode, path : Instruction }.numbers := by
          simp only [numbers, hnumeric]
          exact writable_nil
        split at h
        · split at h
          · cases h
          · cases h
            exact hplain _
        · cases h
          exact hplain _

namespace Program

section

variable {source : String} {limit : Int} {fault : Fault} {line count : Nat} {raw : List Char}
  {lines : List (List Char)} {instructions : List Instruction}

theorem decodeFrom_cons_ok_iff :
    decodeFrom source limit line count (raw :: lines) = .ok instructions ↔
      (Instruction.ofLine source line raw = .ok none ∧
        decodeFrom source limit (line + 1) count lines = .ok instructions) ∨
      ∃ i later, Instruction.ofLine source line raw = .ok (some i) ∧ ¬ limit ≤ (count : Int) ∧
        decodeFrom source limit (line + 1) (count + 1) lines = .ok later ∧
        i :: later = instructions := by
  rw [decodeFrom]
  split
  · next h => simp [h]
  · next h => simp [h]
  · next i h =>
    split
    · next hfull => simp [h, hfull]
    · next hroom =>
      simp only [h, hroom, reduceCtorEq, false_and, false_or, Except.ok.injEq, Option.some.injEq,
        not_false_eq_true, true_and, exists_and_left, exists_eq_left']
      cases decodeFrom source limit (line + 1) (count + 1) lines <;> simp [Functor.map, Except.map]

theorem writable_of_decodeFrom
    (h : decodeFrom source limit line count lines = .ok instructions) :
    ∀ i ∈ instructions, Writable i.numbers := by
  induction lines generalizing line count instructions with
  | nil =>
      cases h
      simp
  | cons raw rest ih =>
      obtain ⟨_, hrest⟩ | ⟨i, later, hi, _, hrest, rfl⟩ := decodeFrom_cons_ok_iff.mp h
      · exact ih hrest
      · exact List.forall_mem_cons.mpr ⟨Instruction.writable_of_ofLine hi, ih hrest⟩

theorem decodeFrom_cons_error_iff :
    decodeFrom source limit line count (raw :: lines) = .error fault ↔
      Instruction.ofLine source line raw = .error fault ∨
      (Instruction.ofLine source line raw = .ok none ∧
        decodeFrom source limit (line + 1) count lines = .error fault) ∨
      ∃ i, Instruction.ofLine source line raw = .ok (some i) ∧
        (limit ≤ (count : Int) ∧ Fault.ofTooLong limit source = fault ∨
          ¬ limit ≤ (count : Int) ∧
            decodeFrom source limit (line + 1) (count + 1) lines = .error fault) := by
  rw [decodeFrom]
  split
  · next h => simp [h]
  · next h => simp [h]
  · next i h =>
    split
    · next hfull => simp [h, hfull]
    · next hroom =>
      simp only [h, hroom, reduceCtorEq, false_and, false_or, Except.ok.injEq, Option.some.injEq,
        not_false_eq_true, true_and, exists_eq_left']
      cases decodeFrom source limit (line + 1) (count + 1) lines <;> simp [Functor.map, Except.map]

/-- With more room the same instructions are decoded. -/
theorem decodeFrom_of_le {instructions : List Instruction} {larger : Int}
    (h : decodeFrom source limit line count lines = .ok instructions) (hle : limit ≤ larger) :
    decodeFrom source larger line count lines = .ok instructions := by
  induction lines generalizing line count instructions with
  | nil => exact h
  | cons raw rest ih =>
      obtain ⟨hblank, hrest⟩ | ⟨i, after, hi, hroom, hrest, rfl⟩ := decodeFrom_cons_ok_iff.mp h
      · exact decodeFrom_cons_ok_iff.mpr (.inl ⟨hblank, ih hrest⟩)
      · refine decodeFrom_cons_ok_iff.mpr (.inr ⟨i, after, hi, ?_, ih hrest, rfl⟩)
        omega

/-- Where decoding fails, one line is to blame, and those before it are good. -/
theorem decodeFrom_error_iff : decodeFrom source limit line count lines = .error fault ↔
      ∃ earlier raw later instructions, lines = earlier ++ raw :: later ∧
        decodeFrom source limit line count earlier = .ok instructions ∧
        (Instruction.ofLine source (line + earlier.length) raw = .error fault ∨
          (∃ i, Instruction.ofLine source (line + earlier.length) raw = .ok (some i)) ∧
            limit ≤ ((count + instructions.length : Nat) : Int) ∧
            Fault.ofTooLong limit source = fault) := by
  induction lines generalizing line count with
  | nil => exact iff_of_false nofun (by simp)
  | cons first rest ih =>
      have hshift (earlier : List (List Char)) :
          line + 1 + earlier.length = line + (first :: earlier).length := by
        rw [List.length_cons]
        omega
      rw [decodeFrom_cons_error_iff]
      constructor
      · rintro (h | ⟨hblank, h⟩ | ⟨i, hi, ⟨hfull, hlimit⟩ | ⟨hroom, h⟩⟩)
        · exact ⟨[], first, rest, [], rfl, rfl, .inl h⟩
        · obtain ⟨earlier, raw, later, instructions, rfl, hok, hbad⟩ := ih.mp h
          rw [hshift] at hbad
          exact ⟨first :: earlier, raw, later, instructions, rfl,
            decodeFrom_cons_ok_iff.mpr (.inl ⟨hblank, hok⟩), hbad⟩
        · exact ⟨[], first, rest, [], rfl, rfl, .inr ⟨⟨i, hi⟩, hfull, hlimit⟩⟩
        · obtain ⟨earlier, raw, later, instructions, rfl, hok, hbad⟩ := ih.mp h
          have hcount : count + 1 + instructions.length = count + (i :: instructions).length := by
            rw [List.length_cons]
            omega
          rw [hshift, hcount] at hbad
          exact ⟨first :: earlier, raw, later, i :: instructions, rfl,
            decodeFrom_cons_ok_iff.mpr (.inr ⟨i, instructions, hi, hroom, hok, rfl⟩), hbad⟩
      · rintro ⟨earlier, raw, later, instructions, hlines, hok, hbad⟩
        cases earlier with
        | nil =>
            cases hlines
            cases hok
            obtain h | ⟨⟨i, hi⟩, hfull, hlimit⟩ := hbad
            · exact .inl h
            · exact .inr (.inr ⟨i, hi, .inl ⟨hfull, hlimit⟩⟩)
        | cons _ earlier =>
            cases hlines
            rw [← hshift] at hbad
            obtain ⟨hblank, hrest⟩ | ⟨i, after, hi, hroom, hrest, rfl⟩ :=
              decodeFrom_cons_ok_iff.mp hok
            · exact .inr (.inl ⟨hblank, ih.mpr ⟨earlier, raw, later, _, rfl, hrest, hbad⟩⟩)
            · have hcount : count + (i :: after).length = count + 1 + after.length := by
                rw [List.length_cons]
                omega
              rw [hcount] at hbad
              exact .inr (.inr ⟨i, hi, .inr
                ⟨hroom, ih.mpr ⟨earlier, raw, later, _, rfl, hrest, hbad⟩⟩⟩)

end

section

variable {lines : List (List Char)} {source : String} {limit : Int} {p : Program}

theorem decode_eq_ok_iff : decode lines source limit = .ok p ↔
    decodeFrom source limit 1 0 lines = .ok p.instructions := by
  unfold decode
  cases decodeFrom source limit 1 0 lines with
  | error fault => exact iff_of_false nofun nofun
  | ok instructions =>
      constructor
      · rintro ⟨⟩
        rfl
      · rintro ⟨⟩
        rfl

theorem decode_eq_error_iff {fault : Fault} : decode lines source limit = .error fault ↔
    decodeFrom source limit 1 0 lines = .error fault := by
  unfold decode
  cases decodeFrom source limit 1 0 lines <;> simp [Functor.map, Except.map]

theorem written_of_decode (h : decode lines source limit = .ok p) : p.Written :=
  writable_of_decodeFrom (decode_eq_ok_iff.mp h)

theorem decode_of_le {larger : Int} (h : decode lines source limit = .ok p)
    (hle : limit ≤ larger) : decode lines source larger = .ok p :=
  decode_eq_ok_iff.mpr (decodeFrom_of_le (decode_eq_ok_iff.mp h) hle)

end

theorem written_empty : Program.Written {} :=
  List.forall_mem_nil _

theorem escapes_decode_iff {source : String} {limit : Int} {lines : List (List Char)} :
    (∃ fault, decode lines source limit = .error fault ∧ fault.Escapes) ↔
      Undecodable lines source limit := by
  simp only [decode_eq_error_iff, decodeFrom_error_iff, Nat.zero_add]
  constructor
  · rintro ⟨fault, ⟨earlier, raw, later, instructions, hlines, hok, hbad⟩, hescapes⟩
    refine ⟨earlier, raw, later, instructions, hlines, hok, ?_⟩
    obtain h | ⟨hi, hfull, rfl⟩ := hbad
    · exact .inl (Instruction.escapes_ofLine_iff.mp ⟨fault, h, hescapes⟩)
    · exact .inr ⟨hi, hfull, Fault.escapes_ofTooLong_iff.mp hescapes⟩
  · rintro ⟨earlier, raw, later, instructions, hlines, hok, h | ⟨hi, hfull, hlimit⟩⟩
    · obtain ⟨fault, hfault, hescapes⟩ : ∃ fault,
          Instruction.ofLine source (1 + earlier.length) raw = .error fault ∧ fault.Escapes :=
        Instruction.escapes_ofLine_iff.mpr h
      exact ⟨fault, ⟨earlier, raw, later, instructions, hlines, hok, .inl hfault⟩, hescapes⟩
    · exact ⟨_, ⟨earlier, raw, later, instructions, hlines, hok, .inr ⟨hi, hfull, rfl⟩⟩,
        Fault.escapes_ofTooLong_iff.mpr hlimit⟩

end Program

/-- The failures to load that are not reported. -/
theorem Loader.escapes_load_iff {loader : Loader} {files : FileView} {name : String} :
    (∃ fault, loader.load files name = .error fault ∧ fault.Escapes) ↔
      loader.Unloadable files name := by
  unfold load Unloadable
  dsimp only
  split
  · next hnull => exact iff_of_true ⟨_, rfl, fun _ => nofun⟩ (.inl hnull)
  · next hnull =>
    cases files (loader.resolve name) with
    | error fault => exact iff_of_false (by simp) (by simp [hnull])
    | ok bytes =>
        dsimp only
        cases hutf : Utf8.decode bytes with
        | error fault => exact iff_of_false (by simp) (by simp [hnull, hutf])
        | ok text =>
            dsimp only
            rw [Program.escapes_decode_iff]
            constructor
            · exact fun h => .inr ⟨bytes, text, rfl, hutf, h⟩
            · rintro (h | ⟨_, _, ⟨⟩, htext, h⟩)
              · exact absurd h hnull
              · rw [hutf] at htext
                cases htext
                exact h

/-- A file that can be loaded can be loaded with a greater limit too. -/
theorem Loader.load_of_le {loader : Loader} {files : FileView} {name : String} {p : Program}
    {larger : Int} (h : loader.load files name = .ok p) (hle : loader.limit ≤ larger) :
    { loader with limit := larger }.load files name = .ok p := by
  unfold load resolve at h ⊢
  dsimp only at h ⊢
  split at h
  · cases h
  · next hnull =>
    rw [if_neg hnull]
    split at h
    · cases h
    · split at h
      · cases h
      · exact Program.decode_of_le h hle

theorem Loader.written_of_load {loader : Loader} {files : FileView} {name : String} {p : Program}
    (h : loader.load files name = .ok p) : p.Written := by
  unfold load at h
  dsimp only at h
  split at h
  · cases h
  · split at h
    · cases h
    · split at h
      · cases h
      · exact Program.written_of_decode h

end Uniproc
