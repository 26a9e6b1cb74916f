import Mathlib.Data.List.Forall2
import Mathlib.Order.Bounds.Defs
import Uniproc.Proofs.Listing

/-!
The grammar of program text. A text is accepted just if none of its lines is bad and it has no
more instructions than may be; its program then has one for each line that is not blank. Of a
text that is not accepted, the first line at which this shows is to blame.
-/

namespace Uniproc
namespace Line

/-- Nothing is on the line but blanks. -/
def Blank (raw : List Char) : Prop :=
  Text.strip raw = []

instance (raw : List Char) : Decidable (Blank raw) :=
  inferInstanceAs (Decidable (_ = _))

/-- The upper-case form of the first character that counts. It can be several characters. -/
def code (raw : List Char) : List Char :=
  match Text.strip raw with
  | [] => []
  | first :: _ => Text.upperChar first

def argument (raw : List Char) : List Char :=
  Text.strip (Text.strip raw).tail

/-- The code is the letter of no operation. -/
def Unknown (raw : List Char) : Prop :=
  ¬ Blank raw ∧ ∀ op : Opcode, code raw ≠ [op.letter]

/-- A replacement without a file to take the program from. -/
def Bare (raw : List Char) : Prop :=
  code raw = [Opcode.replace.letter] ∧ argument raw = []

def Bad (raw : List Char) : Prop :=
  Unknown raw ∨ Bare raw

/-- The line is that of the instruction. -/
structure StandsFor (raw : List Char) (i : Instruction) : Prop where
  code_eq : code raw = [i.opcode.letter]
  number_leads : i.opcode.isNumeric = true → Numeral.Leads (argument raw) i.number
  number_eq : i.opcode.isNumeric = false → i.number = 0
  path_eq : i.path.toList = if i.opcode = .replace then argument raw else []

/-- All that can be read of a line, if no number on it is too long. -/
inductive Read (source : String) (line : Nat) (raw : List Char) :
    Except Fault (Option Instruction) → Prop
  | blank (h : Blank raw) : Read source line raw (.ok none)
  | unknown (h : Unknown raw) : Read source line raw
      (.error (.load (.invalidOperation (String.ofList (code raw)) line source)))
  | bare (h : Bare raw) : Read source line raw (.error (.load (.missingArgument line source)))
  | instruction {i : Instruction} (hgood : ¬ Bad raw) (h : StandsFor raw i) :
      Read source line raw (.ok (some i))

variable {raw : List Char} {i : Instruction} {op : Opcode}

theorem not_blank_of_code (h : code raw = [op.letter]) : ¬ Blank raw := by
  intro hblank
  rw [Blank] at hblank
  rw [code, hblank] at h
  cases h

theorem not_bad_of_blank (h : Blank raw) : ¬ Bad raw := by
  rintro (hunknown | hbare)
  · exact hunknown.1 h
  · exact not_blank_of_code hbare.1 h

theorem not_unknown_of_code (h : code raw = [op.letter]) : ¬ Unknown raw :=
  fun hunknown => hunknown.2 op h

/-- Two operations have two letters. -/
theorem opcode_eq_of_code {op' : Opcode} (h : code raw = [op.letter])
    (h' : code raw = [op'.letter]) : op = op' := by
  have hletters : Opcode.ofCode? [op.letter] = Opcode.ofCode? [op'.letter] := by rw [← h, h']
  rw [Opcode.ofCode?_letter, Opcode.ofCode?_letter] at hletters
  exact Option.some.inj hletters

theorem not_bad_of_code (h : code raw = [op.letter])
    (hargument : op = .replace → argument raw ≠ []) : ¬ Bad raw := by
  rintro (hunknown | ⟨hbare, hempty⟩)
  · exact not_unknown_of_code h hunknown
  · exact hargument (opcode_eq_of_code h hbare) hempty

theorem read (h : ¬ Instruction.Overlong raw) (source : String) (line : Nat) :
    Read source line raw (Instruction.ofLine source line raw) := by
  unfold Instruction.ofLine
  cases hstrip : Text.strip raw with
  | nil => exact .blank hstrip
  | cons first rest =>
      have hcode : code raw = Text.upperChar first := by rw [code, hstrip]
      have hargument : argument raw = Text.strip rest := by rw [argument, hstrip, List.tail_cons]
      have hvisible : ¬ Blank raw := by
        rw [Blank, hstrip]
        exact List.cons_ne_nil first rest
      dsimp only
      rw [← hcode, ← hargument]
      cases hop : Opcode.ofCode? (code raw) with
      | none =>
          refine .unknown ⟨hvisible, fun op hletter => ?_⟩
          rw [hletter, Opcode.ofCode?_letter] at hop
          cases hop
      | some op =>
          have hletter := Opcode.eq_letter_of_ofCode? hop
          dsimp only
          by_cases hnumeric : op.isNumeric = true
          · rw [if_pos hnumeric]
            have hother : op ≠ .replace := by
              rintro rfl
              cases hnumeric
            cases hnumber : Numeral.leading (argument raw) with
            | error limit =>
                refine absurd ⟨first, rest, op, hstrip, hcode ▸ hop, hnumeric, ?_⟩ h
                rw [← hargument]
                exact Numeral.exists_leading_error_iff.mp ⟨limit, hnumber⟩
            | ok number =>
                refine .instruction (not_bad_of_code hletter fun heq => absurd heq hother) ?_
                exact ⟨hletter, fun _ => Numeral.leads_of_leading hnumber,
                  fun hplain => absurd (hnumeric.symm.trans hplain) (by decide),
                  (if_neg hother).symm⟩
          · rw [if_neg hnumeric]
            by_cases hreplace : op = .replace
            · rw [if_pos hreplace]
              by_cases hempty : argument raw = []
              · rw [hempty]
                exact .bare ⟨hreplace ▸ hletter, hempty⟩
              · rw [if_neg (by simpa using hempty)]
                refine .instruction (not_bad_of_code hletter fun _ => hempty) ?_
                exact ⟨hletter, fun hyes => absurd hyes hnumeric, fun _ => rfl,
                  by rw [String.toList_ofList, if_pos hreplace]⟩
            · rw [if_neg hreplace]
              refine .instruction (not_bad_of_code hletter fun heq => absurd heq hreplace) ?_
              exact ⟨hletter, fun hyes => absurd hyes hnumeric, fun _ => rfl,
                (if_neg hreplace).symm⟩

theorem overlong_iff : Instruction.Overlong raw ↔
    (Opcode.ofCode? (code raw)).any Opcode.isNumeric = true ∧
      Numeral.digitLimit < (Numeral.run (argument raw)).length := by
  unfold Instruction.Overlong code argument Numeral.run
  cases hstrip : Text.strip raw with
  | nil =>
      refine iff_of_false (fun ⟨_, _, _, heq, _⟩ => by cases heq) (fun ⟨hany, _⟩ => ?_)
      exact absurd hany (by decide)
  | cons first rest =>
      dsimp only [List.tail_cons]
      constructor
      · rintro ⟨_, _, op, ⟨⟩, hop, hnumeric, hlong⟩
        rw [hop]
        exact ⟨hnumeric, hlong⟩
      · rintro ⟨hany, hlong⟩
        cases hop : Opcode.ofCode? (Text.upperChar first) with
        | none =>
            rw [hop] at hany
            cases hany
        | some op =>
            rw [hop] at hany
            exact ⟨first, rest, op, rfl, hop, hany, hlong⟩

instance (raw : List Char) : Decidable (Instruction.Overlong raw) :=
  decidable_of_iff' _ overlong_iff

end Line

namespace Program

/-- The lines that are not blank. -/
def written (lines : List (List Char)) : List (List Char) :=
  lines.filter fun raw => ¬ Line.Blank raw

/-- A text of a program: no line is bad, and there are no more instructions than may be. -/
structure Accepted (lines : List (List Char)) (limit : Int) : Prop where
  good : ∀ raw ∈ lines, ¬ Line.Bad raw
  room : ((written lines).length : Int) ≤ max 0 limit

/-- At the `k`-th line it shows that the text is none of a program: this line is bad, or the
lines up to it are too many. -/
def OffendsAt (lines : List (List Char)) (limit : Int) (k : Nat) : Prop :=
  1 ≤ k ∧ ∃ raw, lines[k - 1]? = some raw ∧
    (Line.Bad raw ∨ max 0 limit < ((written (lines.take k)).length : Int))

/-- What the `k`-th line is blamed for. A limit that is too long for a text is not named. -/
inductive Blamed (lines : List (List Char)) (source : String) (limit : Int) (k : Nat) :
    Fault → Prop
  | unknown {raw : List Char} (hraw : lines[k - 1]? = some raw) (h : Line.Unknown raw) :
      Blamed lines source limit k
        (.load (.invalidOperation (String.ofList (Line.code raw)) k source))
  | bare {raw : List Char} (hraw : lines[k - 1]? = some raw) (h : Line.Bare raw) :
      Blamed lines source limit k (.load (.missingArgument k source))
  | full {raw : List Char} (hraw : lines[k - 1]? = some raw) (h : ¬ Line.Bad raw)
      (hlimit : Numeral.isWritable limit = true) :
      Blamed lines source limit k (.load (.tooLong limit source))
  | unnamed {raw : List Char} (hraw : lines[k - 1]? = some raw) (h : ¬ Line.Bad raw)
      (hlimit : Numeral.isWritable limit = false) :
      Blamed lines source limit k (.numeral .writing)

variable {lines earlier later : List (List Char)} {raw : List Char} {source : String}
  {limit : Int} {line count k : Nat} {instructions : List Instruction} {fault : Fault}

theorem written_cons_of_blank (h : Line.Blank raw) (lines : List (List Char)) :
    written (raw :: lines) = written lines :=
  List.filter_cons_of_neg (by simpa using h)

theorem written_cons_of_not_blank (h : ¬ Line.Blank raw) (lines : List (List Char)) :
    written (raw :: lines) = raw :: written lines :=
  List.filter_cons_of_pos (by simpa using h)

/-- The instructions that have been decoded are those of the lines, one for each. -/
theorem standsFor_of_decodeFrom (hlines : ∀ raw ∈ lines, ¬ Instruction.Overlong raw)
    (h : decodeFrom source limit line count lines = .ok instructions) :
    (∀ raw ∈ lines, ¬ Line.Bad raw) ∧
      List.Forall₂ Line.StandsFor (written lines) instructions ∧
      (count + instructions.length : Int) ≤ max (count : Int) limit := by
  induction lines generalizing line count instructions with
  | nil =>
      cases h
      refine ⟨List.forall_mem_nil _, .nil, ?_⟩
      rw [List.length_nil]
      omega
  | cons raw rest ih =>
      rw [List.forall_mem_cons] at hlines
      have hread := Line.read hlines.1 source line
      obtain ⟨hline, hrest⟩ | ⟨i, after, hline, hroom, hrest, rfl⟩ := decodeFrom_cons_ok_iff.mp h
      · obtain ⟨hgood, hstands, hcount⟩ := ih hlines.2 hrest
        rw [hline] at hread
        cases hread with
        | blank hblank =>
            rw [written_cons_of_blank hblank, List.forall_mem_cons]
            exact ⟨⟨Line.not_bad_of_blank hblank, hgood⟩, hstands, hcount⟩
      · obtain ⟨hgood, hstands, hcount⟩ := ih hlines.2 hrest
        rw [hline] at hread
        cases hread with
        | instruction hraw hi =>
            rw [written_cons_of_not_blank (Line.not_blank_of_code hi.code_eq),
              List.forall_mem_cons]
            refine ⟨⟨hraw, hgood⟩, .cons hi hstands, ?_⟩
            rw [List.length_cons]
            omega

/-- Good lines with room for all of them are not to blame, whatever follows. -/
theorem not_offendsAt_of_le (hgood : ∀ raw ∈ earlier, ¬ Line.Bad raw)
    (hroom : ((written earlier).length : Int) ≤ max 0 limit) (hk : k ≤ earlier.length) :
    ¬ OffendsAt (earlier ++ later) limit k := by
  rintro ⟨hpos, raw, hraw, hbad | hfull⟩
  · rw [List.getElem?_append_left (by omega)] at hraw
    exact hgood raw (List.mem_of_getElem? hraw) hbad
  · rw [List.take_append_of_le_length hk] at hfull
    have hsub : (written (earlier.take k)).length ≤ (written earlier).length :=
      ((List.take_sublist k earlier).filter _).length_le
    omega

/-- Decoding stops at the first line at which the text offends. -/
theorem blamed_of_error (hlines : ∀ raw ∈ lines, ¬ Instruction.Overlong raw)
    (h : decode lines source limit = .error fault) :
    ∃ k, IsLeast {k | OffendsAt lines limit k} k ∧ Blamed lines source limit k fault := by
  obtain ⟨earlier, raw, later, instructions, rfl, hok, hbad⟩ :=
    decodeFrom_error_iff.mp (decode_eq_error_iff.mp h)
  rw [List.forall_mem_append, List.forall_mem_cons] at hlines
  obtain ⟨hearlier, hline, _⟩ := hlines
  obtain ⟨hgood, hstands, hcount⟩ := standsFor_of_decodeFrom hearlier hok
  have hlength := hstands.length_eq
  have hroom : ((written earlier).length : Int) ≤ max 0 limit := by omega
  have hraw : (earlier ++ raw :: later)[earlier.length + 1 - 1]? = some raw := by simp
  have hread := Line.read hline source (1 + earlier.length)
  have hleast (hoffends : OffendsAt (earlier ++ raw :: later) limit (earlier.length + 1)) :
      IsLeast {k | OffendsAt (earlier ++ raw :: later) limit k} (earlier.length + 1) := by
    refine ⟨hoffends, fun j hj => ?_⟩
    by_contra hlt
    exact not_offendsAt_of_le hgood hroom (by omega) hj
  refine ⟨earlier.length + 1, ?_⟩
  rw [Nat.add_comm 1] at hread hbad
  obtain herror | ⟨⟨i, hi⟩, hfull, rfl⟩ := hbad
  · rw [herror] at hread
    cases hread with
    | unknown hunknown =>
        exact ⟨hleast ⟨by omega, raw, hraw, .inl (.inl hunknown)⟩, .unknown hraw hunknown⟩
    | bare hbare => exact ⟨hleast ⟨by omega, raw, hraw, .inl (.inr hbare)⟩, .bare hraw hbare⟩
  · rw [hi] at hread
    cases hread with
    | instruction hnot hstandsFor =>
        have hvisible := Line.not_blank_of_code hstandsFor.code_eq
        have htake : written ((earlier ++ raw :: later).take (earlier.length + 1)) =
            written earlier ++ [raw] := by
          rw [List.take_length_add_append, List.take_succ_cons, List.take_zero, written,
            List.filter_append]
          exact congrArg _ (written_cons_of_not_blank hvisible [])
        refine ⟨hleast ⟨by omega, raw, hraw, .inr ?_⟩, ?_⟩
        · rw [htake, List.length_append, List.length_singleton]
          omega
        · unfold Fault.ofTooLong
          split
          · next hlimit => exact .full hraw hnot hlimit
          · next hlimit => exact .unnamed hraw hnot (by simpa using hlimit)

theorem Accepted.not_offendsAt (h : Accepted lines limit) (k : Nat) :
    ¬ OffendsAt lines limit k := by
  rintro ⟨hpos, raw, hraw, hbad⟩
  have hk : k ≤ lines.length := by
    have hlt := (List.getElem?_eq_some_iff.mp hraw).1
    omega
  have hnot : ¬ OffendsAt (lines ++ []) limit k := not_offendsAt_of_le h.good h.room hk
  rw [List.append_nil] at hnot
  exact hnot ⟨hpos, raw, hraw, hbad⟩

/-- A text without numbers that are too long is decoded just if it is accepted, to the
instructions of its lines, and else the first offence is reported. -/
theorem decoded_or_blamed (h : ∀ raw ∈ lines, ¬ Instruction.Overlong raw) (source : String)
    (limit : Int) :
    ((∃ p, decode lines source limit = .ok p) ↔ Accepted lines limit) ∧
    (∀ p, decode lines source limit = .ok p →
      List.Forall₂ Line.StandsFor (written lines) p.instructions) ∧
    (¬ Accepted lines limit → ∃ k fault, IsLeast {k | OffendsAt lines limit k} k ∧
      decode lines source limit = .error fault ∧ Blamed lines source limit k fault) := by
  cases hdecode : decode lines source limit with
  | ok p =>
      obtain ⟨hgood, hstands, hcount⟩ := standsFor_of_decodeFrom h (decode_eq_ok_iff.mp hdecode)
      have haccepted : Accepted lines limit := ⟨hgood, by rw [hstands.length_eq]; omega⟩
      refine ⟨iff_of_true ⟨p, rfl⟩ haccepted, ?_, fun hnot => absurd haccepted hnot⟩
      rintro _ ⟨⟩
      exact hstands
  | error fault =>
      obtain ⟨k, hleast, hblamed⟩ := blamed_of_error h hdecode
      have hnot : ¬ Accepted lines limit := fun haccepted => haccepted.not_offendsAt k hleast.1
      refine ⟨iff_of_false (by simp) hnot, by simp, fun _ => ⟨k, fault, hleast, rfl, hblamed⟩⟩

/-- An upper-case form of one letter and one of two, and digits of two scripts. -/
def mixed : List (List Char) :=
  [" ſ+٠7 x".toList, " ".toList, "ß 3".toList, "B".toList, "R".toList]

/-- With room for one instruction the third line is bad, and without it there are too many. -/
theorem decoded_or_blamed_mixed :
    (∀ raw ∈ mixed, ¬ Instruction.Overlong raw) ∧
    (Accepted (mixed.take 2) 1 ∧
      List.Forall₂ Line.StandsFor (written (mixed.take 2)) [{ opcode := .set, number := 7 }]) ∧
    (IsLeast {k | OffendsAt mixed 1 k} 3 ∧ decode mixed defaultSource 1 =
      .error (.load (.invalidOperation "SS" 3 defaultSource))) ∧
    ∃ k, IsLeast {k | OffendsAt (mixed.eraseIdx 2) 1 k} k ∧
      Blamed (mixed.eraseIdx 2) defaultSource 1 k (.load (.tooLong 1 defaultSource)) := by
  have hshort : ∀ raw ∈ mixed, ¬ Instruction.Overlong raw := by decide +kernel
  have hfew : decode (mixed.take 2) defaultSource 1 =
      .ok { instructions := [{ opcode := .set, number := 7 }] } := by decide +kernel
  have hbad : decode mixed defaultSource 1 =
      .error (.load (.invalidOperation "SS" 3 defaultSource)) := by decide +kernel
  have hmany : decode (mixed.eraseIdx 2) defaultSource 1 =
      .error (.load (.tooLong 1 defaultSource)) := by decide +kernel
  refine ⟨hshort, ?_, ?_, ?_⟩
  · obtain ⟨haccepted, hstands, _⟩ := decoded_or_blamed
      (fun raw hraw => hshort raw (List.mem_of_mem_take hraw)) defaultSource 1
    exact ⟨haccepted.mp ⟨_, hfew⟩, hstands _ hfew⟩
  · obtain ⟨haccepted, _, hblamed⟩ := decoded_or_blamed hshort defaultSource 1
    obtain ⟨k, fault, hleast, hfault, hblame⟩ := hblamed (mt haccepted.mpr (by simp [hbad]))
    rw [hbad] at hfault
    have hline : k = 3 := by
      cases hblame with
      | unknown =>
          injection hfault with hsame
          injection hsame with hsame
          injection hsame with _ hsame
          exact hsame.symm
      | bare => cases hfault
      | full => cases hfault
      | unnamed => cases hfault
    exact ⟨hline ▸ hleast, hbad⟩
  · have hrest : ∀ raw ∈ mixed.eraseIdx 2, ¬ Instruction.Overlong raw :=
      fun raw hraw => hshort raw (List.mem_of_mem_eraseIdx hraw)
    obtain ⟨haccepted, _, hblamed⟩ := decoded_or_blamed hrest defaultSource 1
    obtain ⟨k, fault, hleast, hfault, hblame⟩ := hblamed (mt haccepted.mpr (by simp [hmany]))
    rw [hmany] at hfault
    cases hfault
    exact ⟨k, hleast, hblame⟩

/-- One good line is too many for a negative limit of 4301 digits, and nothing says so. -/
theorem exists_decode_error :
    decode ["B".toList] defaultSource (-(Numeral.writingBound : Int)) =
      .error (.numeral .writing) ∧
    ¬ ∀ (lines : List (List Char)) (source : String) (limit : Int),
      (∀ raw ∈ lines, ¬ Instruction.Overlong raw) → (∀ raw ∈ lines, ¬ Line.Bad raw) →
        ¬ Accepted lines limit →
          decode lines source limit = .error (.load (.tooLong limit source)) := by
  have hline : Instruction.ofLine defaultSource 1 "B".toList = .ok (some { opcode := .block }) := by
    decide +kernel
  have hlimit : Numeral.isWritable (-(Numeral.writingBound : Int)) = false := by
    rw [Numeral.isWritable, decide_eq_false_iff_not]
    omega
  have hdecode : decode ["B".toList] defaultSource (-(Numeral.writingBound : Int)) =
      .error (.numeral .writing) := by
    rw [decode_eq_error_iff, decodeFrom, hline]
    dsimp only
    rw [if_pos (by omega), Fault.ofTooLong, if_neg (Bool.eq_false_iff.mp hlimit)]
  refine ⟨hdecode, fun h => ?_⟩
  have hletter : Line.code "B".toList = [Opcode.block.letter] := by decide +kernel
  have hgood : ¬ Line.Bad "B".toList :=
    Line.not_bad_of_code hletter fun heq => absurd heq (by decide)
  have hwritten : written ["B".toList] = ["B".toList] := by decide +kernel
  have htoo := h ["B".toList] defaultSource (-(Numeral.writingBound : Int)) (by decide +kernel)
    (List.forall_mem_singleton.mpr hgood) fun haccepted => by
      have hroom := haccepted.room
      rw [hwritten, List.length_singleton] at hroom
      omega
  rw [hdecode] at htoo
  cases htoo

end Program
end Uniproc
