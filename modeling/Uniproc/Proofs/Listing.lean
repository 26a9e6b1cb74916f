import Uniproc.Proofs.Loading
import Uniproc.Proofs.Numeral
import Uniproc.Proofs.Utf8

/-!
Programs as texts. A decoded program has a line for each of its instructions, and these lines
are decoded to the same program, from a file too: no line of it can be broken, since no path
has a line end inside.
-/

namespace Uniproc

/-- What an instruction is when it comes from a line: it carries what its operation takes, and
its path starts and ends with no blank. -/
structure Instruction.Lined (i : Instruction) : Prop where
  writable : Writable i.numbers
  number_eq : i.opcode.isNumeric = false → i.number = 0
  path_eq : i.opcode ≠ .replace → i.path = ""
  path_ne : i.opcode = .replace → i.path ≠ ""
  strip_path : Text.strip i.path.toList = i.path.toList

namespace Instruction

variable {i : Instruction} {source : String} {line : Nat} {raw : List Char}

theorem lined_of_ofLine (h : ofLine source line raw = .ok (some i)) : i.Lined := by
  have hwritable := writable_of_ofLine h
  unfold ofLine at h
  split at h
  · cases h
  dsimp only at h
  split at h
  · cases h
  next opcode _ =>
  split at h
  · next hnumeric =>
    split at h
    · cases h
      refine ⟨hwritable, fun hplain => ?_, fun _ => rfl, fun hreplace => ?_, rfl⟩
      · exact absurd (hnumeric.symm.trans hplain) (by decide)
      · subst hreplace
        exact absurd hnumeric (by decide)
    · cases h
  split at h
  · split at h
    · cases h
    · next hreplace hne =>
      cases h
      refine ⟨hwritable, fun _ => rfl, fun hother => absurd hreplace hother, fun _ hempty => ?_, ?_⟩
      · exact hne (by simpa using hempty)
      · rw [String.toList_ofList, Text.strip_strip]
  · next hother =>
    cases h
    exact ⟨hwritable, fun _ => rfl, fun _ => rfl, fun hreplace => absurd hreplace hother, rfl⟩

theorem upperChar_letter (opcode : Opcode) : Text.upperChar opcode.letter = [opcode.letter] := by
  cases opcode <;> decide

theorem isBlank_letter (opcode : Opcode) : Text.isBlank opcode.letter = false := by
  cases opcode <;> decide

/-- A line in which a blank stands between the operation and its argument. -/
theorem strip_spaced (opcode : Opcode) {argument : List Char} (hne : argument ≠ [])
    (hstrip : Text.strip argument = argument) :
    Text.strip (opcode.letter :: ' ' :: argument) = opcode.letter :: ' ' :: argument ∧
      Text.strip (' ' :: argument) = argument := by
  constructor
  · refine Text.strip_of_ends (fun c hc => ?_) fun c hc => ?_
    · cases hc
      exact isBlank_letter opcode
    · rw [List.getLast?_cons_cons, List.getLast?_cons_of_ne_nil hne, ← hstrip] at hc
      exact Text.isBlank_of_getLast?_strip hc
  · have hblank : ∀ c ∈ [' '], Text.isBlank c = true := List.forall_mem_singleton.mpr rfl
    exact (Text.strip_append_of_blank hblank argument).trans hstrip

theorem toList_line_of_numeric (h : i.opcode.isNumeric = true) :
    i.line.toList = i.opcode.letter :: ' ' :: (toString i.number).toList := by
  rw [line, if_pos h]
  simp [toString]

theorem toList_line_of_replace (h : i.opcode = .replace) :
    i.line.toList = i.opcode.letter :: ' ' :: i.path.toList := by
  rw [line, if_neg (by rw [h]; decide), if_pos h]
  simp [toString]

theorem toList_line_of_plain (hnumeric : ¬ i.opcode.isNumeric = true) (h : i.opcode ≠ .replace) :
    i.line.toList = [i.opcode.letter] := by
  rw [line, if_neg hnumeric, if_neg h]
  exact String.toList_singleton _

/-- The line of an instruction stands for it. -/
theorem ofLine_line (h : i.Lined) (source : String) (line : Nat) :
    ofLine source line i.line.toList = .ok (some i) := by
  obtain ⟨opcode, number, path⟩ := i
  have hcode : Opcode.ofCode? (Text.upperChar opcode.letter) = some opcode := by
    rw [upperChar_letter, Opcode.ofCode?_letter]
  unfold ofLine
  by_cases hnumeric : opcode.isNumeric = true
  · have hother : opcode ≠ .replace := by
      rintro rfl
      exact absurd hnumeric (by decide)
    have hpath : path = "" := h.path_eq hother
    have hread : Numeral.leading (toString number).toList = .ok number := by
      have hwritable := h.writable
      rw [numbers, if_pos hnumeric, writable_cons] at hwritable
      exact Numeral.leading_toString hwritable.1
    obtain ⟨hline, hargument⟩ := strip_spaced opcode (Numeral.toString_ne_nil number)
      (Text.strip_of_visible fun c hc => Numeral.isBlank_of_mem_toString hc)
    rw [toList_line_of_numeric hnumeric, hline]
    simp only [hcode, hargument, hread, if_pos hnumeric, hpath]
  · have hnumber : number = 0 := h.number_eq (by simpa using hnumeric)
    by_cases hreplace : opcode = .replace
    · have hne : path.toList ≠ [] := by simpa using h.path_ne hreplace
      obtain ⟨hline, hargument⟩ := strip_spaced opcode hne h.strip_path
      rw [toList_line_of_replace hreplace, hline]
      simp only [hcode, hargument, if_neg hnumeric, if_pos hreplace, hnumber, String.ofList_toList]
      rw [if_neg (by simpa using hne)]
    · have hpath : path = "" := h.path_eq hreplace
      have hline : Text.strip [opcode.letter] = [opcode.letter] :=
        Text.strip_of_visible (by simp [isBlank_letter])
      rw [toList_line_of_plain hnumeric hreplace, hline]
      simp only [hcode, if_neg hnumeric, if_neg hreplace, hnumber, hpath]

/-- The path has no line end inside. -/
def Unbroken (i : Instruction) : Prop :=
  ∀ c ∈ i.path.toList, Text.endsLine c = false

theorem unbroken_of_ofLine (hraw : ∀ c ∈ raw, Text.endsLine c = false)
    (h : ofLine source line raw = .ok (some i)) : i.Unbroken := by
  unfold ofLine at h
  split at h
  · cases h
  next first rest hstrip =>
  have hrest : ∀ c ∈ Text.strip rest, Text.endsLine c = false := by
    intro c hc
    refine hraw c (Text.mem_of_mem_strip ?_)
    rw [hstrip]
    exact List.mem_cons_of_mem _ (Text.mem_of_mem_strip hc)
  dsimp only at h
  split at h
  · cases h
  split at h
  · split at h
    · cases h
      exact List.forall_mem_nil _
    · cases h
  split at h
  · split at h
    · cases h
    · cases h
      simpa only [Unbroken, String.toList_ofList] using hrest
  · cases h
    exact List.forall_mem_nil _

theorem endsLine_of_visible {c : Char} (h : Text.isBlank c = false) : Text.endsLine c = false :=
  Bool.eq_false_iff.mpr fun hends =>
    Bool.false_ne_true (h.symm.trans (Text.isBlank_of_endsLine hends))

theorem endsLine_of_mem_line (h : i.Unbroken) : ∀ c ∈ i.line.toList, Text.endsLine c = false := by
  have hletter := endsLine_of_visible (isBlank_letter i.opcode)
  have hspace : Text.endsLine ' ' = false := by decide
  by_cases hnumeric : i.opcode.isNumeric = true
  · rw [toList_line_of_numeric hnumeric, List.forall_mem_cons, List.forall_mem_cons]
    exact ⟨hletter, hspace, fun c hc => endsLine_of_visible (Numeral.isBlank_of_mem_toString hc)⟩
  · by_cases hreplace : i.opcode = .replace
    · rw [toList_line_of_replace hreplace, List.forall_mem_cons, List.forall_mem_cons]
      exact ⟨hletter, hspace, h⟩
    · rw [toList_line_of_plain hnumeric hreplace]
      simpa using hletter

theorem line_ne_nil (i : Instruction) : i.line.toList ≠ [] := by
  by_cases hnumeric : i.opcode.isNumeric = true
  · rw [toList_line_of_numeric hnumeric]
    exact List.cons_ne_nil _ _
  · by_cases hreplace : i.opcode = .replace
    · rw [toList_line_of_replace hreplace]
      exact List.cons_ne_nil _ _
    · rw [toList_line_of_plain hnumeric hreplace]
      exact List.cons_ne_nil _ _

end Instruction

namespace Program

variable {source : String} {limit : Int} {line count : Nat} {lines : List (List Char)}
  {instructions : List Instruction} {p : Program}

theorem lines_of_written (h : p.Written) :
    p.lines = .ok (p.instructions.map Instruction.line) := by
  obtain ⟨instructions⟩ := p
  rw [Program.lines]
  induction instructions with
  | nil => rfl
  | cons i rest ih =>
      obtain ⟨hi, hrest⟩ := List.forall_mem_cons.mp h
      rw [List.mapM_cons, Instruction.text_of_writable hi]
      exact congrArg (Functor.map (i.line :: ·)) (ih hrest)

/-- What has been decoded is decoded again from its lines, wherever they stand. -/
theorem decodeFrom_lines (h : decodeFrom source limit line count lines = .ok instructions)
    (source' : String) (line' : Nat) :
    decodeFrom source' limit line' count (instructions.map fun i => i.line.toList) =
      .ok instructions := by
  induction lines generalizing line count instructions line' with
  | nil =>
      cases h
      rfl
  | cons raw rest ih =>
      obtain ⟨_, hrest⟩ | ⟨i, later, hi, hroom, hrest, rfl⟩ := decodeFrom_cons_ok_iff.mp h
      · exact ih hrest line'
      · have hline := Instruction.ofLine_line (Instruction.lined_of_ofLine hi) source' line'
        exact decodeFrom_cons_ok_iff.mpr (.inr ⟨i, later, hline, hroom, ih hrest _, rfl⟩)

theorem unbroken_of_decodeFrom (hlines : ∀ raw ∈ lines, ∀ c ∈ raw, Text.endsLine c = false)
    (h : decodeFrom source limit line count lines = .ok instructions) :
    ∀ i ∈ instructions, i.Unbroken := by
  induction lines generalizing line count instructions with
  | nil =>
      cases h
      exact List.forall_mem_nil _
  | cons raw rest ih =>
      rw [List.forall_mem_cons] at hlines
      obtain ⟨_, hrest⟩ | ⟨i, later, hi, _, hrest, rfl⟩ := decodeFrom_cons_ok_iff.mp h
      · exact ih hlines.2 hrest
      · exact List.forall_mem_cons.mpr
          ⟨Instruction.unbroken_of_ofLine hlines.1 hi, ih hlines.2 hrest⟩

theorem decode_lines (h : decode lines source limit = .ok p) (source' : String) :
    decode (p.instructions.map fun i => i.line.toList) source' limit = .ok p :=
  decode_eq_ok_iff.mpr (decodeFrom_lines (decode_eq_ok_iff.mp h) source' 1)

end Program

namespace Loader

variable {loader : Loader} {files : FileView} {name : String} {p : Program}

theorem load_eq_ok_iff : loader.load files name = .ok p ↔
    (loader.resolve name).hasNull = false ∧ ∃ bytes text,
      files (loader.resolve name) = .ok bytes ∧ Utf8.decode bytes = .ok text ∧
        Program.decode (Text.lines (Text.unifyNewlines text)) name loader.limit = .ok p := by
  unfold load
  dsimp only
  split
  · next hnull => simp [hnull]
  · next hnull =>
    rw [and_iff_right (by simpa using hnull)]
    cases files (loader.resolve name) with
    | error fault => simp
    | ok bytes =>
        dsimp only
        cases hutf : Utf8.decode bytes with
        | error fault => simp [hutf]
        | ok text => simp [hutf]

theorem unbroken_of_load (h : loader.load files name = .ok p) :
    ∀ i ∈ p.instructions, i.Unbroken := by
  obtain ⟨_, bytes, text, _, _, hdecode⟩ := load_eq_ok_iff.mp h
  exact Program.unbroken_of_decodeFrom (fun raw hraw => Text.endsLine_of_mem_lines hraw)
    (Program.decode_eq_ok_iff.mp hdecode)

/-- The file that holds the lines of a loaded program holds the program. -/
theorem load_listing (h : loader.load files name = .ok p) {copy : Loader} {others : FileView}
    {copyName : String} (hlimit : copy.limit = loader.limit)
    (hname : (copy.resolve copyName).hasNull = false)
    (hfile : others (copy.resolve copyName) =
      .ok ("\n".intercalate (p.instructions.map Instruction.line)).toUTF8.data.toList) :
    copy.load others copyName = .ok p := by
  obtain ⟨_, bytes, text, _, _, hdecode⟩ := load_eq_ok_iff.mp h
  have hlines : ∀ raw ∈ p.instructions.map fun i => i.line.toList,
      raw ≠ [] ∧ ∀ c ∈ raw, Text.endsLine c = false := by
    rw [List.forall_mem_map]
    exact fun i hi => ⟨i.line_ne_nil, Instruction.endsLine_of_mem_line (unbroken_of_load h i hi)⟩
  have hchars : ("\n".intercalate (p.instructions.map Instruction.line)).toList =
      ['\n'].intercalate (p.instructions.map fun i => i.line.toList) := by
    rw [String.toList_intercalate, List.map_map]
    rfl
  have hreturn : '\r' ∉ ['\n'].intercalate (p.instructions.map fun i => i.line.toList) := by
    intro hmem
    obtain hfeed | ⟨raw, hraw, hc⟩ := Text.mem_intercalate hmem
    · exact absurd hfeed (by decide)
    · exact absurd ((hlines raw hraw).2 _ hc) (by decide)
  refine load_eq_ok_iff.mpr ⟨hname, _, _, hfile, Utf8.decode_toUTF8 _, ?_⟩
  rw [hchars, Text.unifyNewlines_of_not_mem hreturn, Text.lines_intercalate hlines, hlimit]
  exact Program.decode_lines hdecode copyName

end Loader

namespace Program

/-- A decoded program is decoded from its lines, and a loaded one is loaded from a file that
holds nothing else, with the same limit. -/
theorem restored_from_lines :
    (∀ {lines : List (List Char)} {source : String} {limit : Int} {p : Program},
      decode lines source limit = .ok p → ∃ texts, p.lines = .ok texts ∧
        ∀ source', decode (texts.map String.toList) source' limit = .ok p) ∧
    ∀ {loader : Loader} {files : FileView} {name : String} {p : Program},
      loader.load files name = .ok p → ∃ texts, p.lines = .ok texts ∧
        ∀ (copy : Loader) (others : FileView) (copyName : String),
          copy.limit = loader.limit → (copy.resolve copyName).hasNull = false →
          others (copy.resolve copyName) = .ok ("\n".intercalate texts).toUTF8.data.toList →
          copy.load others copyName = .ok p := by
  constructor
  · intro lines source limit p h
    refine ⟨_, lines_of_written (written_of_decode h), fun source' => ?_⟩
    rw [List.map_map]
    exact decode_lines h source'
  · intro loader files name p h
    refine ⟨_, lines_of_written (Loader.written_of_load h), ?_⟩
    intro copy others copyName hlimit hname hfile
    exact Loader.load_listing h hlimit hname hfile

/-- A text with blanks around its instructions, a letter that shares its capital with another
and digits of two scripts. -/
def accents : String :=
  " r  été.txt \r\n\r\nſ+٠7 x"

def accentsProgram : Program where
  instructions := [{ opcode := .replace, path := "été.txt" }, { opcode := .set, number := 7 }]

theorem restored_from_lines_accents :
    decode [" r  été.txt ".toList, [], "ſ+٠7 x".toList] defaultSource 2 = .ok accentsProgram ∧
      Loader.load { limit := 2 } (fun _ => .ok accents.toUTF8.data.toList) "p.txt" =
        .ok accentsProgram ∧
      ∃ texts, accentsProgram.lines = .ok texts ∧
        decode (texts.map String.toList) "copy" 2 = .ok accentsProgram ∧
        Loader.load { limit := 2 } (fun _ => .ok ("\n".intercalate texts).toUTF8.data.toList)
          "copy.txt" = .ok accentsProgram := by
  have hdecode : decode [" r  été.txt ".toList, [], "ſ+٠7 x".toList] defaultSource 2 =
      .ok accentsProgram := by decide +kernel
  have hload : Loader.load { limit := 2 } (fun _ => .ok accents.toUTF8.data.toList) "p.txt" =
      .ok accentsProgram := by decide +kernel
  obtain ⟨texts, htexts, hagain⟩ := restored_from_lines.1 hdecode
  obtain ⟨texts', htexts', hcopy⟩ := restored_from_lines.2 hload
  rw [htexts] at htexts'
  cases htexts'
  exact ⟨hdecode, hload, texts, htexts, hagain "copy",
    hcopy { limit := 2 } _ "copy.txt" rfl (by decide +kernel) rfl⟩

end Program
end Uniproc
