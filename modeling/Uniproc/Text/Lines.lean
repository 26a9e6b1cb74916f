import Uniproc.Text.Blank

/-!
Lines of a text. Reading a file turns every line end into a line feed; cutting a
text into lines then breaks at line feeds and at the other characters that
Unicode lets end a line or a paragraph.
-/

namespace Uniproc
namespace Text

/-- One line feed for each line end: `\r\n`, `\r` or `\n`. -/
def unifyNewlines : List Char → List Char
  | [] => []
  | '\r' :: '\n' :: rest => '\n' :: unifyNewlines rest
  | c :: rest => (if c = '\r' then '\n' else c) :: unifyNewlines rest

def endsLine (c : Char) : Bool :=
  let n := c.toNat
  (0x0A ≤ n && n ≤ 0x0D) || (0x1C ≤ n && n ≤ 0x1E) || n == 0x85 || n == 0x2028 || n == 0x2029

/-- The lines of a text without their ends. `current` is the line being read,
backwards; a text that ends with a line end has no empty line after it. -/
def linesFrom (current : List Char) : List Char → List (List Char)
  | [] => if current.isEmpty then [] else [current.reverse]
  | '\r' :: '\n' :: rest => current.reverse :: linesFrom [] rest
  | c :: rest =>
    if endsLine c then current.reverse :: linesFrom [] rest
    else linesFrom (c :: current) rest

def lines (s : List Char) : List (List Char) :=
  linesFrom [] s

theorem isBlank_of_endsLine {c : Char} (h : endsLine c = true) : isBlank c = true := by
  simp only [endsLine, isBlank, Bool.or_eq_true, Bool.and_eq_true, decide_eq_true_eq,
    beq_iff_eq] at h ⊢
  omega

theorem unifyNewlines_of_not_mem {s : List Char} (h : '\r' ∉ s) : unifyNewlines s = s := by
  fun_induction unifyNewlines s with
  | case1 => rfl
  | case2 rest _ => exact absurd List.mem_cons_self h
  | case3 c rest _ ih =>
      have hc : c ≠ '\r' := fun heq => h (heq ▸ List.mem_cons_self)
      rw [if_neg hc, ih fun hmem => h (List.mem_cons_of_mem _ hmem)]

theorem unifyNewlines_of_visible {s : List Char} (h : ∀ c ∈ s, isBlank c = false) :
    unifyNewlines s = s :=
  unifyNewlines_of_not_mem fun hmem => absurd (h _ hmem) (by decide)

/-- What no line end interrupts belongs to the line being read. -/
theorem linesFrom_append {current line : List Char} (h : ∀ c ∈ line, endsLine c = false)
    (s : List Char) : linesFrom current (line ++ s) = linesFrom (line.reverse ++ current) s := by
  induction line generalizing current with
  | nil => rfl
  | cons c rest ih =>
      rw [List.forall_mem_cons] at h
      have hne : c ≠ '\r' := by
        rintro rfl
        exact absurd h.1 (by decide)
      rw [List.cons_append, linesFrom, if_neg (by simp [h.1]), ih h.2]
      · simp
      · rintro tail rfl
        exact absurd rfl hne

theorem linesFrom_of_unbroken {current s : List Char} (h : ∀ c ∈ s, endsLine c = false)
    (hne : current ++ s ≠ []) : linesFrom current s = [current.reverse ++ s] := by
  rw [← List.append_nil s, linesFrom_append h, linesFrom, if_neg, List.append_nil]
  · simp
  · simpa [and_comm] using hne

/-- A text without blanks is one line. -/
theorem lines_of_visible {s : List Char} (h : ∀ c ∈ s, isBlank c = false) (hne : s ≠ []) :
    lines s = [s] := by
  refine linesFrom_of_unbroken (fun c hc => Bool.eq_false_iff.mpr fun hends => ?_) hne
  exact Bool.false_ne_true ((h c hc).symm.trans (isBlank_of_endsLine hends))

/-- No line has a line end inside. -/
theorem endsLine_of_mem_linesFrom {current s line : List Char}
    (hcurrent : ∀ c ∈ current, endsLine c = false) (h : line ∈ linesFrom current s) :
    ∀ c ∈ line, endsLine c = false := by
  fun_induction linesFrom current s with
  | case1 current hempty => simp at h
  | case2 current hempty =>
      rw [List.mem_singleton] at h
      simpa [h] using hcurrent
  | case3 current rest ih =>
      obtain rfl | h := List.mem_cons.mp h
      · simpa using hcurrent
      · exact ih (by simp) h
  | case4 current c rest _ hends ih =>
      obtain rfl | h := List.mem_cons.mp h
      · simpa using hcurrent
      · exact ih (by simp) h
  | case5 current c rest _ hends ih =>
      exact ih (List.forall_mem_cons.mpr ⟨by simpa using hends, hcurrent⟩) h

theorem endsLine_of_mem_lines {s line : List Char} (h : line ∈ lines s) :
    ∀ c ∈ line, endsLine c = false :=
  endsLine_of_mem_linesFrom (List.forall_mem_nil _) h

/-- Lines that are joined by line feeds are cut again where they were joined. -/
theorem lines_intercalate {ls : List (List Char)}
    (h : ∀ line ∈ ls, line ≠ [] ∧ ∀ c ∈ line, endsLine c = false) :
    lines (['\n'].intercalate ls) = ls := by
  induction ls with
  | nil => rfl
  | cons line rest ih =>
      rw [List.forall_mem_cons] at h
      obtain ⟨⟨hne, hline⟩, hrest⟩ := h
      cases rest with
      | nil =>
          rw [List.intercalate_singleton]
          exact linesFrom_of_unbroken hline hne
      | cons next rest =>
          have hfeed (t : List Char) : linesFrom line.reverse ('\n' :: t) =
              line :: linesFrom [] t := by
            rw [linesFrom, if_pos (by decide), List.reverse_reverse]
            rintro tail ⟨⟩
          rw [List.intercalate_cons_cons, lines, List.append_assoc, linesFrom_append hline,
            List.append_nil, List.singleton_append, hfeed]
          exact congrArg (line :: ·) (ih hrest)

theorem mem_intercalate {c : Char} {ls : List (List Char)} (h : c ∈ ['\n'].intercalate ls) :
    c = '\n' ∨ ∃ line ∈ ls, c ∈ line := by
  induction ls with
  | nil => cases h
  | cons line rest ih =>
      cases rest with
      | nil =>
          rw [List.intercalate_singleton] at h
          exact .inr ⟨line, List.mem_cons_self, h⟩
      | cons next rest =>
          rw [List.intercalate_cons_cons, List.append_assoc, List.mem_append,
            List.singleton_append, List.mem_cons] at h
          obtain hline | rfl | hrest := h
          · exact .inr ⟨line, List.mem_cons_self, hline⟩
          · exact .inl rfl
          · exact (ih hrest).imp_right fun ⟨l, hl, hc⟩ => ⟨l, List.mem_cons_of_mem _ hl, hc⟩

/-- The lines of a text that only line feeds end, from the line being read on. -/
def feedLinesFrom (current : List Char) : List Char → List (List Char)
  | [] => if current.isEmpty then [] else [current.reverse]
  | c :: rest =>
    if c = '\n' then current.reverse :: feedLinesFrom [] rest
    else feedLinesFrom (c :: current) rest

def feedLines (s : List Char) : List (List Char) :=
  feedLinesFrom [] s

end Text
end Uniproc
