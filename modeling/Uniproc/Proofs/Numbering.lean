import Uniproc.Proofs.Grammar

/-!
The numbers of lines. A text is cut into lines at the ends that an editor knows and at some other
characters, such as a form feed, behind which an editor goes on in the same line. So the number that
comes with a bad instruction is that of its line in an editor just if there are none of these before
it, and else it is greater.
-/

namespace Uniproc

namespace Text

/-- How often a text breaks, where a carriage return and the line feed behind it are one break. -/
def countBreaks (breaks : Char → Bool) : List Char → Nat
  | [] => 0
  | '\r' :: '\n' :: rest => countBreaks breaks rest + 1
  | c :: rest => countBreaks breaks rest + if breaks c then 1 else 0

/-- How many lines have ended in an editor. -/
def editorBreaks (s : List Char) : Nat :=
  countBreaks (fun c => c = '\n' || c = '\r') s

/-- A line ends at this character, but not in an editor. -/
def endsUnseen (c : Char) : Bool :=
  endsLine c && c ≠ '\n' && c ≠ '\r'

/-- A line ends with `stop`, in front of `rest`. -/
inductive Stops : List Char → List Char → Prop
  | pair (rest : List Char) : Stops ['\r', '\n'] rest
  | single {c : Char} {rest : List Char} (hends : endsLine c = true)
      (hsingle : ∀ after, c = '\r' → rest ≠ '\n' :: after) : Stops [c] rest

variable {c : Char} {s rest stop line : List Char} {earlier later : List (List Char)}

theorem countBreaks_endsLine (s : List Char) :
    countBreaks endsLine s = editorBreaks s + s.countP endsUnseen := by
  unfold editorBreaks
  fun_induction countBreaks endsLine s with
  | case1 => rfl
  | case2 rest ih =>
      have hpair : ('\r' :: '\n' :: rest).countP endsUnseen = rest.countP endsUnseen := rfl
      rw [countBreaks, ih, hpair]
      omega
  | case3 c rest hsingle ih =>
      have hone : (if endsLine c = true then 1 else 0) =
          (if (decide (c = '\n') || decide (c = '\r')) = true then 1 else 0) +
            if endsUnseen c = true then 1 else 0 := by
        by_cases hfeed : c = '\n'
        · subst hfeed
          rfl
        · by_cases hreturn : c = '\r'
          · subst hreturn
            rfl
          · simp [endsUnseen, hfeed, hreturn]
      rw [countBreaks, ih, List.countP_cons, hone]
      · omega
      · exact hsingle

theorem exists_stop (hends : endsLine c = true) (rest : List Char) :
    ∃ stop after, c :: rest = stop ++ after ∧ Stops stop after := by
  by_cases hpair : ∃ after, c = '\r' ∧ rest = '\n' :: after
  · obtain ⟨after, rfl, rfl⟩ := hpair
    exact ⟨['\r', '\n'], after, rfl, .pair after⟩
  · exact ⟨[c], rest, rfl, .single hends fun after hreturn hfeed => hpair ⟨after, hreturn, hfeed⟩⟩

theorem Stops.linesFrom_eq (h : Stops stop rest) (current : List Char) :
    linesFrom current (stop ++ rest) = current.reverse :: lines rest := by
  cases h with
  | pair => rfl
  | @single c _ hends hsingle =>
      rw [List.singleton_append, linesFrom, if_pos hends]
      · rfl
      · exact hsingle

theorem Stops.countBreaks_eq (h : Stops stop rest) :
    countBreaks endsLine (stop ++ rest) = countBreaks endsLine rest + 1 := by
  cases h with
  | pair => rfl
  | @single c _ hends hsingle =>
      rw [List.singleton_append, countBreaks, if_pos hends]
      exact hsingle

theorem Stops.of_append {t : List Char} (h : Stops stop (s ++ t)) : Stops stop s := by
  cases h with
  | pair => exact .pair s
  | single hends hsingle =>
      refine .single hends fun after hreturn hfeed => hsingle (after ++ t) hreturn ?_
      rw [hfeed, List.cons_append]

theorem Stops.append {t : List Char} (h : Stops stop s) (ht : t.head? ≠ some '\n') :
    Stops stop (s ++ t) := by
  cases h with
  | pair => exact .pair (s ++ t)
  | single hends hsingle =>
      refine .single hends fun after hreturn hfeed => ?_
      obtain ⟨_, rfl⟩ | ⟨after, rfl, _⟩ := List.append_eq_cons_iff.mp hfeed
      · exact ht rfl
      · exact hsingle after hreturn rfl

theorem Stops.endsLine_of_head? (h : Stops stop rest) (hc : (stop ++ s).head? = some c) :
    endsLine c = true := by
  cases h with
  | pair =>
      cases hc
      rfl
  | single hends =>
      cases hc
      exact hends

theorem Stops.endsLine_of_getLast? (h : Stops stop rest) (hc : (s ++ stop).getLast? = some c) :
    endsLine c = true := by
  cases h with
  | pair =>
      rw [List.append_cons, List.getLast?_concat] at hc
      cases hc
      rfl
  | single hends =>
      rw [List.getLast?_concat] at hc
      cases hc
      exact hends

/-- Reading a file makes other line ends of some, but no other lines. -/
theorem linesFrom_unifyNewlines (current s : List Char) :
    linesFrom current (unifyNewlines s) = linesFrom current s := by
  fun_induction unifyNewlines s generalizing current with
  | case1 => rfl
  | case2 rest ih =>
      have hfeed : Stops ['\n'] (unifyNewlines rest) := .single rfl (by simp)
      exact (hfeed.linesFrom_eq current).trans (congrArg (current.reverse :: ·) (ih []))
  | case3 c rest hsingle ih =>
      by_cases hends : endsLine c = true
      · have hstop : Stops [c] rest := .single hends hsingle
        have hunified : Stops [if c = '\r' then '\n' else c] (unifyNewlines rest) := by
          split
          · exact .single rfl (by simp)
          · next hreturn => exact .single hends fun _ heq => absurd heq hreturn
        exact (hunified.linesFrom_eq current).trans
          ((congrArg (current.reverse :: ·) (ih [])).trans (hstop.linesFrom_eq current).symm)
      · have hreturn : c ≠ '\r' := by
          rintro rfl
          exact hends rfl
        have hplain : ∀ d ∈ [c], endsLine d = false := by simpa using hends
        rw [if_neg hreturn]
        exact (linesFrom_append hplain _).trans ((ih _).trans (linesFrom_append hplain rest).symm)

theorem lines_unifyNewlines (s : List Char) : lines (unifyNewlines s) = lines s :=
  linesFrom_unifyNewlines [] s

theorem countBreaks_unbroken_append (h : ∀ c ∈ line, endsLine c = false) (s : List Char) :
    countBreaks endsLine (line ++ s) = countBreaks endsLine s := by
  induction line with
  | nil => rfl
  | cons c rest ih =>
      rw [List.forall_mem_cons] at h
      rw [List.cons_append, countBreaks, h.1, ih h.2]
      · rfl
      · rintro tail rfl
        cases h.1

theorem countBreaks_append_unbroken (s : List Char) (h : ∀ c ∈ line, endsLine c = false) :
    countBreaks endsLine (s ++ line) = countBreaks endsLine s := by
  fun_induction countBreaks endsLine s with
  | case1 =>
      rw [List.nil_append, ← List.append_nil line, countBreaks_unbroken_append h, countBreaks]
  | case2 rest ih => exact congrArg (· + 1) ih
  | case3 c rest hsingle ih =>
      rw [List.cons_append, countBreaks, ih]
      rintro tail rfl hfeed
      -- the line feed would be in `rest` or at the front of `line`
      obtain ⟨_, rfl⟩ | ⟨tail, rfl, _⟩ := List.append_eq_cons_iff.mp hfeed
      · exact absurd (h '\n' List.mem_cons_self) (by decide)
      · exact hsingle tail rfl rfl

/-- The first line of a text goes to its end, or to where a line ends. -/
theorem linesFrom_eq_cons {current : List Char} (h : linesFrom current s = line :: later) :
    ∃ more, line = current.reverse ++ more ∧ (∀ c ∈ more, endsLine c = false) ∧
      ((s = more ∧ later = []) ∨
        ∃ stop rest, s = more ++ (stop ++ rest) ∧ Stops stop rest ∧ later = lines rest) := by
  fun_induction linesFrom current s with
  | case1 => cases h
  | case2 =>
      cases h
      exact ⟨[], (List.append_nil _).symm, List.forall_mem_nil _, .inl ⟨rfl, rfl⟩⟩
  | case3 current rest =>
      cases h
      exact ⟨[], (List.append_nil _).symm, List.forall_mem_nil _,
        .inr ⟨_, rest, rfl, .pair rest, rfl⟩⟩
  | case4 current c rest hsingle hends =>
      cases h
      exact ⟨[], (List.append_nil _).symm, List.forall_mem_nil _,
        .inr ⟨_, rest, rfl, .single hends hsingle, rfl⟩⟩
  | case5 current c rest _ hends ih =>
      obtain ⟨more, hline, hmore, hs⟩ := ih h
      refine ⟨c :: more, ?_, List.forall_mem_cons.mpr ⟨by simpa using hends, hmore⟩, ?_⟩
      · rw [hline, List.reverse_cons, List.append_assoc, List.singleton_append]
      · refine hs.imp (fun hlast => ⟨congrArg _ hlast.1, hlast.2⟩) ?_
        rintro ⟨stop, after, rfl, hstop, hlater⟩
        exact ⟨stop, after, rfl, hstop, hlater⟩

theorem lines_unbroken_append_stop (hline : ∀ c ∈ line, endsLine c = false)
    (hstop : Stops stop rest) : lines (line ++ (stop ++ rest)) = line :: lines rest := by
  rw [lines, linesFrom_append hline, hstop.linesFrom_eq, List.append_nil, List.reverse_reverse]

/-- Where a line of a text is: behind the end of the line before it, and in front of its own end. -/
theorem exists_split_of_lines (h : lines s = earlier ++ line :: later) :
    ∃ before rest, s = before ++ (line ++ rest) ∧ lines before = earlier ∧
      (∀ c, before.getLast? = some c → endsLine c = true) ∧
      ∀ c, rest.head? = some c → endsLine c = true := by
  induction earlier generalizing s with
  | nil =>
      obtain ⟨more, rfl, _, ⟨rfl, _⟩ | ⟨stop, rest, rfl, hstop, _⟩⟩ := linesFrom_eq_cons h
      · exact ⟨[], [], by simp, rfl, nofun, nofun⟩
      · exact ⟨[], stop ++ rest, rfl, rfl, nofun, fun _ hc => hstop.endsLine_of_head? hc⟩
  | cons first earlier ih =>
      obtain ⟨more, rfl, hmore, ⟨_, hnil⟩ | ⟨stop, after, rfl, hstop, hlines⟩⟩ := linesFrom_eq_cons h
      · simp at hnil
      · obtain ⟨before, rest, rfl, hbefore, hlast, hrest⟩ := ih hlines.symm
        refine ⟨first ++ (stop ++ before), rest, by simp only [List.append_assoc], ?_, ?_, hrest⟩
        · exact (lines_unbroken_append_stop hmore hstop.of_append).trans (congrArg _ hbefore)
        · intro c hc
          by_cases hempty : before = []
          · subst hempty
            rw [List.append_nil] at hc
            exact hstop.endsLine_of_getLast? hc
          · rw [← List.append_assoc, List.getLast?_append_of_ne_nil _ hempty] at hc
            exact hlast c hc

theorem linesFrom_ne_nil {current : List Char} (h : current ++ s ≠ []) :
    linesFrom current s ≠ [] := by
  fun_induction linesFrom current s with
  | case1 current hempty => exact absurd (List.isEmpty_iff.mp hempty) (by simpa using h)
  | case2 | case3 | case4 => exact List.cons_ne_nil _ _
  | case5 current c rest _ _ ih => exact ih (List.cons_ne_nil _ _)

/-- An induction over the lines of a text that is empty or ends with a line end. -/
@[elab_as_elim]
theorem ended_induction {motive : List Char → Prop} (nil : motive [])
    (line : ∀ line stop rest, (∀ c ∈ line, endsLine c = false) → Stops stop rest →
      motive rest → motive (line ++ (stop ++ rest)))
    (s : List Char) (h : ∀ c, s.getLast? = some c → endsLine c = true) : motive s := by
  generalize hlines : lines s = all
  induction all generalizing s with
  | nil =>
      have hempty : s = [] :=
        by_contra fun hne => linesFrom_ne_nil (List.append_ne_nil_of_right_ne_nil [] hne) hlines
      rwa [hempty]
  | cons first later ih =>
      obtain ⟨more, -, hmore, ⟨rfl, _⟩ | ⟨stop, rest, rfl, hstop, rfl⟩⟩ := linesFrom_eq_cons hlines
      · -- what no line end is behind is empty
        cases hlast : s.getLast? with
        | none => rwa [List.getLast?_eq_none_iff.mp hlast]
        | some c =>
            have hends : endsLine c = false := hmore c (List.mem_of_getLast? hlast)
            exact absurd (h c hlast) (by simp [hends])
      · refine line more stop rest hmore hstop (ih rest (fun c hc => h c ?_) rfl)
        have hrest : rest ≠ [] := by
          rintro rfl
          cases hc
        rwa [← List.append_assoc, List.getLast?_append_of_ne_nil _ hrest]

theorem lines_append (h : ∀ c, s.getLast? = some c → endsLine c = true) {t : List Char}
    (ht : t.head? ≠ some '\n') : lines (s ++ t) = lines s ++ lines t := by
  refine ended_induction rfl (fun line stop rest hline hstop ih => ?_) s h
  rw [List.append_assoc, List.append_assoc, lines_unbroken_append_stop hline (hstop.append ht),
    lines_unbroken_append_stop hline hstop, ih, List.cons_append]

theorem length_lines (h : ∀ c, s.getLast? = some c → endsLine c = true) :
    (lines s).length = countBreaks endsLine s := by
  refine ended_induction rfl (fun line stop rest hline hstop ih => ?_) s h
  rw [lines_unbroken_append_stop hline hstop, countBreaks_unbroken_append hline,
    hstop.countBreaks_eq, ← ih, List.length_cons]

theorem exists_lines_append (hne : line ≠ []) (hline : ∀ c ∈ line, endsLine c = false)
    (hs : ∀ c, s.head? = some c → endsLine c = true) :
    ∃ later, lines (line ++ s) = line :: later := by
  cases s with
  | nil => exact ⟨[], (List.append_nil line).symm ▸ linesFrom_of_unbroken hline hne⟩
  | cons c rest =>
      obtain ⟨stop, after, heq, hstop⟩ := exists_stop (hs c rfl) rest
      exact ⟨lines after, heq ▸ lines_unbroken_append_stop hline hstop⟩

end Text

/-- The number of the line that a failure to load is about. -/
def LoadError.line? : LoadError → Option Nat
  | .invalidOperation _ line _ | .missingArgument line _ => some line
  | _ => none

namespace Line

variable {raw blanks : List Char} {source : String} {line : Nat} {cause : LoadError}
  {i? : Option Instruction}

theorem bad_append_of_blank (h : ∀ c ∈ blanks, Text.isBlank c = true) :
    Bad (blanks ++ raw) ↔ Bad raw := by
  simp only [Bad, Unknown, Bare, Blank, code, argument, Text.strip_append_of_blank h]

theorem good_of_ofLine (h : Instruction.ofLine source line raw = .ok i?) : ¬ Bad raw := by
  have hshort : ¬ Instruction.Overlong raw := by
    intro hlong
    obtain ⟨_, hfault, _⟩ : ∃ fault, Instruction.ofLine source line raw = .error fault ∧
        fault.Escapes := Instruction.escapes_ofLine_iff.mpr hlong
    cases h.symm.trans hfault
  have hread := read hshort source line
  rw [h] at hread
  cases hread with
  | blank hblank => exact not_bad_of_blank hblank
  | instruction hgood => exact hgood

theorem bad_of_ofLine (h : Instruction.ofLine source line raw = .error (.load cause)) :
    Bad raw ∧ cause.line? = some line := by
  have hshort : ¬ Instruction.Overlong raw := by
    intro hlong
    obtain ⟨_, hfault, hescapes⟩ : ∃ fault, Instruction.ofLine source line raw = .error fault ∧
        fault.Escapes := Instruction.escapes_ofLine_iff.mpr hlong
    cases h.symm.trans hfault
    exact Fault.not_escapes_load cause hescapes
  have hread := read hshort source line
  rw [h] at hread
  cases hread with
  | unknown hunknown => exact ⟨.inl hunknown, rfl⟩
  | bare hbare => exact ⟨.inr hbare, rfl⟩

end Line

namespace Program

/-- The first bad instruction of a text, from its first character on up to the end of its line. -/
structure Offence (text : List Char) where
  /-- The lines before. -/
  earlier : List Char
  blanks : List Char
  instruction : List Char
  later : List Char
  text_eq : text = earlier ++ (blanks ++ instruction ++ later)
  earlier_ends : ∀ c, earlier.getLast? = some c → Text.endsLine c = true
  good : ∀ raw ∈ Text.lines earlier, ¬ Line.Bad raw
  blank : ∀ c ∈ blanks, Text.isBlank c = true
  visible : ∀ c, instruction.head? = some c → Text.isBlank c = false
  unbroken : ∀ c ∈ blanks ++ instruction, Text.endsLine c = false
  later_ends : ∀ c, later.head? = some c → Text.endsLine c = true
  bad : Line.Bad instruction

/-- What is before the first character of the instruction. -/
def Offence.before {text : List Char} (o : Offence text) : List Char :=
  o.earlier ++ o.blanks

variable {source : String} {limit : Int} {line count n : Nat} {text : List Char}
  {lines : List (List Char)} {instructions : List Instruction} {fault : Fault}

theorem good_of_decodeFrom (h : decodeFrom source limit line count lines = .ok instructions) :
    ∀ raw ∈ lines, ¬ Line.Bad raw := by
  induction lines generalizing line count instructions with
  | nil => exact List.forall_mem_nil _
  | cons raw rest ih =>
      rw [List.forall_mem_cons]
      obtain ⟨hline, hrest⟩ | ⟨i, after, hline, _, hrest, _⟩ := decodeFrom_cons_ok_iff.mp h
      · exact ⟨Line.good_of_ofLine hline, ih hrest⟩
      · exact ⟨Line.good_of_ofLine hline, ih hrest⟩

theorem line?_ofTooLong (limit : Int) (source : String) {cause : LoadError}
    (h : Fault.ofTooLong limit source = .load cause) : cause.line? = none := by
  unfold Fault.ofTooLong at h
  split at h <;> cases h
  rfl

theorem Offence.lines_eq (o : Offence text) :
    ∃ later, Text.lines text = Text.lines o.earlier ++ (o.blanks ++ o.instruction) :: later := by
  have hne : o.blanks ++ o.instruction ≠ [] := by
    intro hempty
    have hblank : Line.Blank o.instruction := (List.append_eq_nil_iff.mp hempty).2 ▸ rfl
    exact Line.not_bad_of_blank hblank o.bad
  have hfeed : (o.blanks ++ o.instruction ++ o.later).head? ≠ some '\n' := by
    rw [List.head?_append_of_ne_nil _ hne]
    intro hhead
    exact absurd (o.unbroken '\n' (List.mem_of_head? hhead)) (by decide)
  obtain ⟨later, hlater⟩ := Text.exists_lines_append hne o.unbroken o.later_ends
  exact ⟨later, by rw [← hlater, ← Text.lines_append o.earlier_ends hfeed, ← o.text_eq]⟩

theorem Offence.length_earlier (o : Offence text) :
    (Text.lines o.earlier).length = Text.countBreaks Text.endsLine o.before := by
  have hblanks : ∀ c ∈ o.blanks, Text.endsLine c = false :=
    fun c hc => o.unbroken c (List.mem_append_left _ hc)
  rw [before, Text.countBreaks_append_unbroken _ hblanks, Text.length_lines o.earlier_ends]

theorem exists_offence {earlier later : List (List Char)} {raw : List Char}
    (hlines : Text.lines text = earlier ++ raw :: later)
    (hgood : ∀ line ∈ earlier, ¬ Line.Bad line) (hbad : Line.Bad raw) : Nonempty (Offence text) := by
  obtain ⟨before, rest, htext, rfl, hlast, hrest⟩ := Text.exists_split_of_lines hlines
  have hunbroken : ∀ c ∈ raw, Text.endsLine c = false :=
    Text.endsLine_of_mem_lines (hlines ▸ List.mem_append_right _ List.mem_cons_self)
  have hsplit := List.takeWhile_append_dropWhile (p := Text.isBlank) (l := raw)
  have hblank : ∀ c ∈ raw.takeWhile Text.isBlank, Text.isBlank c = true :=
    fun c hc => List.mem_takeWhile_imp hc
  refine ⟨
    { earlier := before
      blanks := raw.takeWhile Text.isBlank
      instruction := raw.dropWhile Text.isBlank
      later := rest
      text_eq := by rw [hsplit, htext]
      earlier_ends := hlast
      good := hgood
      blank := hblank
      visible := fun c hc => ?_
      unbroken := by rwa [hsplit]
      later_ends := hrest
      bad := by rwa [← Line.bad_append_of_blank hblank, hsplit] }⟩
  have hnot := List.head?_dropWhile_not Text.isBlank raw
  rw [hc] at hnot
  simpa using hnot

theorem eq_nil_of_first {P : List Char → Prop} {raw raw' : List Char}
    {between later later' : List (List Char)} (heq : raw :: later = between ++ raw' :: later')
    (hraw : P raw) (hbetween : ∀ line ∈ between, ¬ P line) : between = [] := by
  cases between with
  | nil => rfl
  | cons line rest =>
      cases heq
      exact absurd hraw (hbetween raw List.mem_cons_self)

/-- Only one line is the first of those that are bad. -/
theorem earlier_eq_of_first {P : List Char → Prop} {raw raw' : List Char}
    {earlier later earlier' later' : List (List Char)}
    (heq : earlier ++ raw :: later = earlier' ++ raw' :: later')
    (hgood : ∀ line ∈ earlier, ¬ P line) (hraw : P raw)
    (hgood' : ∀ line ∈ earlier', ¬ P line) (hraw' : P raw') : earlier = earlier' := by
  obtain ⟨between, rfl, hrest⟩ | ⟨between, rfl, hrest⟩ := List.append_eq_append_iff.mp heq
  · have hnil : between = [] :=
      eq_nil_of_first hrest hraw fun line hline => hgood' line (List.mem_append_right _ hline)
    rw [hnil, List.append_nil]
  · have hnil : between = [] :=
      eq_nil_of_first hrest hraw' fun line hline => hgood line (List.mem_append_right _ hline)
    rw [hnil, List.append_nil]

/-- The number of a line is one more than the number of the line ends before its instruction. -/
theorem offence_of_decode {cause : LoadError}
    (h : decode (Text.lines text) source limit = .error (.load cause))
    (hline : cause.line? = some n) :
    Nonempty (Offence text) ∧
      ∀ o : Offence text, n = 1 + Text.countBreaks Text.endsLine o.before := by
  obtain ⟨earlier, raw, later, instructions, hlines, hok, hbad | ⟨_, _, hlong⟩⟩ :=
    decodeFrom_error_iff.mp (decode_eq_error_iff.mp h)
  · obtain ⟨hraw, hnumber⟩ := Line.bad_of_ofLine hbad
    obtain rfl : n = 1 + earlier.length := Option.some.inj (hline.symm.trans hnumber)
    have hgood := good_of_decodeFrom hok
    refine ⟨exists_offence hlines hgood hraw, fun o => ?_⟩
    obtain ⟨rest, ho⟩ := o.lines_eq
    have hbad : Line.Bad (o.blanks ++ o.instruction) := (Line.bad_append_of_blank o.blank).mpr o.bad
    rw [earlier_eq_of_first (hlines.symm.trans ho) hgood hraw o.good hbad, o.length_earlier]
  · rw [line?_ofTooLong limit source hlong] at hline
    cases hline

end Program

/-- Where loading a file fails for a bad instruction, the number that is given is that of its line in
an editor, and one more for each character before it that ends a line unseen. -/
theorem Loader.line_eq_of_load {loader : Loader} {files : FileView} {name : String}
    {cause : LoadError} {n : Nat} (h : loader.load files name = .error (.load cause))
    (hline : cause.line? = some n) :
    ∃ bytes text, files (loader.resolve name) = .ok bytes ∧ Utf8.decode bytes = .ok text ∧
      Nonempty (Program.Offence text) ∧ ∀ o : Program.Offence text,
        n = 1 + Text.editorBreaks o.before + o.before.countP Text.endsUnseen ∧
        (n = 1 + Text.editorBreaks o.before ↔ ∀ c ∈ o.before, Text.endsUnseen c = false) := by
  unfold load at h
  dsimp only at h
  split at h
  · cases h
  · split at h
    · cases h
      cases hline
    · next bytes hbytes =>
      split at h
      · cases h
        cases hline
      · next text htext =>
        rw [Text.lines_unifyNewlines] at h
        obtain ⟨hoffence, hnumber⟩ := Program.offence_of_decode h hline
        refine ⟨bytes, text, hbytes, htext, hoffence, fun o => ?_⟩
        have hn := hnumber o
        rw [Text.countBreaks_endsLine] at hn
        refine ⟨by omega, ?_⟩
        have hnone : o.before.countP Text.endsUnseen = 0 ↔
            ∀ c ∈ o.before, Text.endsUnseen c = false := by
          rw [List.countP_eq_zero]
          simp only [Bool.not_eq_true]
        rw [← hnone]
        omega

namespace Loader

/-- A text with a form feed in front of its second line, as an editor shows it. -/
def pageText : List Char :=
  ['S', '1', '\n', '\x0c', 'Z', '\n']

def pageFiles : FileView :=
  fun _ => .ok (String.ofList pageText).toUTF8.data.toList

/-- The bad instruction of this text is behind the form feed. -/
def pageOffence : Program.Offence pageText where
  earlier := ['S', '1', '\n', '\x0c']
  blanks := []
  instruction := ['Z']
  later := ['\n']
  text_eq := rfl
  earlier_ends := by
    rintro c ⟨⟩
    rfl
  good := by
    have hgood : Program.decodeFrom "p.txt" 1 1 0 (Text.lines ['S', '1', '\n', '\x0c']) =
        .ok [⟨.set, 1, ""⟩] := by decide +kernel
    exact Program.good_of_decodeFrom hgood
  blank := List.forall_mem_nil _
  visible := by
    rintro c ⟨⟩
    rfl
  unbroken := List.forall_mem_singleton.mpr rfl
  later_ends := by
    rintro c ⟨⟩
    rfl
  bad := by
    have hbad : Instruction.ofLine "p.txt" 3 ['Z'] =
        .error (.load (.invalidOperation "Z" 3 "p.txt")) := by decide +kernel
    exact (Line.bad_of_ofLine hbad).1

theorem load_pageFiles : ({} : Loader).load pageFiles "p.txt" =
    .error (.load (.invalidOperation "Z" 3 "p.txt")) := by
  decide +kernel

theorem line_eq_of_load_pageFiles :
    ({} : Loader).load pageFiles "p.txt" =
      .error (.load (.invalidOperation "Z" 3 "p.txt")) ∧
    (LoadError.invalidOperation "Z" 3 "p.txt").line? = some 3 ∧
    ∃ bytes text, pageFiles (({} : Loader).resolve "p.txt") = .ok bytes ∧
      Utf8.decode bytes = .ok text ∧
      Nonempty (Program.Offence text) ∧ ∀ o : Program.Offence text,
        3 = 1 + Text.editorBreaks o.before + o.before.countP Text.endsUnseen ∧
        (3 = 1 + Text.editorBreaks o.before ↔ ∀ c ∈ o.before, Text.endsUnseen c = false) :=
  ⟨load_pageFiles, rfl, line_eq_of_load load_pageFiles rfl⟩

/-- In an editor it is on the second line. -/
theorem exists_load_misnumbered :
    ({} : Loader).load pageFiles "p.txt" = .error (.load (.invalidOperation "Z" 3 "p.txt")) ∧
    1 + Text.editorBreaks pageOffence.before = 2 ∧
    ¬ ∀ (loader : Loader) (files : FileView) (name : String) (cause : LoadError) (n : Nat)
      (bytes : List UInt8) (text : List Char) (o : Program.Offence text),
      loader.load files name = .error (.load cause) → cause.line? = some n →
        files (loader.resolve name) = .ok bytes → Utf8.decode bytes = .ok text →
          n = 1 + Text.editorBreaks o.before := by
  have hbreaks : 1 + Text.editorBreaks pageOffence.before = 2 := by decide +kernel
  refine ⟨load_pageFiles, hbreaks, fun h => ?_⟩
  have hthree := h {} pageFiles "p.txt" _ 3 _ pageText pageOffence load_pageFiles rfl rfl
    (by decide +kernel)
  rw [hbreaks] at hthree
  cases hthree

end Loader

end Uniproc
