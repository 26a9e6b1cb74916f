import Uniproc.Proofs.Reading

/-!
Where a text holds too much, reading says so, and nowhere else. A value is found with any fuel
that is enough for the length of the text, so that what comes before the excess cannot use up
what is needed to get there.
-/

namespace Uniproc
namespace Json

section

variable {digits fuel depth : Nat} {s rest tail : List Char}

theorem readValue_array (digits fuel depth : Nat) (hfilled : ∀ tail, skipGap rest ≠ ']' :: tail) :
    readValue digits (fuel + 1) (depth + 1) ('[' :: rest) =
      (readItems digits fuel depth (skipGap rest)).map fun r => (.array r.1, r.2) := by
  rw [readValue]
  split
  · next tail hclosed => exact absurd hclosed (hfilled tail)
  · rfl

theorem readValue_object (digits fuel depth : Nat)
    (hfilled : ∀ tail, skipGap rest ≠ '\x7d' :: tail) :
    readValue digits (fuel + 1) (depth + 1) ('\x7b' :: rest) =
      (readMembers digits fuel depth [] (skipGap rest)).map fun r => (.object r.1, r.2) := by
  rw [readValue]
  split
  · next tail hclosed => exact absurd hclosed (hfilled tail)
  · rfl

/-- Fuel matters for arrays and objects only, and only if they are not empty. -/
theorem readValue_cases (digits depth : Nat) (s : List Char) :
    (∃ r, ∀ fuel, readValue digits (fuel + 1) depth s = r) ∨
    (∃ below rest, depth = below + 1 ∧ s = '[' :: rest ∧ ∀ tail, skipGap rest ≠ ']' :: tail) ∨
    ∃ below rest, depth = below + 1 ∧ s = '\x7b' :: rest ∧
      ∀ tail, skipGap rest ≠ '\x7d' :: tail := by
  rw [or_iff_not_imp_left]
  intro hfuel
  by_contra hplain
  rw [not_or] at hplain
  refine hfuel ⟨readValue digits 1 depth s, fun fuel => ?_⟩
  unfold readValue
  dsimp only
  split
  · rfl
  · rfl
  · rfl
  · next rest below =>
    split
    · rfl
    · next hfilled => exact absurd ⟨below, rest, rfl, rfl, hfilled⟩ hplain.1
  · next rest below =>
    split
    · rfl
    · next hfilled => exact absurd ⟨below, rest, rfl, rfl, hfilled⟩ hplain.2
  · rfl

theorem Denotes.suffix {v : Json} (h : Denotes depth s v rest) : rest <:+ s := by
  obtain ⟨fuel, hread⟩ := h
  have hvalue := (bounded fuel).value depth s
  rw [hread] at hvalue
  obtain ⟨_, hsuffix⟩ := hvalue
  exact hsuffix

theorem length_skipGap_lt {c : Char} (h : skipGap s = c :: tail) :
    (skipGap tail).length < s.length := by
  have hgap := (skipGap_suffix s).length_le
  have htail := (skipGap_suffix tail).length_le
  rw [h, List.length_cons] at hgap
  omega

theorem exists_of_map_ok {α β ε : Type} {r : Except ε α} {f : α → β} {b : β}
    (h : r.map f = .ok b) : ∃ a, r = .ok a ∧ f a = b := by
  cases r with
  | error e => cases h
  | ok a => exact ⟨a, rfl, Except.ok.inj h⟩

/-- What has been read with this fuel is read with any that is enough for the text. -/
structure Stable (fuel : Nat) : Prop where
  value {depth : Nat} {s rest : List Char} {v : Json}
    (h : readValue Numeral.digitLimit fuel depth s = .ok (v, rest)) {other : Nat}
    (hother : 2 * s.length < other) :
    readValue Numeral.digitLimit other depth s = .ok (v, rest)
  items {depth : Nat} {s rest : List Char} {items : List Json}
    (h : readItems Numeral.digitLimit fuel depth s = .ok (items, rest)) {other : Nat}
    (hother : 2 * s.length + 1 < other) :
    readItems Numeral.digitLimit other depth s = .ok (items, rest)
  members {depth : Nat} {s rest : List Char} {old members : List (CodePoints × Json)}
    (h : readMembers Numeral.digitLimit fuel depth old s = .ok (members, rest)) {other : Nat}
    (hother : 2 * s.length + 1 < other) :
    readMembers Numeral.digitLimit other depth old s = .ok (members, rest)

theorem Stable.value_succ (ih : Stable fuel) {v : Json}
    (h : readValue Numeral.digitLimit (fuel + 1) depth s = .ok (v, rest)) {other : Nat}
    (hother : 2 * s.length < other) :
    readValue Numeral.digitLimit other depth s = .ok (v, rest) := by
  obtain ⟨other, rfl⟩ := Nat.exists_eq_add_one_of_ne_zero (Nat.ne_zero_of_lt hother)
  obtain ⟨r, hr⟩ | ⟨below, tail, rfl, rfl, hfilled⟩ | ⟨below, tail, rfl, rfl, hfilled⟩ :=
    readValue_cases Numeral.digitLimit depth s
  · rw [hr] at h ⊢
    exact h
  · have hgap := (skipGap_suffix tail).length_le
    rw [List.length_cons] at hother
    rw [readValue_array _ _ _ hfilled] at h ⊢
    obtain ⟨found, hfound, heq⟩ := exists_of_map_ok h
    rw [ih.items hfound (by omega)]
    exact congrArg Except.ok heq
  · have hgap := (skipGap_suffix tail).length_le
    rw [List.length_cons] at hother
    rw [readValue_object _ _ _ hfilled] at h ⊢
    obtain ⟨found, hfound, heq⟩ := exists_of_map_ok h
    rw [ih.members hfound (by omega)]
    exact congrArg Except.ok heq

theorem Stable.items_succ (ih : Stable fuel) {items : List Json}
    (h : readItems Numeral.digitLimit (fuel + 1) depth s = .ok (items, rest)) {other : Nat}
    (hother : 2 * s.length + 1 < other) :
    readItems Numeral.digitLimit other depth s = .ok (items, rest) := by
  obtain ⟨other, rfl⟩ := Nat.exists_eq_add_one_of_ne_zero (Nat.ne_zero_of_lt hother)
  cases hread : readValue Numeral.digitLimit fuel depth s with
  | error stop =>
      rw [readItems_of_error hread] at h
      cases h
  | ok found =>
      obtain ⟨item, after⟩ := found
      have hafter := (Denotes.suffix ⟨fuel, hread⟩).length_le
      rw [readItems_of_value hread] at h
      rw [readItems_of_value (ih.value hread (by omega))]
      split at h
      · exact h
      · next tail hskip =>
        have hshort := length_skipGap_lt hskip
        obtain ⟨found, hfound, heq⟩ := exists_of_map_ok h
        rw [ih.items hfound (by omega)]
        exact congrArg Except.ok heq
      · cases h

theorem Stable.members_succ (ih : Stable fuel) {old members : List (CodePoints × Json)}
    (h : readMembers Numeral.digitLimit (fuel + 1) depth old s = .ok (members, rest)) {other : Nat}
    (hother : 2 * s.length + 1 < other) :
    readMembers Numeral.digitLimit other depth old s = .ok (members, rest) := by
  obtain ⟨other, rfl⟩ := Nat.exists_eq_add_one_of_ne_zero (Nat.ne_zero_of_lt hother)
  obtain ⟨problem, left, hread⟩ | ⟨named, name, after, tail, rfl, hname, hcolon⟩ :=
    readMembers_cases Numeral.digitLimit fuel depth old s
  · rw [hread] at h
    cases h
  · have hafter := (readText_suffix hname).length_le
    have htail := length_skipGap_lt hcolon
    rw [List.length_cons] at hother
    cases hread : readValue Numeral.digitLimit fuel depth (skipGap tail) with
    | error stop =>
        rw [readMembers_of_error hname hcolon hread] at h
        cases h
    | ok found =>
        obtain ⟨v, left⟩ := found
        have hleft := (Denotes.suffix ⟨fuel, hread⟩).length_le
        rw [readMembers_of_value hname hcolon hread] at h
        rw [readMembers_of_value hname hcolon (ih.value hread (by omega))]
        split at h
        · exact h
        · next last hskip =>
          have hshort := length_skipGap_lt hskip
          exact ih.members h (by omega)
        · cases h

theorem stable (fuel : Nat) : Stable fuel := by
  induction fuel with
  | zero =>
      constructor
      case value =>
        intro _ _ _ _ h
        cases h
      case items =>
        intro _ _ _ _ h
        cases h
      case members =>
        intro _ _ _ _ _ h
        cases h
  | succ fuel ih => exact ⟨ih.value_succ, ih.items_succ, ih.members_succ⟩

theorem Denotes.readValue_eq {v : Json} (h : Denotes depth s v rest)
    (hfuel : 2 * s.length < fuel) :
    readValue Numeral.digitLimit fuel depth s = .ok (v, rest) := by
  obtain ⟨used, hread⟩ := h
  exact (stable used).value hread hfuel

end

theorem ne_of_isAsciiDigit {c d : Char} (hc : isAsciiDigit c = true)
    (hd : isAsciiDigit d = false) : d ≠ c := by
  rintro rfl
  rw [hc] at hd
  cases hd

/-- No word starts with a digit, with or without a sign in front. -/
theorem readWord?_of_digit {sign run : List Char} {c : Char} (hsign : sign = [] ∨ sign = ['-'])
    (hc : isAsciiDigit c = true) : readWord? (sign ++ c :: run) = none := by
  have hn : 'n' ≠ c := ne_of_isAsciiDigit hc (by decide)
  have ht : 't' ≠ c := ne_of_isAsciiDigit hc (by decide)
  have hf : 'f' ≠ c := ne_of_isAsciiDigit hc (by decide)
  have hN : 'N' ≠ c := ne_of_isAsciiDigit hc (by decide)
  have hI : 'I' ≠ c := ne_of_isAsciiDigit hc (by decide)
  have hminus : '-' ≠ c := ne_of_isAsciiDigit hc (by decide)
  rw [readWord?, Option.map_eq_none_iff, List.find?_eq_none]
  simp only [words, List.forall_mem_cons, List.not_mem_nil, false_implies, implies_true, and_true]
  obtain rfl | rfl := hsign
  · simp [List.isPrefixOf, hn, ht, hf, hN, hI, hminus]
  · simp [List.isPrefixOf, hI]

theorem readNumber_integer {limit : Nat} {sign run rest : List Char}
    (hsign : sign = [] ∨ sign = ['-']) (hdigits : ∀ c ∈ run, isAsciiDigit c = true)
    (hzero : run.head? ≠ some '0') (hlong : limit < run.length) (hend : EndsInteger rest) :
    readNumber limit (sign ++ (run ++ rest)) = .error (.digits (.reading run.length)) := by
  obtain ⟨c, run, rfl⟩ := List.exists_cons_of_length_pos (Nat.zero_lt_of_lt hlong)
  have hc := hdigits c List.mem_cons_self
  have hminus : '-' ≠ c := ne_of_isAsciiDigit hc (by decide)
  have hnonzero : c ≠ '0' := fun heq => hzero (congrArg some heq)
  have hdrop : rest.dropWhile isAsciiDigit = rest := by
    have hcut := List.takeWhile_append_dropWhile (p := isAsciiDigit) (l := rest)
    rwa [hend.digit, List.nil_append] at hcut
  have htake : (c :: run ++ rest).takeWhile isAsciiDigit = c :: run := by
    rw [List.takeWhile_append_of_pos hdigits, hend.digit, List.append_nil]
  have hrest : (c :: run ++ rest).dropWhile isAsciiDigit = rest := by
    rw [List.dropWhile_append_of_pos hdigits, hdrop]
  have hexponent : (readExponent (readFraction rest).2).1 = none := by
    rw [readFraction_snd hend.fraction]
    exact hend.exponent
  have hlimit : Numeral.ofDigitsUpTo limit (c :: run) = .error (.reading (c :: run).length) :=
    if_neg (Nat.not_le.mpr hlong)
  unfold readNumber
  split
  next negative unsigned hread =>
  have hunsigned : unsigned = c :: run ++ rest := by
    obtain rfl | rfl := hsign
    · split at hread
      · next heq =>
        cases heq
        exact absurd rfl hminus
      · cases hread
        rfl
    · cases hread
      rfl
  subst hunsigned
  split
  next whole after hcut =>
  have hwhole : (whole, after) = (c :: run, rest) := by
    split at hcut
    · next heq =>
      cases heq
      exact absurd rfl hnonzero
    · rw [← hcut, htake, hrest]
  cases hwhole
  rw [if_neg (by simp)]
  dsimp only
  rw [if_pos ⟨List.isEmpty_iff.mpr hend.fraction, hexponent⟩, hlimit]

theorem readValue_integer {limit : Nat} (fuel depth : Nat) {sign run rest : List Char}
    (hsign : sign = [] ∨ sign = ['-']) (hdigits : ∀ c ∈ run, isAsciiDigit c = true)
    (hzero : run.head? ≠ some '0') (hlong : limit < run.length) (hend : EndsInteger rest) :
    readValue limit (fuel + 1) depth (sign ++ (run ++ rest)) =
      .error (.digits (.reading run.length)) := by
  have hnumber := readNumber_integer hsign hdigits hzero hlong hend
  obtain ⟨c, tail, rfl⟩ := List.exists_cons_of_length_pos (Nat.zero_lt_of_lt hlong)
  have hc := hdigits c List.mem_cons_self
  have hhead {d : Char} {t : List Char} (hd : isAsciiDigit d = false) (hminus : d ≠ '-') :
      sign ++ (c :: tail ++ rest) ≠ d :: t := by
    obtain rfl | rfl := hsign
    · exact fun heq => ne_of_isAsciiDigit hc hd (List.cons.inj heq).1.symm
    · exact fun heq => hminus (List.cons.inj heq).1.symm
  unfold readValue
  dsimp only
  split
  · next heq => exact absurd heq (hhead (by decide) (by decide))
  · next heq => exact absurd heq (hhead (by decide) (by decide))
  · next heq => exact absurd heq (hhead (by decide) (by decide))
  · next heq => exact absurd heq (hhead (by decide) (by decide))
  · next heq => exact absurd heq (hhead (by decide) (by decide))
  · rw [List.cons_append, readWord?_of_digit hsign hc]
    exact hnumber

/-- Reading stops like this with any fuel that is enough for the text. -/
def Stops (depth : Nat) (s : List Char) (stop : Stop) : Place → Prop
  | .value => ∀ fuel, 2 * s.length < fuel →
    readValue Numeral.digitLimit fuel depth s = .error stop
  | .items => ∀ fuel, 2 * s.length + 1 < fuel →
    readItems Numeral.digitLimit fuel depth s = .error stop
  | .members => ∀ fuel members, 2 * s.length + 1 < fuel →
    readMembers Numeral.digitLimit fuel depth members s = .error stop

section

variable {depth : Nat} {place : Place} {s : List Char} {stop : Stop}

theorem Exceeds.ne_malformed (h : Exceeds place depth s stop) (problem : Problem) (left : Nat) :
    stop ≠ .malformed problem left := by
  induction h with
  | integer | array | object => exact Stop.noConfusion
  | inArray _ ih | inObject _ ih | item _ ih | laterItem _ _ _ ih | member _ _ _ ih
  | laterMember _ _ _ _ _ ih => exact ih

theorem readItems_closed (fuel depth : Nat) (tail : List Char) :
    ∃ left, readItems Numeral.digitLimit (fuel + 2) depth (']' :: tail) =
      .error (.malformed .value left) :=
  ⟨_, rfl⟩

theorem readMembers_closed (fuel depth : Nat) (tail : List Char) :
    ∃ left, readMembers Numeral.digitLimit (fuel + 1) depth [] ('\x7d' :: tail) =
      .error (.malformed .name left) :=
  ⟨_, rfl⟩

/-- Items in which there is too much are not closed at once. -/
theorem Exceeds.items_filled (h : Exceeds .items depth s stop) (hstops : Stops depth s stop .items)
    (tail : List Char) : s ≠ ']' :: tail := by
  rintro rfl
  obtain ⟨left, hclosed⟩ := readItems_closed (2 * (tail.length + 1)) depth tail
  have herror := (hstops _ (Nat.lt_succ_self _)).symm.trans hclosed
  exact h.ne_malformed _ _ (Except.error.inj herror)

theorem Exceeds.members_filled (h : Exceeds .members depth s stop)
    (hstops : Stops depth s stop .members) (tail : List Char) : s ≠ '\x7d' :: tail := by
  rintro rfl
  obtain ⟨left, hclosed⟩ := readMembers_closed (2 * (tail.length + 1) + 1) depth tail
  have herror := (hstops _ [] (Nat.lt_succ_self _)).symm.trans hclosed
  exact h.ne_malformed _ _ (Except.error.inj herror)

theorem Exceeds.stops (h : Exceeds place depth s stop) : Stops depth s stop place := by
  induction h with
  | integer hsign hdigits hzero hlong hend =>
      intro fuel hfuel
      obtain ⟨fuel, rfl⟩ := Nat.exists_eq_add_one_of_ne_zero (Nat.ne_zero_of_lt hfuel)
      exact readValue_integer fuel _ hsign hdigits hzero hlong hend
  | array | object =>
      intro fuel hfuel
      obtain ⟨fuel, rfl⟩ := Nat.exists_eq_add_one_of_ne_zero (Nat.ne_zero_of_lt hfuel)
      rfl
  | @inArray depth rest stop h ih =>
      intro fuel hfuel
      obtain ⟨fuel, rfl⟩ := Nat.exists_eq_add_one_of_ne_zero (Nat.ne_zero_of_lt hfuel)
      have hgap := (skipGap_suffix rest).length_le
      rw [List.length_cons] at hfuel
      rw [readValue_array _ _ _ (h.items_filled ih), ih fuel (by omega)]
      rfl
  | @inObject depth rest stop h ih =>
      intro fuel hfuel
      obtain ⟨fuel, rfl⟩ := Nat.exists_eq_add_one_of_ne_zero (Nat.ne_zero_of_lt hfuel)
      have hgap := (skipGap_suffix rest).length_le
      rw [List.length_cons] at hfuel
      rw [readValue_object _ _ _ (h.members_filled ih), ih fuel [] (by omega)]
      rfl
  | item h ih =>
      intro fuel hfuel
      obtain ⟨fuel, rfl⟩ := Nat.exists_eq_add_one_of_ne_zero (Nat.ne_zero_of_lt hfuel)
      exact readItems_of_error (ih fuel (by omega))
  | laterItem hv hcomma h ih =>
      intro fuel hfuel
      obtain ⟨fuel, rfl⟩ := Nat.exists_eq_add_one_of_ne_zero (Nat.ne_zero_of_lt hfuel)
      have hrest := hv.suffix.length_le
      have hshort := length_skipGap_lt hcomma
      rw [readItems_of_value (hv.readValue_eq (by omega)), hcomma]
      exact congrArg (Except.map _) (ih fuel (by omega))
  | member hname hcolon h ih =>
      intro fuel members hfuel
      obtain ⟨fuel, rfl⟩ := Nat.exists_eq_add_one_of_ne_zero (Nat.ne_zero_of_lt hfuel)
      have hafter := (readText_suffix hname).length_le
      have htail := length_skipGap_lt hcolon
      rw [List.length_cons] at hfuel
      exact readMembers_of_error hname hcolon (ih fuel (by omega))
  | laterMember hname hcolon hv hcomma h ih =>
      intro fuel members hfuel
      obtain ⟨fuel, rfl⟩ := Nat.exists_eq_add_one_of_ne_zero (Nat.ne_zero_of_lt hfuel)
      have hafter := (readText_suffix hname).length_le
      have htail := length_skipGap_lt hcolon
      have hleft := hv.suffix.length_le
      have hshort := length_skipGap_lt hcomma
      rw [List.length_cons] at hfuel
      rw [readMembers_of_value hname hcolon (hv.readValue_eq (by omega)), hcomma]
      exact ih fuel _ (by omega)

end

def isOpening (c : Char) : Bool :=
  c = '[' || c = '\x7b'

/-- No more of a text can be inside each other than it opens. -/
def openings (s : List Char) : Nat :=
  s.countP isOpening

/-- A run of digits in the text that is longer than an integer may be. -/
def Overlong (digits : Nat) (s : List Char) : Prop :=
  ∃ run, run <:+: s ∧ (∀ c ∈ run, isAsciiDigit c = true) ∧ digits < run.length

/-- It shows in a text that there may be too much in it. -/
def Crowded (depth : Nat) (s : List Char) : Prop :=
  Overlong Numeral.digitLimit s ∨ depth < openings s

section

variable {depth : Nat} {place : Place} {s t : List Char} {stop : Stop}

theorem Crowded.of_suffix (h : Crowded depth t) (hsuffix : t <:+ s) : Crowded depth s := by
  obtain ⟨run, hrun, hdigits, hlong⟩ | hdeep := h
  · exact .inl ⟨run, hrun.trans hsuffix.isInfix, hdigits, hlong⟩
  · exact .inr (hdeep.trans_le hsuffix.sublist.countP_le)

/-- Behind an opening bracket one may go one level less deep. -/
theorem Crowded.of_opening {c : Char} (h : Crowded depth t) (hc : isOpening c = true)
    (hsuffix : t <:+ s) : Crowded (depth + 1) (c :: s) := by
  obtain hlong | hdeep := h.of_suffix hsuffix
  · obtain ⟨run, hrun, hrest⟩ := hlong
    exact .inl ⟨run, hrun.trans (List.suffix_cons c s).isInfix, hrest⟩
  · have hcount : openings (c :: s) = openings s + 1 := List.countP_cons_of_pos hc
    exact .inr (by omega)

theorem crowded_opening {c : Char} (hc : isOpening c = true) : Crowded 0 (c :: s) := by
  refine .inr ?_
  rw [openings, List.countP_cons_of_pos hc]
  exact Nat.succ_pos _

theorem Exceeds.crowded (h : Exceeds place depth s stop) : Crowded depth s := by
  induction h with
  | @integer depth sign run rest _ hdigits _ hlong _ =>
      exact .inl ⟨run, ⟨sign, rest, by simp⟩, hdigits, hlong⟩
  | array => exact crowded_opening rfl
  | object => exact crowded_opening rfl
  | inArray _ ih => exact ih.of_opening rfl (skipGap_suffix _)
  | inObject _ ih => exact ih.of_opening rfl (skipGap_suffix _)
  | item _ ih => exact ih
  | laterItem hv hcomma _ ih =>
      exact ih.of_suffix ((skipGap_suffix _).trans ((suffix_of_skipGap hcomma).trans hv.suffix))
  | member hname hcolon _ ih =>
      exact ih.of_suffix ((skipGap_suffix _).trans ((suffix_of_skipGap hcolon).trans
        ((readText_suffix hname).trans (List.suffix_cons _ _))))
  | laterMember hname hcolon hv hcomma _ ih =>
      exact ih.of_suffix ((skipGap_suffix _).trans ((suffix_of_skipGap hcomma).trans
        (hv.suffix.trans ((skipGap_suffix _).trans ((suffix_of_skipGap hcolon).trans
          ((readText_suffix hname).trans (List.suffix_cons _ _)))))))

end

/-- A text that holds too much, and is good up to there. -/
def Oversized (depth : Nat) (s : List Char) : Prop :=
  s.head? ≠ some '\uFEFF' ∧ ∃ stop, Exceeds .value depth (skipGap s) stop

section

variable {depth : Nat} {s : List Char}

/-- What has been read was there, and what is too much stands in the text. -/
theorem read_cases (depth : Nat) (s : List Char) :
    (∃ v, read depth s = .ok v ∧ Fits (depth + 1) v) ∨
      (∃ fault, read depth s = .error (.malformed fault)) ∨ Oversized depth s := by
  by_cases hmark : s.head? = some '\uFEFF'
  · exact .inr (.inl ⟨_, by rw [read, readWithin, if_pos hmark]⟩)
  · have hreads := (bounded (2 * s.length + 2)).value depth (skipGap s)
    rw [read, readWithin, if_neg hmark]
    generalize readValue Numeral.digitLimit (2 * s.length + 2) depth (skipGap s) = r at hreads ⊢
    cases hreads with
    | @ok v rest hv _ =>
        dsimp only
        split
        · exact .inl ⟨v, rfl, hv⟩
        · exact .inr (.inl ⟨_, rfl⟩)
    | malformed => exact .inr (.inl ⟨_, rfl⟩)
    | exceeds hexceeds => exact .inr (.inr ⟨hmark, _, hexceeds⟩)

/-- Just a text that holds too much is refused for that. -/
theorem oversized_iff : Oversized depth s ↔
    (∃ limit, read depth s = .error (.digits limit)) ∨
      ∃ container, read depth s = .error (.tooDeep container) := by
  constructor
  · rintro ⟨hmark, stop, hexceeds⟩
    have hgap := (skipGap_suffix s).length_le
    have hstop := hexceeds.stops (2 * s.length + 2) (by omega)
    rw [read, readWithin, if_neg hmark, hstop]
    cases stop with
    | malformed problem left => exact absurd rfl (hexceeds.ne_malformed problem left)
    | digits limit => exact .inl ⟨limit, rfl⟩
    | tooDeep container => exact .inr ⟨container, rfl⟩
  · intro hread
    obtain ⟨v, hok, _⟩ | ⟨fault, hmalformed⟩ | hoversized := read_cases depth s
    · simp [hok] at hread
    · simp [hmalformed] at hread
    · exact hoversized

theorem Oversized.crowded (h : Oversized depth s) : Crowded depth s := by
  obtain ⟨_, _, hexceeds⟩ := h
  exact hexceeds.crowded.of_suffix (skipGap_suffix s)

theorem skipGap_replicate {c : Char} (h : isGap c = false) (n : Nat) :
    skipGap (List.replicate n c) = List.replicate n c := by
  unfold skipGap
  rw [List.dropWhile_replicate, h]
  rfl

theorem exceeds_brackets {n : Nat} (h : depth < n) :
    Exceeds .value depth (List.replicate n '[') (.tooDeep .array) := by
  induction depth generalizing n with
  | zero =>
      obtain ⟨n, rfl⟩ := Nat.exists_eq_add_one_of_ne_zero h.ne'
      exact .array
  | succ depth ih =>
      obtain ⟨n, rfl⟩ := Nat.exists_eq_add_one_of_ne_zero (Nat.ne_zero_of_lt h)
      refine .inArray (.item ?_)
      rw [skipGap_replicate rfl]
      exact ih (Nat.lt_of_succ_lt_succ h)

/-- Nothing but brackets, one more than values may be deep. -/
theorem read_brackets {n : Nat} (h : depth < n) :
    read depth (List.replicate n '[') = .error (.tooDeep .array) := by
  have hmark : (List.replicate n '[').head? ≠ some '\uFEFF' := by
    simp [List.head?_replicate]
  have hstop := (exceeds_brackets h).stops (2 * (List.replicate n '[').length + 2) (by omega)
  rw [read, readWithin, if_neg hmark, skipGap_replicate rfl, hstop]

end

end Json
end Uniproc
