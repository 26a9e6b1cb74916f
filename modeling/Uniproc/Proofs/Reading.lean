import Mathlib.Data.List.Infix
import Mathlib.Data.List.TakeWhile
import Uniproc.Json.Reader
import Uniproc.Proofs.Display
import Uniproc.Proofs.Loading

/-!
What reading a JSON text can come to. A reader leaves a tail of what it was given; what it has
read is no higher than it may be, and the integers in it can be written. Where it finds too
much, the text is good up to an integer with too many digits, or up to an array or object at a
depth where there may be none.
-/

namespace Uniproc
namespace Json

/-- What comes at the start of a text: a value, or items or members up to where they are
closed. -/
inductive Place
  | value
  | items
  | members
deriving DecidableEq, Repr

/-- There is a value at the start of a text, and `rest` behind it. -/
def Denotes (depth : Nat) (s : List Char) (v : Json) (rest : List Char) : Prop :=
  ∃ fuel, readValue Numeral.digitLimit fuel depth s = .ok (v, rest)

/-- No digit comes next, and neither a fraction nor an exponent. -/
structure EndsInteger (rest : List Char) : Prop where
  digit : rest.takeWhile isAsciiDigit = []
  fraction : (readFraction rest).1 = []
  exponent : (readExponent rest).1 = none

/-- A text that is good up to where there is too much: an integer that has more digits than
can be read, or the opening of an array or object where no more of them may be inside each
other. -/
inductive Exceeds : Place → (depth : Nat) → List Char → Stop → Prop
  | integer {depth : Nat} {sign run rest : List Char} (hsign : sign = [] ∨ sign = ['-'])
      (hdigits : ∀ c ∈ run, isAsciiDigit c = true) (hzero : run.head? ≠ some '0')
      (hlong : Numeral.digitLimit < run.length) (hend : EndsInteger rest) :
      Exceeds .value depth (sign ++ (run ++ rest)) (.digits (.reading run.length))
  | array {rest : List Char} : Exceeds .value 0 ('[' :: rest) (.tooDeep .array)
  | object {rest : List Char} : Exceeds .value 0 ('\x7b' :: rest) (.tooDeep .object)
  | inArray {depth : Nat} {rest : List Char} {stop : Stop}
      (h : Exceeds .items depth (skipGap rest) stop) :
      Exceeds .value (depth + 1) ('[' :: rest) stop
  | inObject {depth : Nat} {rest : List Char} {stop : Stop}
      (h : Exceeds .members depth (skipGap rest) stop) :
      Exceeds .value (depth + 1) ('\x7b' :: rest) stop
  | item {depth : Nat} {s : List Char} {stop : Stop} (h : Exceeds .value depth s stop) :
      Exceeds .items depth s stop
  | laterItem {depth : Nat} {s rest tail : List Char} {v : Json} {stop : Stop}
      (hv : Denotes depth s v rest) (hcomma : skipGap rest = ',' :: tail)
      (h : Exceeds .items depth (skipGap tail) stop) : Exceeds .items depth s stop
  | member {depth : Nat} {rest after tail : List Char} {name : CodePoints} {stop : Stop}
      (hname : readText rest = .ok (name, after)) (hcolon : skipGap after = ':' :: tail)
      (h : Exceeds .value depth (skipGap tail) stop) : Exceeds .members depth ('"' :: rest) stop
  | laterMember {depth : Nat} {rest after tail left last : List Char} {name : CodePoints}
      {v : Json} {stop : Stop} (hname : readText rest = .ok (name, after))
      (hcolon : skipGap after = ':' :: tail) (hv : Denotes depth (skipGap tail) v left)
      (hcomma : skipGap left = ',' :: last)
      (h : Exceeds .members depth (skipGap last) stop) : Exceeds .members depth ('"' :: rest) stop

/-- A value that a text can hold where so many values may be inside each other. -/
structure Fits (levels : Nat) (v : Json) : Prop where
  writable : v.Writable
  height : v.height ≤ levels

/-- All that can come of reading at the start of a text, where `P` is so of what is read. -/
inductive Reads {α : Type} (P : α → Prop) (place : Place) (depth : Nat) (s : List Char) :
    Except Stop (α × List Char) → Prop
  | ok {a : α} {rest : List Char} (ha : P a) (hrest : rest <:+ s) :
      Reads P place depth s (.ok (a, rest))
  | malformed (problem : Problem) (left : Nat) :
      Reads P place depth s (.error (.malformed problem left))
  | exceeds {stop : Stop} (h : Exceeds place depth s stop) : Reads P place depth s (.error stop)

theorem skipGap_suffix (s : List Char) : skipGap s <:+ s :=
  List.dropWhile_suffix isGap

/-- A point in front changes nothing about what is left. -/
theorem exists_points_of_cons {r : Except (Option (Problem × Nat)) (CodePoints × List Char)}
    {n : Nat} {points : CodePoints} {rest : List Char}
    (h : (do let (points, rest) ← r; return (n :: points, rest)) = Except.ok (points, rest)) :
    ∃ points, r = .ok (points, rest) := by
  cases r with
  | error fault => cases h
  | ok found =>
      cases h
      exact ⟨found.1, rfl⟩

theorem readPoints_suffix {s rest : List Char} {points : CodePoints}
    (h : readPoints s = .ok (points, rest)) : rest <:+ s := by
  fun_induction readPoints s generalizing points rest with
  | case1 | case2 | case4 | case6 | case8 | case9 => cases h
  | case3 =>
      cases h
      exact List.suffix_cons _ _
  | case5 tail n _ _ ih =>
      obtain ⟨_, hrest⟩ := exists_points_of_cons h
      have hdrop : rest <:+ tail := (ih hrest).trans (List.drop_suffix 4 tail)
      exact hdrop.trans ((List.suffix_cons _ _).trans (List.suffix_cons _ _))
  | case7 c tail _ n _ ih =>
      obtain ⟨_, hrest⟩ := exists_points_of_cons h
      exact (ih hrest).trans ((List.suffix_cons _ _).trans (List.suffix_cons _ _))
  | case10 c tail _ _ _ _ _ ih =>
      obtain ⟨_, hrest⟩ := exists_points_of_cons h
      exact (ih hrest).trans (List.suffix_cons _ _)

theorem readText_cases (s : List Char) :
    (∃ points rest, readText s = .ok (points, rest) ∧ rest <:+ s) ∨
      ∃ problem left, readText s = .error (.malformed problem left) := by
  unfold readText
  cases hpoints : readPoints s with
  | ok found => exact .inl ⟨_, _, rfl, readPoints_suffix hpoints⟩
  | error fault? =>
      cases fault? with
      | none => exact .inr ⟨_, _, rfl⟩
      | some fault => exact .inr ⟨_, _, rfl⟩

theorem readText_suffix {s rest : List Char} {points : CodePoints}
    (h : readText s = .ok (points, rest)) : rest <:+ s := by
  obtain ⟨_, _, htext, hsuffix⟩ | ⟨_, _, htext⟩ := readText_cases s
  · rw [h] at htext
    cases htext
    exact hsuffix
  · rw [h] at htext
    cases htext

theorem readFraction_suffix (s : List Char) : (readFraction s).2 <:+ s := by
  unfold readFraction
  split
  · next rest =>
    dsimp only
    split
    · exact List.suffix_rfl
    · exact (List.dropWhile_suffix _).trans (List.suffix_cons _ _)
  · exact List.suffix_rfl

theorem readFraction_snd {s : List Char} (h : (readFraction s).1 = []) :
    (readFraction s).2 = s := by
  fun_cases readFraction s with
  | case1 => rfl
  | case2 rest digits hdigits =>
      rw [readFraction, if_neg hdigits] at h
      exact absurd (List.isEmpty_iff.mpr h) hdigits
  | case3 => rfl

theorem sign_suffix (s : List Char) : (Numeral.sign s).2 <:+ s := by
  unfold Numeral.sign
  split
  · exact List.suffix_cons _ _
  · exact List.suffix_cons _ _
  · exact List.suffix_rfl

theorem readExponent_suffix (s : List Char) : (readExponent s).2 <:+ s := by
  cases s with
  | nil => exact List.suffix_rfl
  | cons c rest =>
      simp only [readExponent]
      split
      · exact (List.dropWhile_suffix _).trans ((sign_suffix rest).trans (List.suffix_cons _ _))
      · exact List.suffix_rfl

theorem fits_int {negative : Bool} {n levels : Nat} {run : List Char}
    (h : Numeral.ofDigits run = .ok n) : Fits (levels + 1) (.int (Numeral.signed negative n)) where
  writable := .int (Numeral.isWritable_signed (Numeral.lt_of_ofDigits h) negative)
  height := Nat.succ_pos levels

theorem takeWhile_dropWhile_digits (s : List Char) :
    (s.dropWhile isAsciiDigit).takeWhile isAsciiDigit = [] := by
  rw [List.takeWhile_eq_nil_iff]
  intro hlength
  exact List.dropWhile_get_zero_not isAsciiDigit s hlength

theorem reads_number (depth : Nat) (s : List Char) :
    Reads (Fits (depth + 1)) .value depth s (readNumber Numeral.digitLimit s) := by
  unfold readNumber
  split
  next negative unsigned hsigned =>
  have hunsigned : ∃ sign, (sign = [] ∨ sign = ['-']) ∧ s = sign ++ unsigned := by
    split at hsigned <;> cases hsigned
    · exact ⟨['-'], .inr rfl, rfl⟩
    · exact ⟨[], .inl rfl, rfl⟩
  obtain ⟨sign, hsign, rfl⟩ := hunsigned
  split
  next whole rest hcut =>
  have hwhole : whole ++ rest = unsigned ∧ (∀ c ∈ whole, isAsciiDigit c = true) ∧
      (whole.length = 1 ∨ whole.head? ≠ some '0' ∧ rest.takeWhile isAsciiDigit = []) := by
    split at hcut <;> cases hcut
    · exact ⟨rfl, List.forall_mem_singleton.mpr rfl, .inl rfl⟩
    · next hzero =>
      refine ⟨List.takeWhile_append_dropWhile, fun c hc => List.mem_takeWhile_imp hc,
        .inr ⟨fun hhead => ?_, takeWhile_dropWhile_digits unsigned⟩⟩
      cases unsigned with
      | nil => cases hhead
      | cons c tail =>
          rw [List.takeWhile_cons] at hhead
          split at hhead
          · cases hhead
            exact hzero tail rfl
          · cases hhead
  obtain ⟨rfl, hdigits, hnormal⟩ := hwhole
  have hleft : (readExponent (readFraction rest).2).2 <:+ sign ++ (whole ++ rest) :=
    (readExponent_suffix _).trans ((readFraction_suffix _).trans
      ((List.suffix_append whole rest).trans (List.suffix_append sign _)))
  dsimp only
  split
  · exact .malformed _ _
  · split
    · next hinteger =>
      cases hlimit : Numeral.ofDigitsUpTo Numeral.digitLimit whole with
      | ok n => exact .ok (fits_int hlimit) hleft
      | error limit =>
          unfold Numeral.ofDigitsUpTo at hlimit
          split at hlimit
          · cases hlimit
          · next hlong =>
            cases hlimit
            have hlong := Nat.lt_of_not_le hlong
            obtain hone | ⟨hzero, hdigit⟩ := hnormal
            · rw [hone] at hlong
              exact absurd hlong (by decide)
            · have hfraction : (readFraction rest).1 = [] := by simpa using hinteger.1
              have hexponent : (readExponent rest).1 = none := by
                rw [← readFraction_snd hfraction]
                exact hinteger.2
              exact .exceeds (.integer hsign hdigits hzero hlong ⟨hdigit, hfraction, hexponent⟩)
    · exact .ok ⟨.real _, Nat.succ_pos depth⟩ hleft

theorem reads_word {s : List Char} {found : Json × List Char} (depth : Nat)
    (h : readWord? s = some found) : Reads (Fits (depth + 1)) .value depth s (.ok found) := by
  obtain ⟨w, hw, rfl⟩ := Option.map_eq_some_iff.mp h
  refine .ok ?_ (List.drop_suffix _ _)
  have hmem := List.mem_of_find?_eq_some hw
  have hwords : ∀ w ∈ words, Fits (depth + 1) w.2 := by
    simp only [words, List.forall_mem_cons, List.not_mem_nil, false_implies, implies_true, and_true]
    have hheight := Nat.succ_pos depth
    exact ⟨⟨.null, hheight⟩, ⟨.bool _, hheight⟩, ⟨.bool _, hheight⟩, ⟨.real _, hheight⟩,
      ⟨.real _, hheight⟩, ⟨.real _, hheight⟩⟩
  exact hwords w hmem

section

variable {levels : Nat} {items : List Json} {members : List (CodePoints × Json)}

theorem fits_array (h : ∀ v ∈ items, Fits levels v) : Fits (levels + 1) (.array items) where
  writable := .array fun v hv => (h v hv).writable
  height := height_array_le_iff.mpr fun v hv => (h v hv).height

theorem fits_object (h : ∀ m ∈ members, Fits levels m.2) : Fits (levels + 1) (.object members) where
  writable := .object fun m hm => (h m hm).writable
  height := height_object_le_iff.mpr fun m hm => (h m hm).height

theorem fits_putMember {name : CodePoints} {v : Json} (h : ∀ m ∈ members, Fits levels m.2)
    (hv : Fits levels v) : ∀ m ∈ putMember members name v, Fits levels m.2 := by
  unfold putMember
  split
  · refine List.forall_mem_map.mpr fun m hm => ?_
    split
    · exact hv
    · exact h m hm
  · refine List.forall_mem_append.mpr ⟨h, ?_⟩
    simpa using hv

end

section

variable {digits fuel depth : Nat} {s rest after tail left : List Char} {v : Json}
  {name : CodePoints} {members : List (CodePoints × Json)} {stop : Stop}

theorem readItems_of_value (h : readValue digits fuel depth s = .ok (v, rest)) :
    readItems digits (fuel + 1) depth s = match skipGap rest with
      | ']' :: rest => .ok ([v], rest)
      | ',' :: rest => (readItems digits fuel depth (skipGap rest)).map fun r => (v :: r.1, r.2)
      | rest => .error (.malformed .comma rest.length) := by
  rw [readItems, h]
  rfl

theorem readItems_of_error (h : readValue digits fuel depth s = .error stop) :
    readItems digits (fuel + 1) depth s = .error stop := by
  rw [readItems, h]
  rfl

/-- A member starts with its name and a colon, or something is wrong with it. -/
theorem readMembers_cases (digits fuel depth : Nat) (members : List (CodePoints × Json))
    (s : List Char) :
    (∃ problem left, readMembers digits (fuel + 1) depth members s =
      .error (.malformed problem left)) ∨
    ∃ rest name after tail, s = '"' :: rest ∧ readText rest = .ok (name, after) ∧
      skipGap after = ':' :: tail := by
  unfold readMembers
  dsimp only
  split
  · next rest =>
    obtain ⟨name, after, hname, _⟩ | ⟨problem, left, hname⟩ := readText_cases rest
    · cases hgap : skipGap after with
      | nil => exact .inl ⟨.colon, 0, by simp only [hname, hgap, bind, Except.bind]; rfl⟩
      | cons c tail =>
          by_cases hc : c = ':'
          · subst hc
            exact .inr ⟨rest, name, after, tail, rfl, hname, hgap⟩
          · refine .inl ⟨.colon, (c :: tail).length, ?_⟩
            simp only [hname, hgap, bind, Except.bind]
            split
            · next heq =>
              cases heq
              exact absurd rfl hc
            · rfl
    · exact .inl ⟨problem, left, by rw [hname]; rfl⟩
  · exact .inl ⟨_, _, rfl⟩

theorem readMembers_of_value (hname : readText rest = .ok (name, after))
    (hcolon : skipGap after = ':' :: tail)
    (h : readValue digits fuel depth (skipGap tail) = .ok (v, left)) :
    readMembers digits (fuel + 1) depth members ('"' :: rest) = match skipGap left with
      | '\x7d' :: rest => .ok (putMember members name v, rest)
      | ',' :: rest => readMembers digits fuel depth (putMember members name v) (skipGap rest)
      | rest => .error (.malformed .comma rest.length) := by
  simp only [readMembers, hname, hcolon, h, bind, Except.bind]
  rfl

theorem readMembers_of_error (hname : readText rest = .ok (name, after))
    (hcolon : skipGap after = ':' :: tail)
    (h : readValue digits fuel depth (skipGap tail) = .error stop) :
    readMembers digits (fuel + 1) depth members ('"' :: rest) = .error stop := by
  simp only [readMembers, hname, hcolon, h, bind, Except.bind]

end

/-- What reading values, items and members comes to with this fuel. -/
structure Bounded (fuel : Nat) : Prop where
  value (depth : Nat) (s : List Char) :
    Reads (Fits (depth + 1)) .value depth s (readValue Numeral.digitLimit fuel depth s)
  items (depth : Nat) (s : List Char) :
    Reads (∀ v ∈ ·, Fits (depth + 1) v) .items depth s (readItems Numeral.digitLimit fuel depth s)
  members (depth : Nat) (members : List (CodePoints × Json)) (s : List Char)
    (h : ∀ m ∈ members, Fits (depth + 1) m.2) :
    Reads (∀ m ∈ ·, Fits (depth + 1) m.2) .members depth s
      (readMembers Numeral.digitLimit fuel depth members s)

section

variable {fuel depth : Nat} {s rest : List Char} {c : Char}

theorem suffix_of_skipGap (h : skipGap s = c :: rest) : rest <:+ s :=
  (h ▸ List.suffix_cons c rest).trans (skipGap_suffix s)

theorem Bounded.value_succ (h : Bounded fuel) (depth : Nat) (s : List Char) :
    Reads (Fits (depth + 1)) .value depth s
      (readValue Numeral.digitLimit (fuel + 1) depth s) := by
  unfold readValue
  dsimp only
  split
  · next rest =>
    obtain ⟨points, after, htext, hafter⟩ | ⟨problem, left, htext⟩ := readText_cases rest <;>
      rw [htext]
    · exact .ok ⟨.text _, Nat.succ_pos depth⟩ (hafter.trans (List.suffix_cons _ _))
    · exact .malformed _ _
  · exact .exceeds .array
  · exact .exceeds .object
  · next rest depth =>
    split
    · next tail hskip =>
      exact .ok (fits_array (by simp)) ((suffix_of_skipGap hskip).trans (List.suffix_cons _ _))
    · have hitems := h.items depth (skipGap rest)
      generalize readItems Numeral.digitLimit fuel depth (skipGap rest) = r at hitems ⊢
      cases hitems with
      | ok hfits hrest =>
          exact .ok (fits_array hfits)
            (hrest.trans ((skipGap_suffix rest).trans (List.suffix_cons _ _)))
      | malformed problem left => exact .malformed _ _
      | exceeds hexceeds => exact .exceeds (.inArray hexceeds)
  · next rest depth =>
    split
    · next tail hskip =>
      exact .ok (fits_object (by simp)) ((suffix_of_skipGap hskip).trans (List.suffix_cons _ _))
    · have hmembers := h.members depth [] (skipGap rest) (by simp)
      generalize readMembers Numeral.digitLimit fuel depth [] (skipGap rest) = r at hmembers ⊢
      cases hmembers with
      | ok hfits hrest =>
          exact .ok (fits_object hfits)
            (hrest.trans ((skipGap_suffix rest).trans (List.suffix_cons _ _)))
      | malformed problem left => exact .malformed _ _
      | exceeds hexceeds => exact .exceeds (.inObject hexceeds)
  · split
    · next found hword => exact reads_word _ hword
    · exact reads_number _ _

theorem Bounded.items_succ (h : Bounded fuel) (depth : Nat) (s : List Char) :
    Reads (∀ v ∈ ·, Fits (depth + 1) v) .items depth s
      (readItems Numeral.digitLimit (fuel + 1) depth s) := by
  have hvalue := h.value depth s
  cases hread : readValue Numeral.digitLimit fuel depth s with
  | error stop =>
      rw [hread] at hvalue
      rw [readItems_of_error hread]
      cases hvalue with
      | malformed problem left => exact .malformed _ _
      | exceeds hexceeds => exact .exceeds (.item hexceeds)
  | ok found =>
      obtain ⟨item, rest⟩ := found
      rw [hread] at hvalue
      rw [readItems_of_value hread]
      obtain ⟨hitem, hrest⟩ := hvalue
      split
      · next tail hskip =>
        exact .ok (by simpa using hitem) ((suffix_of_skipGap hskip).trans hrest)
      · next tail hskip =>
        have htail : skipGap tail <:+ s :=
          (skipGap_suffix tail).trans ((suffix_of_skipGap hskip).trans hrest)
        have hitems := h.items depth (skipGap tail)
        generalize readItems Numeral.digitLimit fuel depth (skipGap tail) = r at hitems ⊢
        cases hitems with
        | ok hfits hleft =>
            exact .ok (List.forall_mem_cons.mpr ⟨hitem, hfits⟩) (hleft.trans htail)
        | malformed problem left => exact .malformed _ _
        | exceeds hexceeds => exact .exceeds (.laterItem ⟨fuel, hread⟩ hskip hexceeds)
      · exact .malformed _ _

theorem Bounded.members_succ (h : Bounded fuel) (depth : Nat)
    (members : List (CodePoints × Json)) (s : List Char)
    (hold : ∀ m ∈ members, Fits (depth + 1) m.2) :
    Reads (∀ m ∈ ·, Fits (depth + 1) m.2) .members depth s
      (readMembers Numeral.digitLimit (fuel + 1) depth members s) := by
  obtain ⟨problem, left, hread⟩ | ⟨rest, name, after, tail, rfl, hname, hcolon⟩ :=
    readMembers_cases Numeral.digitLimit fuel depth members s
  · rw [hread]
    exact .malformed _ _
  · have hafter : after <:+ rest := readText_suffix hname
    have htail : skipGap tail <:+ '"' :: rest := (skipGap_suffix tail).trans
      ((suffix_of_skipGap hcolon).trans (hafter.trans (List.suffix_cons _ _)))
    have hvalue := h.value depth (skipGap tail)
    cases hread : readValue Numeral.digitLimit fuel depth (skipGap tail) with
    | error stop =>
        rw [hread] at hvalue
        rw [readMembers_of_error hname hcolon hread]
        cases hvalue with
        | malformed problem left => exact .malformed _ _
        | exceeds hexceeds => exact .exceeds (.member hname hcolon hexceeds)
    | ok found =>
        obtain ⟨v, left⟩ := found
        rw [hread] at hvalue
        rw [readMembers_of_value hname hcolon hread]
        obtain ⟨hv, hleft⟩ := hvalue
        have hmembers : ∀ m ∈ putMember members name v, Fits (depth + 1) m.2 :=
          fits_putMember hold hv
        split
        · next last hskip =>
          exact .ok hmembers ((suffix_of_skipGap hskip).trans (hleft.trans htail))
        · next last hskip =>
          have hlast : skipGap last <:+ '"' :: rest := (skipGap_suffix last).trans
            ((suffix_of_skipGap hskip).trans (hleft.trans htail))
          have hothers := h.members depth _ (skipGap last) hmembers
          generalize readMembers Numeral.digitLimit fuel depth (putMember members name v)
            (skipGap last) = r at hothers ⊢
          cases hothers with
          | ok hfits hend => exact .ok hfits (hend.trans hlast)
          | malformed problem left => exact .malformed _ _
          | exceeds hexceeds =>
              exact .exceeds (.laterMember hname hcolon ⟨fuel, hread⟩ hskip hexceeds)
        · exact .malformed _ _

end

theorem bounded (fuel : Nat) : Bounded fuel := by
  induction fuel with
  | zero =>
      constructor
      case value =>
        intro depth s
        rw [readValue]
        exact .malformed _ _
      case items =>
        intro depth s
        rw [readItems]
        exact .malformed _ _
      case members =>
        intro depth members s _
        rw [readMembers]
        exact .malformed _ _
  | succ fuel ih => exact ⟨ih.value_succ, ih.items_succ, ih.members_succ⟩

end Json
end Uniproc
