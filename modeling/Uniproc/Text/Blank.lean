/-!
White space: the characters that Unicode calls white space, and with them the
four information separators U+001C to U+001F. Texts without what stands at their ends.
-/

namespace Uniproc
namespace Text

def isBlank (c : Char) : Bool :=
  let n := c.toNat
  (0x09 ≤ n && n ≤ 0x0D) || (0x1C ≤ n && n ≤ 0x20) || n == 0x85 || n == 0xA0 ||
  n == 0x1680 || (0x2000 ≤ n && n ≤ 0x200A) || n == 0x2028 || n == 0x2029 ||
  n == 0x202F || n == 0x205F || n == 0x3000

/-- What is left of a text without the characters of one kind at its end. -/
def trimEnd (kind : Char → Bool) (s : List Char) : List Char :=
  (s.reverse.dropWhile kind).reverse

/-- What is left of a text without the characters of one kind at both of its ends. -/
def trim (kind : Char → Bool) (s : List Char) : List Char :=
  trimEnd kind (s.dropWhile kind)

def strip (s : List Char) : List Char :=
  trim isBlank s

/-- Characters of the kind in front make no difference. -/
theorem trim_append {kind : Char → Bool} {front : List Char} (h : ∀ c ∈ front, kind c = true)
    (s : List Char) : trim kind (front ++ s) = trim kind s := by
  unfold trim
  rw [List.dropWhile_append_of_pos h]

theorem strip_append_of_blank {blanks : List Char} (h : ∀ c ∈ blanks, isBlank c = true)
    (s : List Char) : strip (blanks ++ s) = strip s :=
  trim_append h s

theorem isPrefix_trimEnd (kind : Char → Bool) (s : List Char) : trimEnd kind s <+: s := by
  have hsuffix := List.dropWhile_suffix (l := s.reverse) kind
  rw [← List.reverse_prefix, List.reverse_reverse] at hsuffix
  exact hsuffix

theorem mem_of_mem_strip {c : Char} {s : List Char} (h : c ∈ strip s) : c ∈ s :=
  (List.dropWhile_suffix isBlank).mem ((isPrefix_trimEnd isBlank _).mem h)

theorem isBlank_of_head?_strip {c : Char} {s : List Char} (h : (strip s).head? = some c) :
    isBlank c = false := by
  have hdrop : (s.dropWhile isBlank).head? = some c := by
    obtain ⟨t, ht⟩ := isPrefix_trimEnd isBlank (s.dropWhile isBlank)
    rw [← ht, List.head?_append]
    change ((strip s).head?.or t.head?) = some c
    rw [h, Option.some_or]
  have hnot := List.head?_dropWhile_not isBlank s
  rw [hdrop] at hnot
  simpa using hnot

theorem isBlank_of_getLast?_strip {c : Char} {s : List Char} (h : (strip s).getLast? = some c) :
    isBlank c = false := by
  rw [strip, trim, trimEnd, List.getLast?_reverse] at h
  have hnot := List.head?_dropWhile_not isBlank (s.dropWhile isBlank).reverse
  rw [h] at hnot
  simpa using hnot

/-- Nothing is taken from a text that neither starts nor ends with such a character. -/
theorem trim_of_ends {kind : Char → Bool} {s : List Char}
    (hfirst : ∀ c, s.head? = some c → kind c = false)
    (hlast : ∀ c, s.getLast? = some c → kind c = false) : trim kind s = s := by
  have hdrop {t : List Char} (ht : ∀ c, t.head? = some c → kind c = false) :
      t.dropWhile kind = t := by
    cases t with
    | nil => rfl
    | cons c rest => exact List.dropWhile_cons_of_neg (by simp [ht c rfl])
  have hend : ∀ c, s.reverse.head? = some c → kind c = false := by
    simpa only [List.head?_reverse] using hlast
  rw [trim, hdrop hfirst, trimEnd, hdrop hend, List.reverse_reverse]

theorem trim_of_forall {kind : Char → Bool} {s : List Char} (h : ∀ c ∈ s, kind c = false) :
    trim kind s = s :=
  trim_of_ends (fun c hc => h c (List.mem_of_mem_head? hc)) fun c hc =>
    h c (List.mem_of_getLast? hc)

theorem strip_of_ends {s : List Char} (hfirst : ∀ c, s.head? = some c → isBlank c = false)
    (hlast : ∀ c, s.getLast? = some c → isBlank c = false) : strip s = s :=
  trim_of_ends hfirst hlast

theorem strip_of_visible {s : List Char} (h : ∀ c ∈ s, isBlank c = false) : strip s = s :=
  trim_of_forall h

theorem strip_strip (s : List Char) : strip (strip s) = strip s :=
  strip_of_ends (fun _ => isBlank_of_head?_strip) fun _ => isBlank_of_getLast?_strip

end Text
end Uniproc
