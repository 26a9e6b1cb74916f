import Mathlib.Data.List.Nodup
import Uniproc.Sharing.Heap

/-!
The laws of the heap. As long as no two programs have one list, a change of a program is seen
there and nowhere else, and a new program is not one that was there before.
-/

namespace Uniproc
namespace Sharing
namespace Heap

/-- No two programs have one list. -/
structure Separate (h : Heap) : Prop where
  nodup : h.programs.Nodup
  lt {list : Nat} : list ∈ h.programs → list < h.lists.length

/-- The heap with one more program. -/
def added (h : Heap) (instructions : List Instruction) : Heap where
  lists := h.lists ++ [instructions]
  programs := h.programs ++ [h.lists.length]

/-- Of the programs that were there only this one can hold something else, and holds this. -/
structure Sets (h : Heap) (p : Reference) (value : Program) (h' : Heap) : Prop where
  separate : h'.Separate
  length_eq : h'.programs.length = h.programs.length
  program_self : h'.program p = value
  program_of_ne {q : Reference} : q ≠ p → q < h.programs.length → h'.program q = h.program q

variable {h : Heap} {p q : Reference} {instructions : List Instruction}

theorem program_eq {list : Nat} (hp : h.programs[p]? = some list) :
    h.program p = ⟨(h.lists[list]?).getD []⟩ := by
  rw [program, hp, Option.bind_some]

theorem length_added (h : Heap) (instructions : List Instruction) :
    (h.added instructions).programs.length = h.programs.length + 1 :=
  List.length_append

theorem Separate.added (hs : h.Separate) (instructions : List Instruction) :
    (h.added instructions).Separate where
  nodup := by
    refine hs.nodup.append (List.nodup_singleton _) (List.disjoint_singleton.mpr fun hmem => ?_)
    exact absurd (hs.lt hmem) (Nat.lt_irrefl _)
  lt {list} hmem := by
    have hlists : (h.added instructions).lists.length = h.lists.length + 1 := List.length_append
    obtain hmem | hmem := List.mem_append.mp hmem
    · have hlt := hs.lt hmem
      omega
    · have heq := List.eq_of_mem_singleton hmem
      omega

/-- The new program holds what it was made of. -/
theorem program_added_self (h : Heap) (instructions : List Instruction) :
    (h.added instructions).program h.programs.length = ⟨instructions⟩ := by
  have hlist : (h.added instructions).programs[h.programs.length]? = some h.lists.length :=
    List.getElem?_concat_length
  have hvalue : (h.added instructions).lists[h.lists.length]? = some instructions :=
    List.getElem?_concat_length
  rw [program_eq hlist, hvalue, Option.getD_some]

theorem program_added (hs : h.Separate) (hq : q < h.programs.length)
    (instructions : List Instruction) : (h.added instructions).program q = h.program q := by
  have hlist : h.programs[q]? = some h.programs[q] := List.getElem?_eq_getElem hq
  have hkept : (h.added instructions).programs[q]? = some h.programs[q] :=
    (List.getElem?_append_left hq).trans hlist
  have hvalue : (h.added instructions).lists[h.programs[q]]? = h.lists[h.programs[q]]? :=
    List.getElem?_append_left (hs.lt (List.getElem_mem hq))
  rw [program_eq hkept, program_eq hlist, hvalue]

/-- Emptying a list is seen by its own program only. -/
theorem sets_clear (hs : h.Separate) (hp : p < h.programs.length) :
    ∃ h', clear p h = .ok () h' ∧ h.Sets p {} h' := by
  have hlist : h.programs[p]? = some h.programs[p] := List.getElem?_eq_getElem hp
  have hclear : clear p h = .ok () { h with lists := h.lists.set h.programs[p] [] } := by
    refine congrArg (EStateM.Result.ok ()) ?_
    simp only [hlist]
  refine ⟨_, hclear, ⟨hs.nodup, fun hmem => ?_⟩, rfl, ?_, fun {q} hne hq => ?_⟩
  · rw [List.length_set]
    exact hs.lt hmem
  · rw [program_eq (h := { h with lists := h.lists.set h.programs[p] [] }) hlist,
      List.getElem?_set_self (hs.lt (List.getElem_mem hp)), Option.getD_some]
  · have hother : h.programs[q]? = some h.programs[q] := List.getElem?_eq_getElem hq
    have hlists : h.programs[p] ≠ h.programs[q] := fun heq =>
      hne ((hs.nodup.getElem_inj_iff).mp heq).symm
    rw [program_eq (h := { h with lists := h.lists.set h.programs[p] [] }) hother,
      program_eq hother, List.getElem?_set_ne hlists]

/-- A new list is seen by the program that gets it only. -/
theorem sets_replaceWith (hs : h.Separate) (hp : p < h.programs.length) (other : Reference) :
    ∃ h', replaceWith p other h = .ok () h' ∧ h.Sets p (h.program other) h' := by
  let h' : Heap :=
    { lists := h.lists ++ [(h.program other).instructions]
      programs := h.programs.set p h.lists.length }
  have hnew : h.lists.length ∉ h.programs := fun hmem => absurd (hs.lt hmem) (Nat.lt_irrefl _)
  refine ⟨h', rfl, ⟨hs.nodup.set hnew, fun {list} hmem => ?_⟩, List.length_set, ?_,
    fun {q} hne hq => ?_⟩
  · have hlists : h'.lists.length = h.lists.length + 1 := List.length_append
    obtain hmem | rfl := List.mem_or_eq_of_mem_set hmem
    · have hlt := hs.lt hmem
      omega
    · omega
  · have hlist : h'.programs[p]? = some h.lists.length := List.getElem?_set_self hp
    have hvalue : h'.lists[h.lists.length]? = some (h.program other).instructions :=
      List.getElem?_concat_length
    rw [program_eq hlist, hvalue, Option.getD_some]
  · have hlist : h.programs[q]? = some h.programs[q] := List.getElem?_eq_getElem hq
    have hkept : h'.programs[q]? = some h.programs[q] :=
      (List.getElem?_set_ne hne.symm).trans hlist
    have hvalue : h'.lists[h.programs[q]]? = h.lists[h.programs[q]]? :=
      List.getElem?_append_left (hs.lt (List.getElem_mem hq))
    rw [program_eq hkept, program_eq hlist, hvalue]

theorem separate_ofCount (n : Nat) : (ofCount n).Separate where
  nodup := List.nodup_range
  lt hmem := by
    have hlists : (ofCount n).lists.length = n := List.length_replicate
    rw [hlists]
    exact List.mem_range.mp hmem

theorem program_ofCount (n : Nat) (p : Reference) : (ofCount n).program p = {} := by
  rw [program, ofCount]
  cases (List.range n)[p]? with
  | none => rfl
  | some list =>
      rw [Option.bind_some, List.getElem?_replicate]
      split <;> rfl

end Heap
end Sharing
end Uniproc
