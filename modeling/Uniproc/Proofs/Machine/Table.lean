import Uniproc.Machine.Basic

/-!
The process table as a function of slot numbers. Positions that count from the end are
left aside here: no slot that the machine itself handles is one of them.
-/

namespace Uniproc
namespace ProcessTable

/-- The control block in a slot. -/
def blockAt (t : ProcessTable) (slot : Int) : Option ControlBlock :=
  if 0 ≤ slot then t.slots[slot.toNat]? else none

def stateAt (t : ProcessTable) (slot : Int) : Option ProcessState :=
  (t.blockAt slot).map (·.state)

/-- The process in a slot has not ended, and this is its control block. -/
def Live (t : ProcessTable) (slot : Int) (b : ControlBlock) : Prop :=
  t.blockAt slot = some b ∧ b.isFree = false

variable {t : ProcessTable} {slot other : Int} {b old : ControlBlock}

theorem bounds_of_blockAt (h : t.blockAt slot = some b) :
    0 ≤ slot ∧ slot.toNat < t.slots.length := by
  unfold blockAt at h
  split at h
  · next h0 => exact ⟨h0, (List.getElem?_eq_some_iff.mp h).1⟩
  · cases h

theorem getElem?_of_blockAt (h : t.blockAt slot = some b) : t.slots[slot.toNat]? = some b := by
  simpa only [blockAt, (bounds_of_blockAt h).1, if_true] using h

theorem index?_of_blockAt (h : t.blockAt slot = some b) : t.index? slot = some slot.toNat := by
  obtain ⟨h0, hlt⟩ := bounds_of_blockAt h
  have hindex := resolveIndex_of_lt hlt
  rwa [Int.toNat_of_nonneg h0] at hindex

theorem get_of_blockAt (h : t.blockAt slot = some b) : t.get slot = .ok b := by
  simp only [get, index?_of_blockAt h, Option.bind_some, getElem?_of_blockAt h]

theorem put_of_blockAt (h : t.blockAt slot = some old) (b : ControlBlock) :
    t.put slot b = { t with slots := t.slots.set slot.toNat b } := by
  simp only [put, index?_of_blockAt h]

@[simp] theorem nextPid_put (t : ProcessTable) (slot : Int) (b : ControlBlock) :
    (t.put slot b).nextPid = t.nextPid := by
  unfold put
  split <;> rfl

/-- Putting a control block back where it is changes nothing. -/
theorem put_self (h : t.blockAt slot = some b) : t.put slot b = t := by
  obtain ⟨hlt, hb⟩ := List.getElem?_eq_some_iff.mp (getElem?_of_blockAt h)
  rw [put_of_blockAt h, ← hb, List.set_getElem_self]

theorem blockAt_put (h : t.blockAt slot = some old) (b : ControlBlock) (other : Int) :
    (t.put slot b).blockAt other = if other = slot then some b else t.blockAt other := by
  obtain ⟨h0, hlt⟩ := bounds_of_blockAt h
  simp only [blockAt, put_of_blockAt h]
  by_cases ho : other = slot
  · subst ho
    rw [if_pos h0, if_pos rfl, List.getElem?_set_self hlt]
  · rw [if_neg ho]
    split
    · have hne : slot.toNat ≠ other.toNat := by omega
      rw [List.getElem?_set_ne hne]
    · rfl

theorem put_put (h : t.blockAt slot = some old) (b c : ControlBlock) :
    (t.put slot b).put slot c = t.put slot c := by
  have hput := blockAt_put h b slot
  rw [if_pos rfl] at hput
  rw [put_of_blockAt hput, put_of_blockAt h, put_of_blockAt h, List.set_set]

/-- A table that differs in one slot has other states there only. -/
theorem stateAt_of_update {u : ProcessTable}
    (h : ∀ other, u.blockAt other = if other = slot then some b else t.blockAt other)
    (other : Int) : u.stateAt other = if other = slot then some b.state else t.stateAt other := by
  rw [stateAt, h]
  split <;> rfl

/-- What is so of all control blocks stays so if it is so of the one that differs. -/
theorem forall_of_update {P : ControlBlock → Prop} {u : ProcessTable}
    (hu : ∀ other, u.blockAt other = if other = slot then some b else t.blockAt other)
    (hb : P b) (ht : ∀ {slot b}, t.blockAt slot = some b → P b) {c : ControlBlock}
    (hc : u.blockAt other = some c) : P c := by
  rw [hu] at hc
  split at hc
  · cases hc
    exact hb
  · exact ht hc

theorem stateAt_of_blockAt (h : t.blockAt slot = some b) : t.stateAt slot = some b.state := by
  rw [stateAt, h, Option.map_some]

/-- A block in the same state changes no state. -/
theorem stateAt_put_of_eq (h : t.blockAt slot = some old) (hstate : b.state = old.state)
    (other : Int) : (t.put slot b).stateAt other = t.stateAt other := by
  rw [stateAt_of_update (blockAt_put h b)]
  split
  · next heq => rw [heq, stateAt_of_blockAt h, hstate]
  · rfl

theorem exists_blockAt_of_stateAt {state : ProcessState} (h : t.stateAt slot = some state) :
    ∃ b, t.blockAt slot = some b ∧ b.state = state :=
  Option.map_eq_some_iff.mp h

theorem isFree_eq_false_iff (b : ControlBlock) : b.isFree = false ↔ b.state ≠ .terminated := by
  simp only [ControlBlock.isFree, decide_eq_false_iff_not, ne_eq]

theorem isFree_eq_true_iff (b : ControlBlock) : b.isFree = true ↔ b.state = .terminated := by
  simp only [ControlBlock.isFree, decide_eq_true_eq]

/-- The slot that is allocated is free. -/
theorem blockAt_of_allocate {child : Nat} (h : t.allocate = .ok child) :
    ∃ b, t.blockAt child = some b ∧ b.isFree = true := by
  unfold allocate at h
  split at h
  · next i hi =>
    cases h
    obtain ⟨hlt, hfree, _⟩ := List.findIdx?_eq_some_iff_getElem.mp hi
    refine ⟨t.slots[child], ?_, hfree⟩
    simp only [blockAt, Int.natCast_nonneg, if_true, Int.toNat_natCast,
      List.getElem?_eq_getElem hlt]
  · cases h

/-- Every slot below the one that is allocated has a process. -/
theorem live_of_lt_allocate {child : Nat} (h : t.allocate = .ok child) (h0 : 0 ≤ slot)
    (hlt : slot < child) : ∃ b, t.Live slot b := by
  unfold allocate at h
  split at h
  · next i hi =>
    cases h
    obtain ⟨hchild, _, hbelow⟩ := List.findIdx?_eq_some_iff_getElem.mp hi
    have hslot : slot.toNat < child := by omega
    have hlen : slot.toNat < t.slots.length := by omega
    refine ⟨t.slots[slot.toNat], ?_, ?_⟩
    · simp only [blockAt, h0, if_true, List.getElem?_eq_getElem hlen]
    · simpa using hbelow slot.toNat hslot
  · cases h

/-- Without a slot to allocate every slot has a process. -/
theorem live_of_allocate_error {fault : Fault} (h : t.allocate = .error fault)
    (hb : t.blockAt slot = some b) : fault = .noFreeSlot ∧ b.isFree = false := by
  unfold allocate at h
  split at h
  · cases h
  · next hnone =>
    have hmem : b ∈ t.slots := List.mem_of_getElem? (getElem?_of_blockAt hb)
    cases h
    exact ⟨rfl, by simpa using List.findIdx?_eq_none_iff.mp hnone b hmem⟩

end ProcessTable
end Uniproc
