import Uniproc.Proofs.Machine.Effect

/-!
More slots behind the ones there are. The lowest free slot is looked for from the front, so
that as long as there is one among the old slots the new ones stay as they are, and everything
that happens on the smaller table happens on the larger one in the same way.
-/

namespace Uniproc
namespace ProcessTable

/-- The table with `k` more free slots. -/
def widened (t : ProcessTable) (k : Nat) : ProcessTable :=
  { t with slots := t.slots ++ List.replicate k {} }

variable {t : ProcessTable} {slot : Int} {b old : ControlBlock}

theorem blockAt_widened (hb : t.blockAt slot = some b) (k : Nat) :
    (t.widened k).blockAt slot = some b := by
  obtain ⟨h0, hlt⟩ := bounds_of_blockAt hb
  rw [blockAt, if_pos h0, widened, List.getElem?_append_left hlt]
  exact getElem?_of_blockAt hb

theorem put_widened (hold : t.blockAt slot = some old) (b : ControlBlock) (k : Nat) :
    (t.put slot b).widened k = (t.widened k).put slot b := by
  have hlt := (bounds_of_blockAt hold).2
  rw [put_of_blockAt hold, put_of_blockAt (blockAt_widened hold k)]
  simp only [widened, List.set_append_left _ _ hlt]

theorem allocate_widened {child : Nat} (h : t.allocate = .ok child) (k : Nat) :
    (t.widened k).allocate = .ok child := by
  unfold allocate at h ⊢
  cases hfind : t.slots.findIdx? (·.isFree) with
  | none =>
      rw [hfind] at h
      cases h
  | some i =>
      rw [hfind] at h
      rw [widened, List.findIdx?_append, hfind]
      exact h

end ProcessTable

namespace Machine

def widened (m : Machine) (k : Nat) : Machine :=
  { m with table := m.table.widened k }

variable {m : Machine} {slot : Int} {b : ControlBlock}

theorem affect_widened (hb : m.table.blockAt slot = some b) {e : Effect} (he : m.Admits e)
    (tick k : Nat) : (m.affect slot b tick e).widened k = (m.widened k).affect slot b tick e := by
  cases e with
  | compute _ | refuse | keep _ => rfl
  | block =>
      simp only [affect, afterBlock, widened, ProcessTable.put_widened hb]
  | finish =>
      simp only [affect, afterEnd, widened, ProcessTable.put_widened hb]
  | spawn child offset =>
      obtain ⟨old, hold, _⟩ := ProcessTable.blockAt_of_allocate he
      have hdrawn : { m.table with nextPid := m.table.nextPid + 1 }.blockAt child = some old := hold
      simp only [affect, afterFork, widened, ProcessTable.put_widened hdrawn]
      rfl
  | install _ | lose _ | abort _ =>
      simp only [affect, afterReplace, withCounter, widened, ProcessTable.put_widened hb]

theorem Scheduled.afterDispatch_widened (h : m.Scheduled) (k : Nat) :
    m.afterDispatch.widened k = (m.widened k).afterDispatch := by
  obtain ⟨hnext, heq⟩ | ⟨slot, b, rest, _, hidle, hready, hb, _, heq⟩ := h.afterDispatch_cases
  · have hstay : (m.widened k).next? = none := hnext
    rw [heq, afterDispatch_of_stay hstay]
  · have hwidened : (m.widened k).afterDispatch = (m.widened k).afterSwitch slot b rest := by
      have hat := ProcessTable.blockAt_widened hb k
      simp only [afterDispatch, widened, hidle, hready, hat]
    rw [heq, hwidened]
    simp only [afterSwitch, widened, ProcessTable.put_widened hb]

theorem Scheduled.afterUnblock_widened (h : m.Scheduled) (k : Nat) :
    m.afterUnblock.widened k = (m.widened k).afterUnblock := by
  obtain ⟨hblocked, heq⟩ | ⟨slot, b, rest, hblocked, hb, _, heq⟩ := h.afterUnblock_cases
  · have hstay : (m.widened k).afterUnblock = m.widened k := by
      simp only [afterUnblock, widened, hblocked]
    rw [heq, hstay]
  · have hwidened : (m.widened k).afterUnblock = (m.widened k).afterWake slot b rest := by
      have hat := ProcessTable.blockAt_widened hb k
      simp only [afterUnblock, widened, hblocked, hat]
    rw [heq, hwidened]
    simp only [afterWake, widened, ProcessTable.put_widened hb]

end Machine
end Uniproc
