import Uniproc.Proofs.Machine.Coherence

/-!
The effects of instructions. Each is one change of the machine, made from the operations,
and keeps it coherent.
-/

namespace Uniproc

/-- What an instruction does. A program that runs out of instructions has the effect of one
that ends the process. -/
inductive Effect
  | compute (value : Int)
  | block
  | finish
  | refuse
  | spawn (child : Nat) (offset : Int)
  | install (program : Program)
  | keep (cause : LoadError)
  | lose (cause : LoadError)
  | abort (fault : Fault)

namespace Machine

variable {m : Machine} {slot : Int} {b : ControlBlock}

/-- The machine after an effect of the process with control block `b` in `slot`. -/
def affect (m : Machine) (slot : Int) (b : ControlBlock) (tick : Nat) :
    Effect → Machine
  | .compute v => m.withValue v
  | .block => m.afterBlock slot b
  | .finish => m.afterEnd slot b
  | .refuse | .keep _ => m
  | .spawn child offset => m.afterFork child b offset tick
  | .install p => (m.afterReplace slot b p).withCounter 0
  | .lose _ => (m.afterReplace slot b {}).withCounter (m.cpu.programCounter + 1)
  | .abort _ => m.afterReplace slot b {}

/-- A child goes into the slot that is allocated. -/
def Admits (m : Machine) : Effect → Prop
  | .spawn child _ => m.table.allocate = .ok child
  | _ => True

theorem coherent_affect (h : m.Coherent)
    (hrun : m.scheduler.running = some slot) (hb : m.table.blockAt slot = some b) {e : Effect}
    (he : m.Admits e) (tick : Nat) : (m.affect slot b tick e).Coherent := by
  cases e with
  | compute v => exact coherent_withValue h hrun v
  | block => exact coherent_afterBlock h hrun hb
  | finish => exact coherent_afterEnd h hrun hb
  | refuse | keep _ => exact h
  | spawn child offset =>
      obtain ⟨old, hold, hfree⟩ := ProcessTable.blockAt_of_allocate he
      exact coherent_afterFork h hrun hold hfree b offset tick
  | install p => exact coherent_withCounter (coherent_afterReplace h hrun hb p) hrun (Int.le_refl 0)
  | lose _ =>
      have hcounter := h.counter_nonneg
      exact coherent_withCounter (coherent_afterReplace h hrun hb {}) hrun (by omega)
  | abort _ => exact coherent_afterReplace h hrun hb {}

/-- The process keeps its slot and its number, in this state or another. -/
theorem exists_blockAt_affect (h : m.Coherent) (hrun : m.scheduler.running = some slot)
    (hb : m.table.blockAt slot = some b) {e : Effect} (he : m.Admits e) (tick : Nat) :
    ∃ c, (m.affect slot b tick e).table.blockAt slot = some c ∧ c.pid = b.pid := by
  cases e with
  | compute _ | refuse | keep _ => exact ⟨b, hb, rfl⟩
  | block => exact ⟨_, (blockAt_afterBlock hb slot).trans (if_pos rfl), rfl⟩
  | finish => exact ⟨_, (blockAt_afterEnd hb slot).trans (if_pos rfl), rfl⟩
  | spawn child offset =>
      obtain ⟨old, hold, hfree⟩ := ProcessTable.blockAt_of_allocate he
      have hne : slot ≠ child := by
        rintro rfl
        exact (h.not_mem_of_free hold hfree).1 hrun
      refine ⟨b, ?_, rfl⟩
      rw [affect, blockAt_afterFork hold, if_neg hne, hb]
  | install p => exact ⟨_, (blockAt_afterReplace hb p slot).trans (if_pos rfl), rfl⟩
  | lose _ | abort _ => exact ⟨_, (blockAt_afterReplace hb {} slot).trans (if_pos rfl), rfl⟩

end Machine
end Uniproc
