import Uniproc.Proofs.Machine.Effect

/-!
The outline of a machine: everything about it except the values that the processes compute
with, their priorities, the time they have used and the operands of their arithmetic. Every
operation is an operation on outlines, so that what is left out flows into nothing that is
kept.
-/

namespace Uniproc

/-- Whether the operation only changes the register. -/
def Opcode.isArithmetic : Opcode → Bool
  | .set | .add | .subtract => true
  | .block | .halt | .fork | .replace => false

def Instruction.outline (i : Instruction) : Instruction :=
  if i.opcode.isArithmetic then { i with number := 0 } else i

def Program.outline (p : Program) : Program where
  instructions := p.instructions.map Instruction.outline

def ControlBlock.outline (b : ControlBlock) : ControlBlock :=
  { b with program := b.program.outline, value := 0, priority := 0, timeUsed := 0 }

def Cpu.outline (c : Cpu) : Cpu :=
  { c with program := c.program.map Program.outline, value := 0 }

def ProcessTable.outline (t : ProcessTable) : ProcessTable :=
  { t with slots := t.slots.map ControlBlock.outline }

def Machine.outline (m : Machine) : Machine where
  table := m.table.outline
  scheduler := m.scheduler
  cpu := m.cpu.outline

def Effect.outline : Effect → Effect
  | .compute _ => .compute 0
  | .install p => .install p.outline
  | e => e

@[simp] theorem Instruction.opcode_outline (i : Instruction) : i.outline.opcode = i.opcode := by
  unfold outline
  split <;> rfl

@[simp] theorem Instruction.path_outline (i : Instruction) : i.outline.path = i.path := by
  unfold outline
  split <;> rfl

theorem Instruction.number_outline {i : Instruction} (h : i.opcode.isArithmetic = false) :
    i.outline.number = i.number := by
  rw [outline, h]
  rfl

namespace ProcessTable

theorem blockAt_outline (t : ProcessTable) (slot : Int) :
    t.outline.blockAt slot = (t.blockAt slot).map ControlBlock.outline := by
  unfold blockAt
  split
  · exact List.getElem?_map
  · rfl

theorem put_outline (t : ProcessTable) (slot : Int) (b : ControlBlock) :
    (t.put slot b).outline = t.outline.put slot b.outline := by
  have hindex : t.outline.index? slot = t.index? slot := by
    simp only [index?, capacity, outline, List.length_map]
  unfold put
  rw [hindex]
  cases t.index? slot with
  | none => rfl
  | some i => simp only [outline, List.map_set]

theorem allocate_outline (t : ProcessTable) : t.outline.allocate = t.allocate := by
  unfold allocate
  rw [outline, List.findIdx?_map]
  rfl

end ProcessTable

namespace Machine

theorem outline_afterBlock (m : Machine) (slot : Int) (b : ControlBlock) :
    (m.afterBlock slot b).outline = m.outline.afterBlock slot b.outline := by
  simp only [outline, afterBlock, ProcessTable.put_outline]
  rfl

theorem outline_afterEnd (m : Machine) (slot : Int) (b : ControlBlock) :
    (m.afterEnd slot b).outline = m.outline.afterEnd slot b.outline := by
  simp only [outline, afterEnd, ProcessTable.put_outline]
  rfl

/-- The child has its parent's register and priority, and both are left out. -/
theorem outline_afterFork (m : Machine) (child : Int) (b : ControlBlock) (offset : Int)
    (tick : Nat) : (m.afterFork child b offset tick).outline =
      m.outline.afterFork child b.outline offset tick := by
  simp only [outline, afterFork, ProcessTable.put_outline]
  rfl

theorem outline_afterReplace (m : Machine) (slot : Int) (b : ControlBlock) (p : Program) :
    (m.afterReplace slot b p).outline = m.outline.afterReplace slot b.outline p.outline := by
  simp only [outline, afterReplace, ProcessTable.put_outline]
  rfl

theorem outline_afterSwitch (m : Machine) (slot : Int) (b : ControlBlock) (rest : List Int) :
    (m.afterSwitch slot b rest).outline = m.outline.afterSwitch slot b.outline rest := by
  simp only [outline, afterSwitch, ProcessTable.put_outline]
  rfl

theorem outline_afterWake (m : Machine) (slot : Int) (b : ControlBlock) (rest : List Int) :
    (m.afterWake slot b rest).outline = m.outline.afterWake slot b.outline rest := by
  simp only [outline, afterWake, ProcessTable.put_outline]
  rfl

theorem outline_affect (m : Machine) (slot : Int) (b : ControlBlock) (tick : Nat) (e : Effect) :
    (m.affect slot b tick e).outline = m.outline.affect slot b.outline tick e.outline := by
  cases e with
  | compute _ | refuse | keep _ => rfl
  | block => exact m.outline_afterBlock slot b
  | finish => exact m.outline_afterEnd slot b
  | spawn child offset => exact m.outline_afterFork child b offset tick
  | install p => exact congrArg (·.withCounter 0) (m.outline_afterReplace slot b p)
  | lose _ =>
      exact congrArg (·.withCounter (m.cpu.programCounter + 1)) (m.outline_afterReplace slot b {})
  | abort _ => exact m.outline_afterReplace slot b {}

/-- Who gets the CPU is read off the queues. -/
theorem outline_afterDispatch (m : Machine) : m.afterDispatch.outline = m.outline.afterDispatch := by
  have hscheduler : m.outline.scheduler = m.scheduler := rfl
  unfold afterDispatch
  rw [hscheduler]
  cases m.scheduler.running with
  | some _ => rfl
  | none =>
      cases m.scheduler.ready with
      | nil => rfl
      | cons slot rest =>
          have hat : m.outline.table.blockAt slot = _ := m.table.blockAt_outline slot
          dsimp only
          rw [hat]
          cases m.table.blockAt slot with
          | none => rfl
          | some b => exact m.outline_afterSwitch slot b rest

theorem outline_afterUnblock (m : Machine) : m.afterUnblock.outline = m.outline.afterUnblock := by
  have hscheduler : m.outline.scheduler = m.scheduler := rfl
  unfold afterUnblock
  rw [hscheduler]
  cases m.scheduler.blocked with
  | nil => rfl
  | cons slot rest =>
      have hat : m.outline.table.blockAt slot = _ := m.table.blockAt_outline slot
      dsimp only
      rw [hat]
      cases m.table.blockAt slot with
      | none => rfl
      | some b => exact m.outline_afterWake slot b rest

end Machine
end Uniproc
