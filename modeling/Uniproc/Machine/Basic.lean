import Uniproc.Action
import Uniproc.Machine.Cpu
import Uniproc.Machine.ProcessTable
import Uniproc.Machine.Scheduler

/-!
The machine: a process table, a scheduler over it and a CPU. The operations here
change a queue and the state of the process in it together, so that a slot is in the
queue of its state as long as nothing else moves it.
-/

namespace Uniproc

structure Machine where
  table : ProcessTable
  scheduler : Scheduler := {}
  cpu : Cpu := {}
deriving DecidableEq, Repr, Inhabited

namespace Machine

def ofCapacity (capacity : Int) : Except Fault Machine :=
  (fun table => { table }) <$> ProcessTable.ofCapacity capacity

def lookUp (slot : Int) : Action Machine ControlBlock := do
  Action.ofExcept ((← get).table.get slot)

def update (slot : Int) (f : ControlBlock → Except Fault ControlBlock) : Action Machine Unit := do
  let b ← Action.ofExcept (f (← lookUp slot))
  modify fun m => { m with table := m.table.put slot b }

/-- Draws the next process number. -/
def drawPid : Action Machine Int := do
  let pid := (← get).table.nextPid
  modify fun m => { m with table.nextPid := pid + 1 }
  return pid

/-- Puts a process into a free slot. A program that the CPU still holds from there
belongs to no slot any more. -/
def spawn (slot : Int) (new : ControlBlock) : Action Machine Unit := do
  update slot (·.spawn new)
  modify fun m =>
    if m.cpu.home = m.table.index? slot then { m with cpu.home := none } else m

/-- Gives the CPU to a slot that is in state running already. -/
def start (slot : Int) : Action Machine Unit := do
  match (← get).scheduler.running with
  | some running => throw (.ofRefusal (.cpuBusy slot running))
  | none =>
    let b ← lookUp slot
    if b.state ≠ .running then throw (.ofRefusal (.notRunning slot b.state))
    modify fun m => { m with scheduler.running := some slot }

/-- Puts a ready slot at the end of the ready queue. -/
def enqueue (slot : Int) : Action Machine Unit := do
  let b ← lookUp slot
  if b.state ≠ .ready then throw (.ofRefusal (.notReady slot b.state))
  if slot ∈ (← get).scheduler.ready then throw (.ofRefusal (.alreadyQueued slot))
  modify fun m => { m with scheduler.ready := m.scheduler.ready ++ [slot] }

/-- Gives the CPU to the front of the ready queue, if it is idle and there is one. -/
def dispatch : Action Machine (Option Int) := do
  let scheduler := (← get).scheduler
  match scheduler.running, scheduler.ready with
  | none, slot :: rest =>
    modify fun m => { m with scheduler.ready := rest }
    update slot (·.move .dispatch)
    modify fun m =>
      { m with
        scheduler.running := some slot
        scheduler.switches := m.scheduler.switches + 1 }
    return some slot
  | _, _ => return none

def requireRunning : Action Machine Int := do
  match (← get).scheduler.running with
  | some slot => return slot
  | none => throw (.ofRefusal .nothingRunning)

/-- Takes the CPU from the running slot, puts the slot at the end of the blocked
queue and saves the registers that are given. -/
def blockRunning (programCounter value : Int) : Action Machine Int := do
  let slot ← requireRunning
  update slot (·.block programCounter value)
  modify fun m =>
    { m with
      scheduler.blocked := m.scheduler.blocked ++ [slot]
      scheduler.running := none }
  return slot

/-- Ends the running process and frees its slot. -/
def terminateRunning : Action Machine Int := do
  let slot ← requireRunning
  update slot (·.move .terminate)
  modify fun m => { m with scheduler.running := none }
  return slot

/-- Moves the front of the blocked queue to the end of the ready queue. -/
def unblock : Action Machine (Option Int) := do
  match (← get).scheduler.blocked with
  | [] => return none
  | slot :: rest =>
    modify fun m => { m with scheduler.blocked := rest }
    update slot (·.move .unblock)
    modify fun m => { m with scheduler.ready := m.scheduler.ready ++ [slot] }
    return some slot

/-- Loads the registers of the process in a slot into the CPU. -/
def loadCpu (slot : Int) : Action Machine Unit := do
  let b ← lookUp slot
  modify fun m => { m with cpu := .ofBlock b (m.table.index? slot) }

def discardCpu (m : Machine) : Machine :=
  { m with cpu := .discarded }

def setRegisters (programCounter value : Int) (m : Machine) : Machine :=
  { m with cpu.programCounter := programCounter, cpu.value := value }

/-- Replaces the program that the CPU runs, which is also the program of the slot it
came from. -/
def replaceProgram (p : Program) (m : Machine) : Machine :=
  if m.cpu.isLoaded then
    { m with
      cpu.program := some p
      table := match m.cpu.home with
        | some i => { m.table with slots := m.table.slots.modify i ({ · with program := p }) }
        | none => m.table }
  else m

end Machine
end Uniproc
