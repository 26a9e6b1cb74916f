import Uniproc.Machine.ControlBlock
import Uniproc.Machine.ProcessTable
import Uniproc.Machine.Scheduler
import Uniproc.Sharing.Heap

/-!
The machine over a heap of programs. Control blocks and the CPU refer to programs there: the CPU
to the one that the control block of the running process refers to, so that both see it change.
-/

namespace Uniproc
namespace Sharing

structure ControlBlock where
  pid : Int := -1
  parent : Option Int := none
  program : Reference
  programCounter : Int := 0
  value : Int := 0
  priority : Int := 0
  state : ProcessState := .terminated
  startTime : Int := 0
  timeUsed : Int := 0
deriving DecidableEq, Repr, Inhabited

namespace ControlBlock

def isFree (b : ControlBlock) : Bool :=
  b.state = .terminated

/-- Puts a new process into a free place. It has not used any time. -/
def spawn (b new : ControlBlock) : Except Fault ControlBlock :=
  if b.isFree then .ok { new with timeUsed := 0 }
  else .error (.ofRefusal (.occupied b.pid b.state))

/-- Makes a move, which is possible from its source only. -/
def move (t : Transition) (b : ControlBlock) : Except Fault ControlBlock :=
  if b.state = t.source then .ok { b with state := t.target }
  else .error (.ofRefusal (.wrongState t b.pid b.state))

/-- Blocks the process and saves its registers. -/
def block (programCounter value : Int) (b : ControlBlock) : Except Fault ControlBlock :=
  (fun b => { b with programCounter, value }) <$> b.move .block

end ControlBlock

structure Cpu where
  program : Option Reference := none
  programCounter : Int := 0
  value : Int := 0
deriving DecidableEq, Repr, Inhabited

namespace Cpu

def ofBlock (b : ControlBlock) : Cpu where
  program := some b.program
  programCounter := b.programCounter
  value := b.value

/-- Nothing is loaded. -/
def discarded : Cpu := {}

end Cpu

structure ProcessTable where
  slots : List ControlBlock
  nextPid : Int := initPid + 1
deriving DecidableEq, Repr, Inhabited

namespace ProcessTable

def index? (t : ProcessTable) (slot : Int) : Option Nat :=
  resolveIndex t.slots.length slot

def get (t : ProcessTable) (slot : Int) : Except Fault ControlBlock :=
  match (t.index? slot).bind (t.slots[·]?) with
  | some b => .ok b
  | none => .error (.ofPosition slot)

/-- The table with another control block in a slot. -/
def put (t : ProcessTable) (slot : Int) (b : ControlBlock) : ProcessTable :=
  match t.index? slot with
  | some i => { t with slots := t.slots.set i b }
  | none => t

/-- The lowest free slot. It stays free until a process is put there. -/
def allocate (t : ProcessTable) : Except Fault Nat :=
  match t.slots.findIdx? (·.isFree) with
  | some i => .ok i
  | none => .error .noFreeSlot

end ProcessTable

structure Machine where
  heap : Heap
  table : ProcessTable
  scheduler : Scheduler := {}
  cpu : Cpu := {}
deriving DecidableEq, Repr, Inhabited

namespace Machine

/-- A machine without processes. Every slot has an empty program of its own. -/
def ofCount (n : Nat) : Machine where
  heap := .ofCount n
  table := { slots := (List.range n).map fun program => { program } }

/-- A machine with so many slots; there is at least one. -/
def ofCapacity (capacity : Int) : Except Fault Machine :=
  if capacity < 1 then .error .capacity else .ok (.ofCount capacity.toNat)

/-- An action on the heap. -/
def onHeap {α : Type} (action : Action Heap α) : Action Machine α :=
  Action.onPart heap (fun h m => { m with heap := h }) action

def lookUp (slot : Int) : Action Machine ControlBlock := do
  Action.ofExcept ((← get).table.get slot)

def update (slot : Int) (f : ControlBlock → Except Fault ControlBlock) : Action Machine Unit := do
  let b ← Action.ofExcept (f (← lookUp slot))
  modify fun m => { m with table := m.table.put slot b }

/-- Draws the next process number. -/
def drawPid : Action Machine Int := do
  let pid := (← get).table.nextPid
  modify fun m => { m with table.nextPid := pid + 1 }
  return pid

/-- Puts a process into a free slot. -/
def spawn (slot : Int) (new : ControlBlock) : Action Machine Unit :=
  update slot (·.spawn new)

/-- Gives the CPU to a slot that is in state running already. -/
def start (slot : Int) : Action Machine Unit := do
  match (← get).scheduler.running with
  | some running => throw (.ofRefusal (.cpuBusy slot running))
  | none =>
    let b ← lookUp slot
    if b.state ≠ .running then throw (.ofRefusal (.notRunning slot b.state))
    modify fun m => { m with scheduler.running := some slot }

/-- Puts a ready slot at the end of the ready queue. -/
def enqueue (slot : Int) : Action Machine Unit := do
  let b ← lookUp slot
  if b.state ≠ .ready then throw (.ofRefusal (.notReady slot b.state))
  if slot ∈ (← get).scheduler.ready then throw (.ofRefusal (.alreadyQueued slot))
  modify fun m => { m with scheduler.ready := m.scheduler.ready ++ [slot] }

/-- Gives the CPU to the front of the ready queue, if it is idle and there is one. -/
def dispatch : Action Machine (Option Int) := do
  let scheduler := (← get).scheduler
  match scheduler.running, scheduler.ready with
  | none, slot :: rest =>
    modify fun m => { m with scheduler.ready := rest }
    update slot (·.move .dispatch)
    modify fun m =>
      { m with
        scheduler.running := some slot
        scheduler.switches := m.scheduler.switches + 1 }
    return some slot
  | _, _ => return none

def requireRunning : Action Machine Int := do
  match (← get).scheduler.running with
  | some slot => return slot
  | none => throw (.ofRefusal .nothingRunning)

/-- Takes the CPU from the running slot, puts the slot at the end of the blocked
queue and saves the registers that are given. -/
def blockRunning (programCounter value : Int) : Action Machine Int := do
  let slot ← requireRunning
  update slot (·.block programCounter value)
  modify fun m =>
    { m with
      scheduler.blocked := m.scheduler.blocked ++ [slot]
      scheduler.running := none }
  return slot

/-- Ends the running process and frees its slot. -/
def terminateRunning : Action Machine Int := do
  let slot ← requireRunning
  update slot (·.move .terminate)
  modify fun m => { m with scheduler.running := none }
  return slot

/-- Moves the front of the blocked queue to the end of the ready queue. -/
def unblock : Action Machine (Option Int) := do
  match (← get).scheduler.blocked with
  | [] => return none
  | slot :: rest =>
    modify fun m => { m with scheduler.blocked := rest }
    update slot (·.move .unblock)
    modify fun m => { m with scheduler.ready := m.scheduler.ready ++ [slot] }
    return some slot

/-- Loads the registers of the process in a slot into the CPU, which runs the program of the
process itself from then on. -/
def loadCpu (slot : Int) : Action Machine Unit := do
  let b ← lookUp slot
  modify fun m => { m with cpu := .ofBlock b }

def discardCpu (m : Machine) : Machine :=
  { m with cpu := .discarded }

end Machine
end Sharing
end Uniproc
