import Uniproc.Sharing.Machine
import Uniproc.Simulation.Step

/-!
Steps over a heap of programs. A fork gives the child a copy of its parent's program. A replacement
changes the program of the running process where it is, and nobody gets another one for it.
-/

namespace Uniproc
namespace Sharing

structure Simulation where
  settings : Settings
  loader : Loader
  machine : Machine
  log : EventLog := {}
  turnaround : Turnaround := {}
  tick : Nat := 0
  booted : Bool := false
deriving DecidableEq, Repr, Inhabited

namespace Simulation

/-- A simulation that has not been booted. -/
def ofLoader (settings : Settings) (loader : Loader) : Except Fault Simulation :=
  (fun machine => { settings, loader, machine }) <$> Machine.ofCapacity settings.tableCapacity

def onMachine {α : Type} (action : Action Machine α) : Action Simulation α :=
  Action.onPart machine (fun m sim => { sim with machine := m }) action

def onHeap {α : Type} (action : Action Heap α) : Action Simulation α :=
  onMachine (Machine.onHeap action)

def modifyMachine (f : Machine → Machine) : Action Simulation Unit :=
  modify fun sim => { sim with machine := f sim.machine }

def record (e : Event) : Action Simulation Unit :=
  modify fun sim => { sim with log := sim.log.record e }

/-- Logs an event of this tick that is about no process. -/
def note (level : Level) (source message : String) : Action Simulation Unit := do
  record { tick := (← get).tick, level, source, message }

/-- Logs an event of this tick about the process in a slot, or the last one there. -/
def noteSlot (level : Level) (source message : String) (slot : Int) : Action Simulation Unit := do
  let b ← onMachine (Machine.lookUp slot)
  record { tick := (← get).tick, level, source, message, slot := some slot, pid := some b.pid }

/-- Makes a program the first process and gives it the CPU. -/
def boot (program : Reference) : Action Simulation Unit := do
  if (← get).booted then throw (.ofRefusal .alreadyBooted)
  let sim ← get
  let startTime : Int := sim.tick
  let length := (sim.machine.heap.program program).length
  onMachine do
    Machine.spawn initSlot { pid := initPid, program, startTime, state := .running }
    Machine.start initSlot
    Machine.loadCpu initSlot
  modify fun sim => { sim with booted := true }
  noteSlot .info "boot" s!"Init loaded with {length} instructions" initSlot

def requireBooted : Action Simulation Unit := do
  unless (← get).booted do throw (.ofRefusal .notBooted)

def advanceClock : Action Simulation Unit :=
  modify fun sim => { sim with tick := sim.tick + 1 }

def setProgramCounter (n : Int) : Action Simulation Unit :=
  modifyMachine fun m => { m with cpu.programCounter := n }

def setValue (f : Int → Int) : Action Simulation Unit :=
  modifyMachine fun m => { m with cpu.value := f m.cpu.value }

/-- Gives an idle CPU to the front of the ready queue. -/
def dispatch : Action Simulation Unit := do
  match ← onMachine Machine.dispatch with
  | none => return
  | some slot =>
    onMachine (Machine.loadCpu slot)
    let number ← Action.write (Numeral.text slot)
    noteSlot .debug "scheduler" s!"Process {number} dispatched" slot

/-- Ends the running process, whose turnaround is counted up to this tick. -/
def finish (slot : Int) : Action Simulation Unit := do
  let b ← onMachine (Machine.lookUp slot)
  let now : Int := (← get).tick
  modify fun sim => { sim with turnaround := sim.turnaround.record b.startTime now }
  let _ ← onMachine Machine.terminateRunning
  modifyMachine .discardCpu
  let number ← Action.write (Numeral.text slot)
  let pid ← Action.write (Numeral.text b.pid)
  let turnaround ← Action.write (Numeral.text (Turnaround.ofTicks b.startTime now))
  noteSlot .debug "scheduler"
    s!"Process {number} (pid {pid}) terminated, turnaround {turnaround}" slot

/-- Makes a child that goes on after the fork with a copy of the program and of the
registers, and lets the parent skip `offset` instructions. Without a free slot nothing
is made. -/
def fork (slot offset : Int) : Action Simulation String := do
  let sim ← get
  let parent ← onMachine (Machine.lookUp slot)
  match sim.machine.table.allocate with
  | .error fault =>
    let reason := fault.message.toString
    noteSlot .warning "cpu" reason slot
    let heading ← Action.write (Uniproc.Simulation.heading sim.tick slot)
    return s!"{heading} could not fork: {reason}"
  | .ok child =>
    let cpu := sim.machine.cpu
    let pid ← onMachine Machine.drawPid
    let program ← onHeap (Heap.copy parent.program)
    onMachine (Machine.spawn child
      { pid, parent := some parent.pid, program,
        programCounter := cpu.programCounter, value := cpu.value, priority := parent.priority,
        startTime := sim.tick, state := .ready })
    onMachine (Machine.enqueue child)
    setProgramCounter (max 0 (cpu.programCounter + offset))
    let tick ← Action.write (Numeral.text sim.tick)
    let pid ← Action.write (Numeral.text pid)
    let number ← Action.write (Numeral.text slot)
    return s!"Time: {tick}, New Process {pid} created, Process {number} continues"

/-- Puts the instructions of another file into the running program. It is empty while the file is
read, and stays so if that fails, unless the settings bring back what a copy has kept. Without a
program nothing is put anywhere; a running process has one. -/
def replace (files : FileView) (slot : Int) (path : String) : Action Simulation String := do
  let sim ← get
  let program := sim.machine.cpu.program
  let previous ← onHeap (program.mapM Heap.copy)
  onHeap (program.forM Heap.clear)
  match sim.loader.load files path with
  | .error (.load cause) =>
    if sim.settings.revert then
      onHeap (program.forM fun p => previous.forM (Heap.replaceWith p))
    else setProgramCounter (sim.machine.cpu.programCounter + 1)
    noteSlot .error "loader" s!"Replace failed: {cause.message}" slot
    let heading ← Action.write (Uniproc.Simulation.heading sim.tick slot)
    return s!"{heading} failed to replace program: {cause.message}"
  | .error fault => throw fault
  | .ok loaded =>
    let replacement ← onHeap (Heap.make loaded.instructions)
    onHeap (program.forM fun p => Heap.replaceWith p replacement)
    setProgramCounter 0
    let heading ← Action.write (Uniproc.Simulation.heading sim.tick slot)
    return s!"{heading} replaced with new program"

/-- What an instruction does, and the report of it, which is `plain` for most of them. -/
def carryOut (files : FileView) (slot : Int) (i : Instruction) (plain : String) :
    Action Simulation String := do
  match i.opcode with
  | .set => setValue (fun _ => i.number); return plain
  | .add => setValue (· + i.number); return plain
  | .subtract => setValue (· - i.number); return plain
  | .block =>
    let cpu := (← get).machine.cpu
    let _ ← onMachine (Machine.blockRunning cpu.programCounter cpu.value)
    modifyMachine .discardCpu
    return plain
  | .halt => finish slot; return plain
  | .fork => fork slot i.number
  | .replace => replace files slot i.path

/-- Carries out an instruction that has been fetched and tells what it did. -/
def execute (files : FileView) (slot : Int) (i : Instruction) : Action Simulation String := do
  let heading ← Action.write (Uniproc.Simulation.heading (← get).tick slot)
  let text ← Action.write i.text
  let message ← carryOut files slot i s!"{heading} executed instruction {text}"
  noteSlot .info "cpu" message slot
  return message

/-- The next instruction of the program that the CPU runs, if one is left. -/
def fetch (sim : Simulation) : Except Fault (Option Instruction) :=
  let cpu := sim.machine.cpu
  let program := (cpu.program.map sim.machine.heap.program).getD {}
  if cpu.programCounter < program.length then some <$> program.get cpu.programCounter
  else .ok none

/-- One step of the process in the running slot, up to the clock's advance. The
program counter moves on before the instruction takes effect. -/
def runSlot (files : FileView) (slot : Int) : Action Simulation StepReport := do
  let sim ← get
  let b ← onMachine (Machine.lookUp slot)
  match ← Action.ofExcept sim.fetch with
  | some i =>
    setProgramCounter (sim.machine.cpu.programCounter + 1)
    let message ← execute files slot i
    return ⟨sim.tick, some slot, some b.pid, some i, message⟩
  | none =>
    finish slot
    let heading ← Action.write (Uniproc.Simulation.heading sim.tick slot)
    let message := s!"{heading} reached end of program without E operation"
    noteSlot .warning "cpu" message slot
    return ⟨sim.tick, some slot, some b.pid, none, message⟩

/-- A step without a running process, which only lets time pass. -/
def idle : Action Simulation StepReport := do
  let tick := (← get).tick
  note .warning "cpu" Uniproc.Simulation.noProcessRunning
  advanceClock
  return ⟨tick, none, none, none, Uniproc.Simulation.noProcessRunning⟩

def step (files : FileView) : Action Simulation StepReport := do
  requireBooted
  match (← get).machine.scheduler.running with
  | none => idle
  | some slot =>
    let report ← runSlot files slot
    advanceClock
    dispatch
    return report

/-- Moves the front of the blocked queue to the ready queue. The CPU is given to a
ready process if it is idle, whether one was blocked or not. -/
def unblock : Action Simulation (Option Int) := do
  requireBooted
  let slot ← onMachine Machine.unblock
  if let some slot := slot then
    let number ← Action.write (Numeral.text slot)
    noteSlot .debug "scheduler" s!"Process {number} unblocked" slot
  dispatch
  return slot

/-- Boots with a new program, which holds the same. -/
def bootNew (program : Program) : Action Simulation Unit := do
  boot (← onHeap (Heap.make program.instructions))

/-- A simulation that has just been booted. -/
def launch (settings : Settings) (loader : Loader) (program : Program) :
    Except Fault Simulation := do
  let sim ← ofLoader settings loader
  match bootNew program sim with
  | .ok _ sim => .ok sim
  | .error fault _ => .error fault

end Simulation
end Sharing
end Uniproc
