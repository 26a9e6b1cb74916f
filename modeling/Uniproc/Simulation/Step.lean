import Uniproc.Simulation.Basic

/-!
Steps. One step executes one instruction of the running process, lets the clock
advance by one and gives the CPU to the next process if it has become idle.
-/

namespace Uniproc

/-- What a step did. Without a slot no process was running; without an instruction the
process had none left. -/
structure StepReport where
  tick : Nat
  slot : Option Int
  pid : Option Int
  instruction : Option Instruction
  message : String
deriving DecidableEq, Repr

def StepReport.isIdle (r : StepReport) : Bool :=
  r.slot.isNone

namespace Simulation

def noProcessRunning : String := "No processes are running"

/-- The start of a message about a process at this tick. -/
def heading (tick : Nat) (slot : Int) : Except Numeral.Limit String := do
  let tick ← Numeral.text tick
  let slot ← Numeral.text slot
  return s!"Time: {tick}, Process {slot}"

def advanceClock : Action Simulation Unit :=
  modify fun sim => { sim with tick := sim.tick + 1 }

def modifyMachine (f : Machine → Machine) : Action Simulation Unit :=
  modify fun sim => { sim with machine := f sim.machine }

def setProgramCounter (n : Int) : Action Simulation Unit :=
  modifyMachine fun m => { m with cpu.programCounter := n }

def setValue (f : Int → Int) : Action Simulation Unit :=
  modifyMachine fun m => { m with cpu.value := f m.cpu.value }

/-- Gives an idle CPU to the front of the ready queue. -/
def dispatch : Action Simulation Unit := do
  match ← onMachine Machine.dispatch with
  | none => return
  | some slot =>
    onMachine (Machine.loadCpu slot)
    let number ← Action.write (Numeral.text slot)
    noteSlot .debug "scheduler" s!"Process {number} dispatched" slot

/-- Ends the running process, whose turnaround is counted up to this tick. -/
def finish (slot : Int) : Action Simulation Unit := do
  let b ← onMachine (Machine.lookUp slot)
  let now : Int := (← get).tick
  modify fun sim => { sim with turnaround := sim.turnaround.record b.startTime now }
  let _ ← onMachine Machine.terminateRunning
  modifyMachine .discardCpu
  let number ← Action.write (Numeral.text slot)
  let pid ← Action.write (Numeral.text b.pid)
  let turnaround ← Action.write (Numeral.text (Turnaround.ofTicks b.startTime now))
  noteSlot .debug "scheduler"
    s!"Process {number} (pid {pid}) terminated, turnaround {turnaround}" slot

/-- Makes a child that goes on after the fork with a copy of the program and of the
registers, and lets the parent skip `offset` instructions. Without a free slot nothing
is made. -/
def fork (slot offset : Int) : Action Simulation String := do
  let sim ← get
  let parent ← onMachine (Machine.lookUp slot)
  match sim.machine.table.allocate with
  | .error fault =>
    let reason := fault.message.toString
    noteSlot .warning "cpu" reason slot
    let heading ← Action.write (heading sim.tick slot)
    return s!"{heading} could not fork: {reason}"
  | .ok child =>
    let cpu := sim.machine.cpu
    let pid ← onMachine Machine.drawPid
    onMachine (Machine.spawn child
      { pid, parent := some parent.pid, program := parent.program,
        programCounter := cpu.programCounter, value := cpu.value, priority := parent.priority,
        startTime := sim.tick, state := .ready })
    onMachine (Machine.enqueue child)
    setProgramCounter (max 0 (cpu.programCounter + offset))
    let tick ← Action.write (Numeral.text sim.tick)
    let pid ← Action.write (Numeral.text pid)
    let number ← Action.write (Numeral.text slot)
    return s!"Time: {tick}, New Process {pid} created, Process {number} continues"

/-- Puts the program of another file in the place of the running one. A program that
cannot be loaded leaves an empty one, and the next instruction is skipped, unless the
settings keep the old one. As in `fetch`, there is a program to be replaced. -/
def replace (files : FileView) (slot : Int) (path : String) : Action Simulation String := do
  let sim ← get
  let previous := sim.machine.cpu.program.getD {}
  modifyMachine (.replaceProgram {})
  match sim.loader.load files path with
  | .error (.load cause) =>
    if sim.settings.revert then modifyMachine (.replaceProgram previous)
    else setProgramCounter (sim.machine.cpu.programCounter + 1)
    noteSlot .error "loader" s!"Replace failed: {cause.message}" slot
    let heading ← Action.write (heading sim.tick slot)
    return s!"{heading} failed to replace program: {cause.message}"
  | .error fault => throw fault
  | .ok replacement =>
    modifyMachine (.replaceProgram replacement)
    setProgramCounter 0
    let heading ← Action.write (heading sim.tick slot)
    return s!"{heading} replaced with new program"

/-- What an instruction does, and the report of it, which is `plain` for most of them. -/
def carryOut (files : FileView) (slot : Int) (i : Instruction) (plain : String) :
    Action Simulation String := do
  match i.opcode with
  | .set => setValue (fun _ => i.number); return plain
  | .add => setValue (· + i.number); return plain
  | .subtract => setValue (· - i.number); return plain
  | .block =>
    let cpu := (← get).machine.cpu
    let _ ← onMachine (Machine.blockRunning cpu.programCounter cpu.value)
    modifyMachine .discardCpu
    return plain
  | .halt => finish slot; return plain
  | .fork => fork slot i.number
  | .replace => replace files slot i.path

/-- Carries out an instruction that has been fetched and tells what it did. -/
def execute (files : FileView) (slot : Int) (i : Instruction) : Action Simulation String := do
  let heading ← Action.write (heading (← get).tick slot)
  let text ← Action.write i.text
  let message ← carryOut files slot i s!"{heading} executed instruction {text}"
  noteSlot .info "cpu" message slot
  return message

/-- The next instruction of the program that the CPU runs, if one is left. The CPU is loaded
as long as a slot is running (`Machine.Scheduled.isLoaded_eq`), and nothing is fetched when
none is; so there is a program. -/
def fetch (sim : Simulation) : Except Fault (Option Instruction) :=
  let cpu := sim.machine.cpu
  let program := cpu.program.getD {}
  if cpu.programCounter < program.length then some <$> program.get cpu.programCounter
  else .ok none

/-- One step of the process in the running slot, up to the clock's advance. The
program counter moves on before the instruction takes effect. -/
def runSlot (files : FileView) (slot : Int) : Action Simulation StepReport := do
  let sim ← get
  let b ← onMachine (Machine.lookUp slot)
  match ← Action.ofExcept sim.fetch with
  | some i =>
    setProgramCounter (sim.machine.cpu.programCounter + 1)
    let message ← execute files slot i
    return ⟨sim.tick, some slot, some b.pid, some i, message⟩
  | none =>
    finish slot
    let heading ← Action.write (heading sim.tick slot)
    let message := s!"{heading} reached end of program without E operation"
    noteSlot .warning "cpu" message slot
    return ⟨sim.tick, some slot, some b.pid, none, message⟩

/-- A step without a running process, which only lets time pass. -/
def idle : Action Simulation StepReport := do
  let tick := (← get).tick
  note .warning "cpu" noProcessRunning
  advanceClock
  return ⟨tick, none, none, none, noProcessRunning⟩

def step (files : FileView) : Action Simulation StepReport := do
  requireBooted
  match (← get).machine.scheduler.running with
  | none => idle
  | some slot =>
    let report ← runSlot files slot
    advanceClock
    dispatch
    return report

/-- Moves the front of the blocked queue to the ready queue. The CPU is given to a
ready process if it is idle, whether one was blocked or not. -/
def unblock : Action Simulation (Option Int) := do
  requireBooted
  let slot ← onMachine Machine.unblock
  if let some slot := slot then
    let number ← Action.write (Numeral.text slot)
    noteSlot .debug "scheduler" s!"Process {number} unblocked" slot
  dispatch
  return slot

end Simulation
end Uniproc
