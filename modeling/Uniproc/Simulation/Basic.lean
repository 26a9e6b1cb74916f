import Uniproc.EventLog
import Uniproc.Machine.Basic
import Uniproc.Program.Loader
import Uniproc.Settings.Basic
import Uniproc.Snapshot
import Uniproc.Turnaround

/-!
The state of a simulation: one machine, one clock, a log and the turnarounds so far.
-/

namespace Uniproc

structure Simulation where
  settings : Settings
  loader : Loader
  machine : Machine
  log : EventLog := {}
  turnaround : Turnaround := {}
  tick : Nat := 0
  booted : Bool := false
deriving DecidableEq, Repr, Inhabited

namespace Simulation

/-- A simulation that has not been booted. Settings are in range when they were
validated. The log is always a new one: a log that has events already is not taken over. -/
def ofLoader (settings : Settings) (loader : Loader) : Except Fault Simulation :=
  (fun machine => { settings, loader, machine }) <$> Machine.ofCapacity settings.tableCapacity

/-- A simulation that loads programs from where it runs, as long as its settings
allow. -/
def ofSettings (settings : Settings) : Except Fault Simulation :=
  ofLoader settings { limit := settings.maxProgramLength }

def average (sim : Simulation) : Except Fault Double :=
  sim.turnaround.average

def viewBlock (slot : Nat) (b : ControlBlock) : ProcessView where
  slot := slot
  pid := b.pid
  parent := b.parent
  programCounter := b.programCounter
  value := b.value
  state := b.state
  priority := b.priority
  startTime := b.startTime
  timeUsed := b.timeUsed

/-- The state as it is now, with the live slots in order. -/
def snapshot (sim : Simulation) : Snapshot where
  tick := sim.tick
  running := sim.machine.scheduler.running
  ready := sim.machine.scheduler.ready
  blocked := sim.machine.scheduler.blocked
  processes := sim.machine.table.slots.zipIdx.filterMap fun (b, slot) =>
    if b.isFree then none else some (viewBlock slot b)

/-- An action of the machine. -/
def onMachine {α : Type} (action : Action Machine α) : Action Simulation α :=
  Action.onPart machine (fun m sim => { sim with machine := m }) action

def record (e : Event) : Action Simulation Unit :=
  modify fun sim => { sim with log := sim.log.record e }

/-- Logs an event of this tick that is about no process. -/
def note (level : Level) (source message : String) : Action Simulation Unit := do
  record { tick := (← get).tick, level, source, message }

/-- Logs an event of this tick about the process in a slot, or the last one there. -/
def noteSlot (level : Level) (source message : String) (slot : Int) : Action Simulation Unit := do
  let b ← onMachine (Machine.lookUp slot)
  record { tick := (← get).tick, level, source, message, slot := some slot, pid := some b.pid }

/-- Loads a program as the first process and gives it the CPU. -/
def boot (program : Program) : Action Simulation Unit := do
  if (← get).booted then throw (.ofRefusal .alreadyBooted)
  let startTime : Int := (← get).tick
  onMachine do
    Machine.spawn initSlot { pid := initPid, program, startTime, state := .running }
    Machine.start initSlot
    Machine.loadCpu initSlot
  modify fun sim => { sim with booted := true }
  noteSlot .info "boot" s!"Init loaded with {program.length} instructions" initSlot

def requireBooted : Action Simulation Unit := do
  unless (← get).booted do throw (.ofRefusal .notBooted)

end Simulation
end Uniproc
