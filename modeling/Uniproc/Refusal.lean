import Uniproc.ProcessState

/-!
Requests that come at the wrong moment.
-/

namespace Uniproc

inductive Refusal
  | occupied (pid : Int) (state : ProcessState)
  | wrongState (move : Transition) (pid : Int) (state : ProcessState)
  | cpuBusy (slot running : Int)
  | notRunning (slot : Int) (state : ProcessState)
  | notReady (slot : Int) (state : ProcessState)
  | alreadyQueued (slot : Int)
  | nothingRunning
  | notBooted
  | alreadyBooted
  | consoleNotBooted
deriving DecidableEq, Repr

namespace Refusal

def message : Refusal → String
  | .occupied pid state => s!"Cannot spawn: slot holds process {pid} ({state.name})"
  | .wrongState move pid state =>
    s!"Cannot {move.name}: process {pid} is {state.name}, expected {move.source.name}"
  | .cpuBusy slot running => s!"Cannot start slot {slot}: slot {running} is running"
  | .notRunning slot state => s!"Cannot start slot {slot}: state is {state.name}"
  | .notReady slot state => s!"Cannot admit slot {slot}: state is {state.name}, expected ready"
  | .alreadyQueued slot => s!"Cannot admit slot {slot}: already in the ready queue"
  | .nothingRunning => "No process is currently running"
  | .notBooted => "Simulation is not booted"
  | .alreadyBooted => "Simulation already booted"
  | .consoleNotBooted => "Console requires a booted simulation"

/-- The numbers that the message writes. -/
def numbers : Refusal → List Int
  | .occupied pid _ | .wrongState _ pid _ => [pid]
  | .cpuBusy slot running => [slot, running]
  | .notRunning slot _ | .notReady slot _ | .alreadyQueued slot => [slot]
  | .nothingRunning | .notBooted | .alreadyBooted | .consoleNotBooted => []

end Refusal
end Uniproc
