import Uniproc.Simulation.Step

/-!
Starting a simulation from files: one with the first program and perhaps one with
settings.
-/

namespace Uniproc
namespace Simulation

/-- A simulation that has just been booted. -/
def launch (settings : Settings) (loader : Loader) (program : Program) :
    Except Fault Simulation := do
  let sim ← ofLoader settings loader
  match boot program sim with
  | .ok _ sim => .ok sim
  | .error fault _ => .error fault

/-- A booted simulation. The settings are read before the program. -/
def start (nesting : Json.Nesting) (files : FileView) (program : Path)
    (settings : Option Path) : Except Fault Simulation := do
  let settings ← Settings.load nesting files settings
  let loader : Loader := { limit := settings.maxProgramLength }
  let program ← loader.load files program.toString
  launch settings loader program

/-- The file that the next step reads, if it replaces a program. -/
def nextFile? (sim : Simulation) : Option Path :=
  match sim.machine.scheduler.running, sim.fetch with
  | some _, .ok (some i) =>
    if i.opcode = .replace then some (sim.loader.resolve i.path) else none
  | _, _ => none

end Simulation
end Uniproc
