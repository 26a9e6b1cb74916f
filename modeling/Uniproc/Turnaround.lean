import Uniproc.Double.Fixed
import Uniproc.Fault

/-!
Turnaround times. The turnaround of a process is the number of ticks from the one on
which it was made to the one of its last instruction, both counted.
-/

namespace Uniproc

/-- The sum of the turnarounds of all processes that have ended, and their number. -/
structure Turnaround where
  total : Int := 0
  terminated : Int := 0
deriving DecidableEq, Repr, Inhabited

namespace Turnaround

def ofTicks (startTime endTick : Int) : Int :=
  endTick + 1 - startTime

def record (t : Turnaround) (startTime endTick : Int) : Turnaround where
  total := t.total + ofTicks startTime endTick
  terminated := t.terminated + 1

/-- The mean turnaround, which is 0 before any process has ended. -/
def average (t : Turnaround) : Except Fault Double :=
  if t.terminated = 0 then .ok .zero
  else match Double.quotient? t.total t.terminated with
    | some x => .ok x
    | none => .error .averageTooLarge

/-- The report on a mean turnaround, with six decimal places. -/
def report (average : Double) : String :=
  s!"Average turnaround time: {average.fixed 6}"

end Turnaround
end Uniproc
