import Uniproc.Numeral
import Uniproc.ProcessState

/-!
Snapshots of the simulation and the state report made from one.
-/

namespace Uniproc

/-- A live slot. -/
structure ProcessView where
  slot : Int
  pid : Int
  parent : Option Int
  programCounter : Int
  value : Int
  state : ProcessState
  priority : Int
  startTime : Int
  timeUsed : Int
deriving DecidableEq, Repr

structure Snapshot where
  tick : Int
  running : Option Int
  ready : List Int
  blocked : List Int
  processes : List ProcessView
deriving DecidableEq, Repr

/-- Stands in the report for a number that is not there. -/
def missing : Int := -1

def ProcessView.line (v : ProcessView) : Except Numeral.Limit String := do
  let slot ← Numeral.text v.slot
  let pid ← Numeral.text v.pid
  let parent ← Numeral.text (v.parent.getD missing)
  let programCounter ← Numeral.text v.programCounter
  let value ← Numeral.text v.value
  let priority ← Numeral.text v.priority
  let startTime ← Numeral.text v.startTime
  let timeUsed ← Numeral.text v.timeUsed
  return s!"PCB {slot}: PID={pid}, ParentPID={parent}, PC={programCounter}, Value={value}, " ++
    s!"State={v.state.capitals}, Priority={priority}, StartTime={startTime}, TimeUsed={timeUsed}"

namespace Snapshot

/-- A queue, front first, after its title. -/
def queueLine (title : String) (queue : List Int) : Except Numeral.Limit String := do
  let slots ← queue.mapM Numeral.text
  return " ".intercalate (title :: slots)

def lines (s : Snapshot) : Except Numeral.Limit (List String) := do
  let tick ← Numeral.text s.tick
  let running ← Numeral.text (s.running.getD missing)
  let ready ← queueLine "Ready queue:" s.ready
  let blocked ← queueLine "Blocked queue:" s.blocked
  let processes ← s.processes.mapM ProcessView.line
  return [s!"Current system state at time {tick}:", s!"Running process: {running}", ready, blocked]
    ++ processes

/-- The state report. -/
def text (s : Snapshot) : Except Numeral.Limit String :=
  "\n".intercalate <$> s.lines

end Snapshot
end Uniproc
