import Uniproc.Program.Basic

/-!
Control blocks. A control block is one place of the process table: the saved state
of the process in it, or what the last one left behind.
-/

namespace Uniproc

def ProcessState.ofName (name : String) : Except Fault ProcessState :=
  match ofName? name with
  | some state => .ok state
  | none => .error (.unknownState name)

structure ControlBlock where
  pid : Int := -1
  parent : Option Int := none
  program : Program := {}
  programCounter : Int := 0
  value : Int := 0
  priority : Int := 0
  state : ProcessState := .terminated
  startTime : Int := 0
  timeUsed : Int := 0
deriving DecidableEq, Repr, Inhabited

namespace ControlBlock

def isFree (b : ControlBlock) : Bool :=
  b.state = .terminated

/-- Puts a new process into a free place. It has not used any time. -/
def spawn (b new : ControlBlock) : Except Fault ControlBlock :=
  if b.isFree then .ok { new with timeUsed := 0 }
  else .error (.ofRefusal (.occupied b.pid b.state))

/-- Makes a move, which is possible from its source only. -/
def move (t : Transition) (b : ControlBlock) : Except Fault ControlBlock :=
  if b.state = t.source then .ok { b with state := t.target }
  else .error (.ofRefusal (.wrongState t b.pid b.state))

/-- Blocks the process and saves its registers. -/
def block (programCounter value : Int) (b : ControlBlock) : Except Fault ControlBlock :=
  (fun b => { b with programCounter, value }) <$> b.move .block

def display (b : ControlBlock) : Except Numeral.Limit String :=
  (fun pid => s!"ProcessControlBlock(pid={pid}, state={b.state.name})") <$> Numeral.text b.pid

end ControlBlock
end Uniproc
