/-!
The states of a process and the moves between them.
-/

namespace Uniproc

/-- A terminated process is one that is no more: its place is free. -/
inductive ProcessState
  | ready
  | running
  | blocked
  | terminated
deriving DecidableEq, Repr

namespace ProcessState

def name : ProcessState → String
  | .ready => "ready"
  | .running => "running"
  | .blocked => "blocked"
  | .terminated => "terminated"

def capitals : ProcessState → String
  | .ready => "READY"
  | .running => "RUNNING"
  | .blocked => "BLOCKED"
  | .terminated => "TERMINATED"

def all : List ProcessState := [.ready, .running, .blocked, .terminated]

def ofName? (name : String) : Option ProcessState :=
  all.find? (·.name = name)

end ProcessState

/-- Each move leads from one state to one other. -/
inductive Transition
  | dispatch
  | block
  | unblock
  | terminate
deriving DecidableEq, Repr

namespace Transition

def name : Transition → String
  | .dispatch => "dispatch"
  | .block => "block"
  | .unblock => "unblock"
  | .terminate => "terminate"

def source : Transition → ProcessState
  | .dispatch => .ready
  | .block => .running
  | .unblock => .blocked
  | .terminate => .running

def target : Transition → ProcessState
  | .dispatch => .running
  | .block => .blocked
  | .unblock => .ready
  | .terminate => .terminated

end Transition
end Uniproc
