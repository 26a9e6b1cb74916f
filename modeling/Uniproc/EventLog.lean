import Uniproc.Fault

/-!
The event log: what the simulation has done, oldest first, and queries on it.
-/

namespace Uniproc

inductive Level
  | debug
  | info
  | warning
  | error
deriving DecidableEq, Repr

namespace Level

def name : Level → String
  | .debug => "DEBUG"
  | .info => "INFO"
  | .warning => "WARNING"
  | .error => "ERROR"

def severity : Level → Nat
  | .debug => 0
  | .info => 1
  | .warning => 2
  | .error => 3

def all : List Level := [.debug, .info, .warning, .error]

def ofName? (name : String) : Option Level :=
  all.find? (·.name = name)

/-- Names are upper case. -/
def ofName (name : String) : Except Fault Level :=
  match ofName? name with
  | some level => .ok level
  | none => .error (.unknownLevel name)

end Level

/-- Something that happened at a tick, told by a part of the simulator. An event about
a process has the slot and the number of it. -/
structure Event where
  tick : Int
  level : Level
  source : String
  message : String
  slot : Option Int := none
  pid : Option Int := none
deriving DecidableEq, Repr

def Event.text (e : Event) : Except Numeral.Limit String := do
  let place ← match e.slot with
    | none => pure ""
    | some slot =>
      let slot ← Numeral.text slot
      let pid ← match e.pid with
        | none => pure "None"
        | some pid => Numeral.text pid
      pure s!" [slot {slot} pid {pid}]"
  let tick ← Numeral.text e.tick
  return s!"t={tick} {e.level.name} {e.source}{place}: {e.message}"

structure EventLog where
  events : Array Event := #[]
deriving DecidableEq, Repr, Inhabited

namespace EventLog

/-- The events, oldest first. -/
def toList (log : EventLog) : List Event :=
  log.events.toList

def size (log : EventLog) : Nat :=
  log.events.size

def record (log : EventLog) (e : Event) : EventLog :=
  ⟨log.events.push e⟩

/-- Which events to keep: those at least as severe as `minLevel`, from one source,
about one slot, and inside a window of ticks with both its ends. -/
structure Query where
  minLevel : Level := .debug
  source : Option String := none
  slot : Option Int := none
  notBefore : Option Int := none
  notAfter : Option Int := none
deriving DecidableEq, Repr, Inhabited

def Query.accepts (q : Query) (e : Event) : Bool :=
  q.minLevel.severity ≤ e.level.severity
    && q.source.all (e.source = ·)
    && q.slot.all (e.slot = some ·)
    && q.notBefore.all (· ≤ e.tick)
    && q.notAfter.all (e.tick ≤ ·)

def query (log : EventLog) (q : Query) : List Event :=
  log.toList.filter q.accepts

@[simp] theorem toList_record (log : EventLog) (e : Event) :
    (log.record e).toList = log.toList ++ [e] := by
  simp [record, toList]

end EventLog
end Uniproc
