import Uniproc.EventLog
import Uniproc.Json.Basic
import Uniproc.Snapshot

/-!
Snapshots and events as JSON objects. What is not there is null.
-/

namespace Uniproc
namespace Json

def string (s : String) : Json :=
  .text (.ofString s)

def optional (n : Option Int) : Json :=
  (n.map Json.int).getD .null

def record (members : List (String × Json)) : Json :=
  .object (members.map fun m => (.ofString m.1, m.2))

end Json

open Json in
def ProcessView.toJson (v : ProcessView) : Json :=
  record [("slot", int v.slot), ("pid", int v.pid), ("parent_pid", optional v.parent),
    ("program_counter", int v.programCounter), ("value", int v.value),
    ("state", string v.state.name), ("priority", int v.priority),
    ("start_time", int v.startTime), ("time_used", int v.timeUsed)]

open Json in
def Snapshot.toJson (s : Snapshot) : Json :=
  record [("tick", int s.tick), ("running", optional s.running),
    ("ready", array (s.ready.map int)), ("blocked", array (s.blocked.map int)),
    ("processes", array (s.processes.map ProcessView.toJson))]

open Json in
def Event.toJson (e : Event) : Json :=
  record [("tick", int e.tick), ("level", string e.level.name), ("source", string e.source),
    ("message", string e.message), ("slot", optional e.slot), ("pid", optional e.pid)]

end Uniproc
