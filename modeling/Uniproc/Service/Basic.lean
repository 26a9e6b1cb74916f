import Uniproc.Console
import Uniproc.Json.Encode
import Uniproc.Text.Uppercase

/-!
The service: a console that is driven by requests and answers with JSON. One view carries out
commands, and two only look. How requests come to views, and what is read of them, is up to
the web framework in front.
-/

namespace Uniproc
namespace Service

/-- What a framework finds in the body of a request when it is asked for JSON. What is no JSON
counts as `absent`; reading it can also fail. -/
inductive Body
  | absent
  | failed
  | value (v : Json)

/-- The functions that answer requests. -/
inductive View
  | command
  | state
  | log
deriving DecidableEq, Repr

namespace View

/-- The path for which a view is registered. -/
def path : View → String
  | .command => "/api/command"
  | .state => "/api/state"
  | .log => "/api/log"

/-- The methods for which a view is registered. Where none are named it is there to look. -/
def methods : View → List String
  | .command => ["POST"]
  | .state | .log => ["GET"]

end View

/-- A request comes to a view, or the framework answers it with a status. -/
inductive Destination
  | view (v : View)
  | status (code : Nat)
deriving DecidableEq, Repr

/-- What a web framework makes of HTTP requests, without those that ask for a socket instead:
where they lead, and what the views can ask of them. -/
structure Framework where
  Request : Type
  method : Request → String
  path : Request → String
  destination : Request → Destination
  body : Request → Body
  parameter? : Request → String → Option String

/-- An answer; one without a JSON body is only a status. -/
structure Response where
  status : Nat
  body : Option Json := none

mutual

/-- Whether every integer in a value can be written. -/
def isWritable : Json → Bool
  | .int n => Numeral.isWritable n
  | .array items => areWritable items
  | .object members => areMembersWritable members
  | _ => true

def areWritable : List Json → Bool
  | [] => true
  | item :: rest => isWritable item && areWritable rest

def areMembersWritable : List (CodePoints × Json) → Bool
  | [] => true
  | (_, v) :: rest => isWritable v && areMembersWritable rest

end

/-- An answer with a JSON body, if it can be written. -/
def answer (status : Nat) (body : Json) : Response :=
  if isWritable body then ⟨status, some body⟩ else ⟨500, none⟩

def refuse (problem : String) : Response :=
  answer 400 (.record [("error", .string problem)])

/-- Answers a request for commands. A stopped console is told before a command that is
no text. -/
def command (files : FileView) (body : Body) (console : Console) : Response × Console :=
  let reply (output : List String) (console : Console) : Response × Console :=
    (answer 200 (.record [("output", .array (output.map Json.string)),
      ("stopped", .bool console.stopped)]), console)
  match body with
  | .failed => (⟨500, none⟩, console)
  | .value (.object members) =>
    match Json.member? members "command" with
    | none => (refuse "Missing 'command' field", console)
    | some value =>
      if console.stopped then reply [] console
      else match value with
        | .text s => match console.feed files s.toChars with
          | .ok output console => reply output console
          | .error _ console => (⟨500, none⟩, console)
        | _ => (refuse "'command' must be a string", console)
  | _ => (refuse "Missing 'command' field", console)

/-- The state of the simulation and its turnarounds. -/
def state (console : Console) : Response :=
  match console.simulation.average with
  | .error _ => ⟨500, none⟩
  | .ok average =>
    answer 200 (.record [("snapshot", console.simulation.snapshot.toJson),
      ("average_turnaround", .real average),
      ("terminated", .int console.simulation.turnaround.terminated),
      ("stopped", .bool console.stopped)])

/-- An integer among the parameters of a request, if it is given. -/
def integer (parameter? : String → Option String) (name : String) :
    Except String (Option Int) :=
  match parameter? name with
  | none => .ok none
  | some text => match Numeral.whole? text.toList with
    | some n => .ok (some n)
    | none => .error s!"{name} must be an integer"

/-- The query of the log that parameters ask for. -/
def logQuery (parameter? : String → Option String) : Except String EventLog.Query := do
  let name := (parameter? "min_level").getD Level.debug.name
  let minLevel ← match Level.ofName? (String.ofList (Text.upper name.toList)) with
    | some level => pure level
    | none => throw s!"Unknown level {Text.quoted name}"
  let slot ← integer parameter? "slot"
  let notBefore ← integer parameter? "since"
  let notAfter ← integer parameter? "until"
  return { minLevel, source := parameter? "source", slot, notBefore, notAfter }

def log (parameter? : String → Option String) (console : Console) : Response :=
  match logQuery parameter? with
  | .error problem => refuse problem
  | .ok q => answer 200 (.record
      [("entries", .array ((console.simulation.log.query q).map Event.toJson))])

/-- Answers a request. Only commands change the console. -/
def handle (f : Framework) (files : FileView) (r : f.Request) (console : Console) :
    Response × Console :=
  match f.destination r with
  | .status code => (⟨code, none⟩, console)
  | .view .command => command files (f.body r) console
  | .view .state => (state console, console)
  | .view .log => (log (f.parameter? r) console, console)

end Service
end Uniproc
