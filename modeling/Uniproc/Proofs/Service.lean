import Uniproc.Proofs.Feeding
import Uniproc.Service.Basic

/-!
What requests do. A console that is driven by requests goes where their commands lead it, and
the answers to these are what the console shows; no other request changes anything.
-/

namespace Uniproc
namespace Service

/-- The text that goes by the name of a command in a JSON object. -/
def Body.text? : Body → Option (List Char)
  | .value (.object members) =>
    match Json.member? members "command" with
    | some (.text s) => some s.toChars
    | _ => none
  | _ => none

/-- The answer to commands, and the console after them. -/
def reply : EStateM.Result Fault Console (List String) → Response × Console
  | .ok outputs console =>
    (⟨200, some (.record [("output", .array (outputs.map Json.string)),
      ("stopped", .bool console.stopped)])⟩, console)
  | .error _ console => (⟨500, none⟩, console)

namespace Framework

variable (f : Framework)

/-- The text of commands that a request posts, if it is to be carried out. -/
def text? (r : f.Request) : Option (List Char) :=
  if f.method r = "POST" ∧ f.path r = "/api/command" then (f.body r).text? else none

end Framework

variable {f : Framework} {files : FileView} {r : f.Request} {console : Console}
  {text : List Char}

/-- A request whose path and body need no reading. -/
structure PlainRequest where
  method : String
  path : String
  body : Body := .absent

/-- Where a request leads whose path is taken as it stands. -/
def PlainRequest.destination (r : PlainRequest) : Destination :=
  match [View.command, .state, .log].find? (·.path = r.path) with
  | none => .status 404
  | some v =>
    if r.method ∈ v.methods ∨ r.method = "HEAD" ∧ "GET" ∈ v.methods then .view v
    else if r.method = "OPTIONS" then .status 200
    else .status 405

/-- A framework for requests that come without parameters. -/
def plain : Framework where
  Request := PlainRequest
  method := PlainRequest.method
  path := PlainRequest.path
  destination := PlainRequest.destination
  body := PlainRequest.body
  parameter? _ _ := none

end Service
end Uniproc
