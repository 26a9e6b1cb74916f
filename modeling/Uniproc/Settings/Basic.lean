import Uniproc.Fault
import Uniproc.Json.Display
import Uniproc.Json.Reader
import Uniproc.Text.Lines

/-!
Settings of a simulation: three numbers and switches, each with a default, which a
JSON object can override.
-/

namespace Uniproc

/-- `revert` is whether a process keeps its program when it cannot be replaced. -/
structure Settings where
  tableCapacity : Int := 10
  maxProgramLength : Int := 100
  revert : Bool := false
deriving DecidableEq, Repr, Inhabited

namespace Settings

inductive Key
  | tableCapacity
  | maxProgramLength
  | revert
deriving DecidableEq, Repr

namespace Key

def name : Key → String
  | .tableCapacity => "table_capacity"
  | .maxProgramLength => "max_program_length"
  | .revert => "revert_on_failed_replace"

def kind : Key → Kind
  | .tableCapacity | .maxProgramLength => .int
  | .revert => .bool

def all : List Key := [.tableCapacity, .maxProgramLength, .revert]

def ofName? (name : CodePoints) : Option Key :=
  all.find? fun key => CodePoints.ofString key.name == name

end Key

/-- Settings whose numbers are in range. -/
def validate (s : Settings) : Except Fault Settings :=
  if s.tableCapacity < 1 then .error (.settings (.tooSmall Key.tableCapacity.name))
  else if s.maxProgramLength < 1 then .error (.settings (.tooSmall Key.maxProgramLength.name))
  else .ok s

/-- The settings with one of them overridden. A value of a wrong kind is shown as far as
`levels` values may be inside each other. -/
def override (s : Settings) (levels : Nat) (key : Key) (v : Json) : Except Fault Settings :=
  match key, v with
  | .tableCapacity, .int n => .ok { s with tableCapacity := n }
  | .maxProgramLength, .int n => .ok { s with maxProgramLength := n }
  | .revert, .bool b => .ok { s with revert := b }
  | key, v => match v.display levels with
    | .ok got => .error (.settings (.wrongKind key.name key.kind got))
    | .error cause => .error (.ofDisplayError cause)

/-- The settings with several overridden in order. Names that are no key are left out. -/
def overrideAll (s : Settings) (levels : Nat) :
    List (CodePoints × Json) → Except Fault Settings
  | [] => .ok s
  | (name, v) :: rest =>
    match Key.ofName? name with
    | none => s.overrideAll levels rest
    | some key => match s.override levels key v with
      | .error fault => .error fault
      | .ok s => s.overrideAll levels rest

def unknownKeys (members : List (CodePoints × Json)) : List CodePoints :=
  ((members.map (·.1)).filter fun name => (Key.ofName? name).isNone).mergeSort CodePoints.le

/-- The settings that the members of an object describe. All unknown keys are reported
before any value is looked at. -/
def ofMembers (levels : Nat) (members : List (CodePoints × Json)) : Except Fault Settings :=
  match unknownKeys members with
  | [] => do (← overrideAll {} levels members).validate
  | keys => .error (.settings (.unknownKeys keys))

/-- The settings that a text of JSON describes. -/
def ofText (nesting : Json.Nesting) (text : List Char) : Except Fault Settings :=
  match Json.read nesting.read text with
  | .error (.malformed fault) => .error (.settings (.malformed fault))
  | .error (.digits limit) => .error (.numeral limit)
  | .error (.tooDeep container) => .error (.tooDeep container)
  | .ok (.object members) => ofMembers nesting.shown members
  | .ok _ => .error (.settings .notObject)

/-- The settings in the text of a file. -/
def ofBytes (nesting : Json.Nesting) (bytes : List UInt8) : Except Fault Settings :=
  match Utf8.decode bytes with
  | .error fault => .error (.settings (.notText fault))
  | .ok text => ofText nesting (Text.unifyNewlines text)

/-- The settings in a file, or the defaults if none is named. -/
def load (nesting : Json.Nesting) (files : FileView) : Option Path → Except Fault Settings
  | none => .ok {}
  | some path =>
    if path.hasNull then .error .nullInPath
    else match files path with
      | .error cause => .error (.settings (.unreadable path cause))
      | .ok bytes => ofBytes nesting bytes

end Settings
end Uniproc
