import Uniproc.Index
import Uniproc.Json.Display
import Uniproc.Program.LoadError
import Uniproc.Refusal
import Uniproc.Settings.Error
import Uniproc.Text.Unpaired

/-!
All the ways in which a request can fail.
-/

namespace Uniproc

inductive Fault
  | load (cause : LoadError)
  | settings (cause : Settings.Error)
  | refused (cause : Refusal)
  | noFreeSlot
  | numeral (limit : Numeral.Limit)
  | nullInPath
  | capacity
  | outOfRange
  | notAddressable
  | averageTooLarge
  | tooDeep (container : Json.Container)
  | tooDeepToShow
  | unprintable (halves : CodePoints.Unpaired)
  | namelessSettings
  | unknownOpcode (name : String)
  | unknownState (name : String)
  | unknownLevel (name : String)
deriving DecidableEq, Repr

namespace Fault

def message : Fault → CodePoints
  | .load cause => .ofString cause.message
  | .settings cause => cause.message
  | .refused cause => .ofString cause.message
  | .noFreeSlot => .ofString "No available PCB entry for forking process."
  | .numeral limit => .ofString limit.message
  | .nullInPath => .ofString "embedded null byte"
  | .capacity => .ofString "capacity must be at least 1"
  | .outOfRange => .ofString "list index out of range"
  | .notAddressable => .ofString "cannot fit 'int' into an index-sized integer"
  | .averageTooLarge => .ofString "integer division result too large for a float"
  | .tooDeep container => .ofString <|
    s!"maximum recursion depth exceeded while decoding a JSON {container.name} " ++
      "from a unicode string"
  | .tooDeepToShow =>
    .ofString "maximum recursion depth exceeded while getting the repr of an object"
  | .unprintable halves => .ofString halves.message
  | .namelessSettings => .ofString "'list' object has no attribute 'read_text'"
  | .unknownOpcode name => .ofString s!"{Text.quoted name} is not a valid Opcode"
  | .unknownState name => .ofString s!"{Text.quoted name} is not a valid ProcessState"
  | .unknownLevel name => .ofString (Text.quoted name)

/-- A refusal whose message has a number that cannot be written is reported as the
failure to write it. -/
def ofRefusal (r : Refusal) : Fault :=
  if r.numbers.all Numeral.isWritable then .refused r else .numeral .writing

def ofDisplayError : Json.DisplayError → Fault
  | .digits limit => .numeral limit
  | .tooDeep => .tooDeepToShow

def ofTooLong (limit : Int) (source : String) : Fault :=
  if Numeral.isWritable limit then .load (.tooLong limit source) else .numeral .writing

/-- A position at which there is nothing. -/
def ofPosition (i : Int) : Fault :=
  if isAddressable i then .outOfRange else .notAddressable

end Fault

/-- The value or, for a numeral with too many digits, the fault. -/
def Numeral.checked {α : Type} : Except Numeral.Limit α → Except Fault α
  | .ok a => .ok a
  | .error limit => .error (.numeral limit)

end Uniproc
