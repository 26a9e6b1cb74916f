import Uniproc.File.View
import Uniproc.Json.Fault
import Uniproc.Text.Quoted
import Uniproc.Text.Utf8

/-!
What can be wrong with settings and with a file of them.
-/

namespace Uniproc
namespace Settings

inductive Kind
  | int
  | bool
deriving DecidableEq, Repr

def Kind.name : Kind → String
  | .int => "int"
  | .bool => "bool"

/-- `got` shows the value that was found. -/
inductive Error
  | unreadable (path : Path) (cause : ReadFault)
  | notText (cause : Utf8.Fault)
  | malformed (cause : Json.Fault)
  | notObject
  | unknownKeys (keys : List CodePoints)
  | wrongKind (key : String) (expected : Kind) (got : String)
  | tooSmall (key : String)
deriving DecidableEq, Repr

/-- The bytes that could not be read, one or a range of them. -/
def describe (f : Utf8.Fault) : String :=
  if f.stop = f.start + 1 then
    let byte := String.ofList (Text.hexDigits 2 f.first.toNat)
    s!"'utf-8' codec can't decode byte 0x{byte} in position {f.start}: {f.reason.message}"
  else
    s!"'utf-8' codec can't decode bytes in position {f.start}-{f.stop - 1}: {f.reason.message}"

/-- Unknown keys are shown as they are, so that a message is a sequence of code
points like them. -/
def Error.message : Error → CodePoints
  | .unreadable path cause =>
    let (number, words) := cause.describe
    .ofString s!"Cannot load config: [Errno {number}] {words}: {Text.quoted path.toString}"
  | .notText cause => .ofString s!"Cannot load config: {describe cause}"
  | .malformed cause => .ofString s!"Cannot load config: {cause.message}"
  | .notObject => .ofString "Config file must contain a JSON object"
  | .unknownKeys keys =>
    .ofString "Unknown config keys: " ++ (CodePoints.ofString ", ").intercalate keys
  | .wrongKind key expected got =>
    .ofString s!"Config key '{key}' must be {expected.name}, got {got}"
  | .tooSmall key => .ofString s!"{key} must be at least 1"

end Settings
end Uniproc
