import Uniproc.Text.Utf8

/-!
Reasons why a program cannot be loaded.
-/

namespace Uniproc

/-- Line numbers count from 1 and count blank lines too; `source` names the text. -/
inductive LoadError
  | invalidOperation (code : String) (line : Nat) (source : String)
  | missingArgument (line : Nat) (source : String)
  | tooLong (limit : Int) (source : String)
  | unreadable (path : String)
  | notText (path : String) (reason : Utf8.Reason) (start : Nat)
deriving DecidableEq, Repr

def LoadError.message : LoadError → String
  | .invalidOperation code line source => s!"{source}:{line} - Invalid operation, {code}"
  | .missingArgument line source => s!"{source}:{line} - Missing string argument"
  | .tooLong limit source => s!"{source} - Program exceeds {limit} instructions"
  | .unreadable path => s!"Error opening file {path}"
  | .notText path reason start => s!"{path} - Not a text file: {reason.message} at byte {start}"

end Uniproc
