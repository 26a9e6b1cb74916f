import Uniproc.Arguments
import Uniproc.Session

/-!
The command line program. Files are read here, one at a time and just before they are
needed, and every answer is printed as soon as it is there.
-/

namespace Uniproc
namespace Main

/-- The reason for a failure to read. A directory can be opened but not read, and the
failure then has no name. -/
def readFault (e : IO.Error) : ReadFault :=
  match e with
  | .permissionDenied .. => .denied
  | .inappropriateType (some _) .. => .notDirectory
  | .inappropriateType none .. => .isDirectory
  | .invalidArgument .. => .nameTooLong
  | _ => .notFound

def readFile (path : Path) : IO (Except ReadFault (List UInt8)) := do
  try
    return .ok (← IO.FS.readBinFile path.toString).toList
  catch e =>
    return .error (readFault e)

/-- A view of the files that have been read. -/
def viewOf (read : List (Path × Except ReadFault (List UInt8))) : FileView := fun path =>
  (read.lookup path).getD (.error .notFound)

def readAll (paths : List Path) : IO FileView := do
  return viewOf (← paths.mapM fun path => return (path, ← readFile path))

/-- Carries out the commands of one line, with the files as they are before each. -/
def answer (console : Console) (commands : List (List Char)) :
    IO (Except Fault (List String) × Console) := do
  let mut console := console
  let mut shown := #[]
  for command in commands do
    unless console.stopped do
      let files ← readAll console.simulation.nextFile?.toList
      match Console.feedAll files [command] console with
      | .ok outputs next =>
        shown := shown ++ outputs.toArray
        console := next
      | .error fault next => return (.error fault, next)
  return (.ok shown.toList, console)

def finish (t : Transcript) : IO UInt32 := do
  IO.print t.output.toString
  match t.ending with
  | .status code => return code.toUInt32
  | .fault cause => throw (IO.userError cause.message.toString)

partial def converse (console : Console) : IO UInt32 := do
  IO.print Session.promptText
  (← IO.getStdout).flush
  let line ← (← IO.getStdin).getLine
  if line.isEmpty then
    IO.println ""
    finish (Session.close console (.status 0))
  else
    let (result, console) ← answer console (Console.commandsIn line.toList)
    match result with
    | .error fault => finish (Session.close console (.fault fault))
    | .ok outputs =>
      IO.print (Session.joinLines outputs)
      if console.stopped then return 0
      converse console

/-- What is left of a thousand calls inside each other: ten are under way when the settings
are read, and six when a value of them is shown. -/
def nesting : Json.Nesting where
  read := 1000 - 10
  shown := 1000 - 6
  read_le_shown := by decide

def run (program : Path) (settings : Option Path) : IO UInt32 := do
  let files ← readAll (program :: settings.toList)
  match Simulation.start nesting files program settings with
  | .ok simulation => converse { simulation }
  | .error _ => finish (Session.run .stream nesting files program settings [])

end Main
end Uniproc

def main (arguments : List String) : IO UInt32 := do
  match Uniproc.Arguments.parse arguments with
  | .help =>
    IO.print Uniproc.Arguments.helpText
    return 0
  | .misuse problem =>
    IO.eprint (Uniproc.Arguments.misuseText problem)
    return 2
  | .failure cause => throw (IO.userError cause.message.toString)
  | .run program settings => Uniproc.Main.run program settings
