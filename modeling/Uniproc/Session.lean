import Uniproc.Console
import Uniproc.Simulation.Start

/-!
An interactive session: lines of commands are asked for and answered until a command
stops it, the input ends or it is interrupted. However it ends, the turnaround report
comes last, and comes once.
-/

namespace Uniproc

/-- What comes when a line is asked for. -/
inductive Input
  | line (text : String)
  | endOfInput
  | interrupt
deriving DecidableEq, Repr

/-- A session ends with an exit status, or by a fault that nobody handles. -/
inductive Ending
  | status (code : Nat)
  | fault (cause : Fault)
deriving DecidableEq, Repr

/-- Where a session shows what it says. A stream takes it as UTF-8, which has no bytes for the
halves of surrogate pairs; a buffer takes every code point. -/
inductive Output
  | stream
  | buffer
deriving DecidableEq, Repr

/-- What keeps a text from being printed. -/
def Output.refusal? : Output → CodePoints → Option CodePoints.Unpaired
  | .stream, s => s.unpaired?
  | .buffer, _ => none

/-- What a session has shown, and how it has ended. -/
structure Transcript where
  output : CodePoints
  ending : Ending
deriving DecidableEq, Repr

def Transcript.after (output : String) (t : Transcript) : Transcript :=
  { t with output := .ofString output ++ t.output }

namespace Session

def promptText : String := "Enter Q, P, U or T\n$ "

def joinLines (lines : List String) : String :=
  String.join (lines.map (· ++ "\n"))

/-- The end of a session: the report, unless the stop command has shown it. -/
def close (console : Console) (ending : Ending) : Transcript :=
  if console.stopped then ⟨[], ending⟩
  else match console.report with
    | .ok report => ⟨.ofString (joinLines [report]), ending⟩
    | .error fault => ⟨[], .fault fault⟩

/-- A session from the next prompt on. When no input is left it has ended. -/
def converse (files : FileView) (console : Console) : List Input → Transcript
  | [] | .endOfInput :: _ =>
    Transcript.after (promptText ++ "\n") (close console (.status 0))
  | .interrupt :: _ =>
    Transcript.after (promptText ++ "\nInterrupted.\n") (close console (.status 0))
  | .line text :: rest =>
    match console.feed files text.toList with
    | .error fault console => Transcript.after promptText (close console (.fault fault))
    | .ok outputs console =>
      Transcript.after (promptText ++ joinLines outputs)
        (if console.stopped then close console (.status 0) else converse files console rest)

/-- A session that ends with the report of a failure. Unknown keys can have halves of
surrogate pairs in them; nothing is printed then, and the session fails for that instead. -/
def report (output : Output) (fault : Fault) : Transcript :=
  match output.refusal? fault.message with
  | none => ⟨fault.message ++ CodePoints.ofString "\n", .status 1⟩
  | some halves => ⟨[], .fault (.unprintable halves)⟩

/-- A session that starts from files. A program or settings that cannot be used are
reported. -/
def run (output : Output) (nesting : Json.Nesting) (files : FileView) (program : Path)
    (settings : Option Path) (inputs : List Input) : Transcript :=
  match Simulation.start nesting files program settings with
  | .error fault => match fault with
    | .load _ | .settings _ => report output fault
    | _ => ⟨[], .fault fault⟩
  | .ok simulation => converse files { simulation } inputs

end Session
end Uniproc
