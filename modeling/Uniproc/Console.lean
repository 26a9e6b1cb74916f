import Uniproc.Simulation.Step
import Uniproc.Text.Uppercase

/-!
The console: commands of one character, in either case, and what they show.
-/

namespace Uniproc

inductive Command
  | step
  | unblock
  | print
  | stop
deriving DecidableEq, Repr

def Command.ofText? (s : List Char) : Option Command :=
  match Text.upper s with
  | ['Q'] => some .step
  | ['U'] => some .unblock
  | ['P'] => some .print
  | ['T'] => some .stop
  | _ => none

/-- Once it is stopped a console does nothing any more. -/
structure Console where
  simulation : Simulation
  stopped : Bool := false
deriving DecidableEq, Repr, Inhabited

namespace Console

def ofSimulation (simulation : Simulation) : Except Fault Console :=
  if simulation.booted then .ok { simulation }
  else .error (.ofRefusal .consoleNotBooted)

def invalidCommand : String := "You entered an invalid character!"

/-- The commands in a text: each character that is not blank, in upper case. -/
def commandsIn (text : List Char) : List (List Char) :=
  (text.filter fun c => !Text.isBlank c).map Text.upperChar

def onSimulation {α : Type} (action : Action Simulation α) : Action Console α :=
  Action.onPart simulation (fun sim console => { console with simulation := sim }) action

/-- The report on the average turnaround so far. -/
def report (console : Console) : Except Fault String :=
  Turnaround.report <$> console.simulation.average

/-- Carries out a command. What it shows is empty only after a stop. -/
def run (files : FileView) : Command → Action Console String
  | .step => do
    return (← onSimulation (Simulation.step files)).message
  | .unblock => do
    match ← onSimulation Simulation.unblock with
    | none => return "No blocked processes"
    | some slot => return s!"Process {← Action.write (Numeral.text slot)} unblocked"
  | .print => do
    Action.write (← get).simulation.snapshot.text
  | .stop => do
    modify fun console => { console with stopped := true }
    Action.ofExcept (← get).report

def execute (files : FileView) (command : List Char) : Action Console String := do
  if (← get).stopped then return ""
  match Command.ofText? command with
  | none => return invalidCommand
  | some command => run files command

/-- Carries out commands up to one that stops the console, and collects what they
show. -/
def feedAll (files : FileView) : List (List Char) → Action Console (List String)
  | [] => return []
  | command :: rest => do
    let output ← execute files command
    let shown := if output.isEmpty then [] else [output]
    if (← get).stopped then return shown
    return shown ++ (← feedAll files rest)

def feed (files : FileView) (text : List Char) : Action Console (List String) :=
  feedAll files (commandsIn text)

end Console
end Uniproc
