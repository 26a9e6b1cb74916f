import Uniproc.Proofs.Feeding
import Uniproc.Proofs.Starting

/-!
What a session prints. It reads lines up to the first that stops the console, to the end of the
typed text, or to an interrupt. However it ends, the report is the last thing that it prints, and
it prints it once.
-/

namespace Uniproc

open Console

namespace Console

variable {files : FileView} {sim : Simulation} {text : List Char} {outputs : List String}

end Console

namespace Session

/-- What comes when lines of a typed text are asked for. In the place of one of them, or of the
end, an interrupt can come. -/
def inputsOf (typed : List Char) (interrupt : Option Nat) : List Input :=
  let reads := (Text.feedLines typed).map (fun line => .line (String.ofList line)) ++ [.endOfInput]
  match interrupt with
  | none => reads
  | some k => reads.set k .interrupt

def stops (line : List Char) : Bool :=
  line.any isStop

/-- What is printed for the lines: for each of them the prompt and what it has shown. -/
def printed (outputs : List (List String)) : String :=
  String.join (outputs.map fun shown => promptText ++ joinLines shown)

/-- What follows the last prompt when no line does. -/
def farewell : Input → String
  | .interrupt => "\nInterrupted.\n"
  | _ => "\n"

/-- The session has read these lines, has shown for them what the console shows if they are fed to
it in order, and has ended with the report on the state that they have led to. After a stop there
is neither a prompt nor another report. -/
structure Reported (files : FileView) (start : Console) (lines : List (List Char)) (last : Input)
    (t : Transcript) (outputs : List (List String)) (console : Console) (report : String) :
    Prop where
  fed : lines.mapM (feed files) start = .ok outputs console
  stopped_eq : console.stopped = lines.any stops
  report_eq : console.report = .ok report
  ending_eq : t.ending = .status 0
  output_eq : t.output = .ofString (printed outputs ++
    if console.stopped then "" else promptText ++ farewell last ++ joinLines [report])
  last_line : '\n' ∉ report.toList ∧
    CodePoints.ofString (joinLines [report]) <:+ t.output
  once : (outputs.flatten ++ if console.stopped then [] else [report]).filter isReport = [report]
  last_shown : (outputs.flatten ++ if console.stopped then [] else [report]).getLast? = some report

variable {files : FileView} {start console : Console} {last : Input} {report : String}

theorem filter_isReport_eq_nil {outputs : List String} (h : ∀ s ∈ outputs, isReport s = false) :
    outputs.filter isReport = [] := by
  rw [List.filter_eq_nil_iff]
  intro s hs
  rw [h s hs]
  exact Bool.false_ne_true

theorem ofString_append (s t : String) :
    CodePoints.ofString (s ++ t) = CodePoints.ofString s ++ CodePoints.ofString t := by
  rw [CodePoints.ofString, String.toList_append, List.map_append]
  rfl

theorem printed_cons (shown : List String) (outputs : List (List String)) :
    printed (shown :: outputs) = promptText ++ joinLines shown ++ printed outputs := by
  rw [printed, List.map_cons, String.join_cons]
  rfl

/-- A line before others, which shows no report. -/
theorem Reported.cons {line : List Char} {rest : List (List Char)} {shown : List String}
    {mid : Console} {t : Transcript} {outputs : List (List String)}
    (h : Reported files mid rest last t outputs console report)
    (hfeed : feed files line start = .ok shown mid) (hline : stops line = false)
    (hshown : ∀ s ∈ shown, isReport s = false) :
    Reported files start (line :: rest) last (t.after (promptText ++ joinLines shown))
      (shown :: outputs) console report where
  fed := by
    rw [List.mapM_cons, Action.bind_of_ok hfeed, Action.bind_of_ok h.fed]
    rfl
  stopped_eq := by rw [h.stopped_eq, List.any_cons, hline, Bool.false_or]
  report_eq := h.report_eq
  ending_eq := h.ending_eq
  output_eq := by
    change CodePoints.ofString _ ++ t.output = _
    rw [h.output_eq, ← ofString_append, printed_cons]
    simp only [String.append_assoc]
  last_line := ⟨h.last_line.1, h.last_line.2.trans (List.suffix_append _ _)⟩
  once := by
    rw [List.flatten_cons, List.append_assoc, List.filter_append, filter_isReport_eq_nil hshown,
      List.nil_append, h.once]
  last_shown := by
    rw [List.flatten_cons, List.append_assoc, List.getLast?_append, h.last_shown]
    rfl

end Session

namespace Session

end Session
end Uniproc
