import Uniproc.Proofs.Capitals
import Uniproc.Proofs.Console
import Uniproc.Proofs.Messages

/-!
What a text means. Of its characters only the letters of a step and of an unblocking do
anything to the simulation, up to the first letter that stops the console; the others show
something, or nothing if they are blank. Where a text is cut makes no difference.
-/

namespace Uniproc

/-- A list up to the first that is of this kind, or all of it if there is none. -/
def upToFirst {α : Type} (p : α → Bool) : List α → List α
  | [] => []
  | a :: rest => if p a then [a] else a :: upToFirst p rest

/-- The call to the simulation that a command makes. -/
def Command.call? : Command → Option Simulation.Call
  | .step => some .step
  | .unblock => some .unblock
  | .print | .stop => none

namespace Console

def isStop (c : Char) : Bool :=
  Command.ofChar? c == some .stop

/-- The characters of a text that are commands, known or not. -/
def visible (text : List Char) : List Char :=
  text.filter fun c => !Text.isBlank c

def request? (files : FileView) (c : Char) : Option Simulation.Request :=
  ((Command.ofChar? c).bind Command.call?).map fun call => ⟨call, files⟩

/-- The calls to the simulation that a text makes before it stops the console. -/
def requestsIn (files : FileView) (text : List Char) : List Simulation.Request :=
  (text.takeWhile fun c => !isStop c).filterMap (request? files)

/-- What a character shows that comes upon this state; one that is no command is told so. -/
inductive Shows (files : FileView) (sim : Simulation) : Option Command → String → Prop
  | step {report : StepReport} {s : Simulation} (h : Simulation.step files sim = .ok report s) :
      Shows files sim (some .step) report.message
  | unblocked {slot : Int} {number : String} {s : Simulation}
      (h : Simulation.unblock sim = .ok (some slot) s) (hnumber : Numeral.text slot = .ok number) :
      Shows files sim (some .unblock) s!"Process {number} unblocked"
  | noneBlocked {s : Simulation} (h : Simulation.unblock sim = .ok none s) :
      Shows files sim (some .unblock) "No blocked processes"
  | print {text : String} (h : sim.snapshot.text = .ok text) :
      Shows files sim (some .print) text
  | stop {x : Double} (h : sim.average = .ok x) :
      Shows files sim (some .stop) (Turnaround.report x)
  | invalid : Shows files sim none invalidCommand

/-- What a text shows, read from its beginning. -/
inductive Replies (files : FileView) : Simulation → List Char → List String → Prop
  | nil {sim : Simulation} : Replies files sim [] []
  | blank {sim : Simulation} {c : Char} {rest : List Char} {outputs : List String}
      (hblank : Text.isBlank c = true) (h : Replies files sim rest outputs) :
      Replies files sim (c :: rest) outputs
  | stop {sim : Simulation} {c : Char} {rest : List Char} {output : String}
      (hstop : isStop c = true) (h : Shows files sim (Command.ofChar? c) output) :
      Replies files sim (c :: rest) [output]
  | more {sim : Simulation} {c : Char} {rest : List Char} {output : String}
      {outputs : List String} (hstop : isStop c = false) (hblank : Text.isBlank c = false)
      (hfirst : Shows files sim (Command.ofChar? c) output)
      (h : Replies files (sim.run (request? files c).toList) rest outputs) :
      Replies files sim (c :: rest) (output :: outputs)

/-- What a text shows: one output for each visible character up to the first stop, in order,
which is what the character shows on the state that those before it have led to. -/
structure Answers (files : FileView) (sim : Simulation) (text : List Char)
    (outputs : List String) : Prop where
  length_eq : outputs.length = (visible (upToFirst isStop text)).length
  shows before c after : text = before ++ c :: after → before.any isStop = false →
    Text.isBlank c = false → ∃ output, outputs[(visible before).length]? = some output ∧
      output ≠ "" ∧ Shows files (sim.run (requestsIn files before)) (Command.ofChar? c) output

/-- None of the commands fails on the console that those before it leave. -/
def Unbroken (files : FileView) (console : Console) (commands : List (List Char)) : Prop :=
  ∀ earlier command later, commands = earlier ++ command :: later →
    ∃ output c, execute files command (earlier.foldl (executed files) console) = .ok output c

variable {files : FileView} {sim : Simulation} {console : Console}

/-- Only the stop command shows something that begins like a report. -/
theorem Shows.begins {command : Option Command} {output : String}
    (h : Shows files sim command output) :
    ∃ c, Begins c output ∧ (c = 'A' ↔ command = some .stop) := by
  cases h with
  | step hstep =>
      obtain htimed | hnone := Simulation.yields_step files _ _ _ hstep
      · exact ⟨'T', htimed, by decide⟩
      · exact ⟨'N', by rw [hnone]; rfl, by decide⟩
  | unblocked h hnumber =>
      have hprocess : Begins 'P' "Process " := rfl
      exact ⟨'P', (hprocess.append _).append _, by decide⟩
  | noneBlocked => exact ⟨'N', rfl, by decide⟩
  | print htext => exact ⟨'C', begins_snapshot_text htext, by decide⟩
  | stop => exact ⟨'A', begins_report _, by decide⟩
  | invalid => exact ⟨'Y', rfl, by decide⟩

theorem Shows.ne_empty {command : Option Command} {output : String}
    (h : Shows files sim command output) : output ≠ "" := by
  obtain ⟨c, hbegins, _⟩ := h.begins
  rintro rfl
  cases hbegins

/-- A command that does not fail shows what it is to show, and makes its call. -/
theorem shows_of_run {command : Command} {output : String} {console' : Console}
    (h : run files command ⟨sim, false⟩ = .ok output console') :
    Shows files sim (some command) output ∧ console' =
      ⟨sim.run (command.call?.map (⟨·, files⟩)).toList, some command == some .stop⟩ := by
  cases command with
  | step =>
      rw [run_step] at h
      split at h
      · next report s hstep =>
        cases h
        have hafter : (sim.happen ⟨.step, files⟩).after = s := by
          rw [Simulation.after_step, hstep]
          rfl
        exact ⟨.step hstep, congrArg (Console.mk · false) hafter.symm⟩
      · cases h
  | unblock =>
      have hafter {slot : Option Int} {s : Simulation}
          (hunblock : Simulation.unblock sim = .ok slot s) :
          (⟨s, false⟩ : Console) = ⟨(sim.happen ⟨.unblock, files⟩).after, false⟩ := by
        rw [Simulation.after_unblock, hunblock]
        rfl
      rw [run_unblock_eq] at h
      split at h
      · cases h
      · next s hunblock =>
        cases h
        exact ⟨.noneBlocked hunblock, hafter hunblock⟩
      · next slot s hunblock =>
        split at h
        · next number hnumber =>
          cases h
          exact ⟨.unblocked hunblock hnumber, hafter hunblock⟩
        · cases h
  | print =>
      rw [run_print] at h
      split at h
      · next text htext =>
        cases h
        exact ⟨.print htext, rfl⟩
      · cases h
  | stop =>
      rw [run_stop_eq] at h
      split at h
      · next x haverage =>
        cases h
        exact ⟨.stop haverage, rfl⟩
      · cases h

/-- So does a character, whether it is a command or not. -/
theorem shows_of_execute {c : Char} {output : String} {console' : Console}
    (h : execute files (Text.upperChar c) ⟨sim, false⟩ = .ok output console') :
    Shows files sim (Command.ofChar? c) output ∧
      console' = ⟨sim.run (request? files c).toList, isStop c⟩ := by
  rw [execute_of_running rfl, Command.ofText?_upperChar] at h
  unfold request? isStop
  cases hcommand : Command.ofChar? c with
  | none =>
      rw [hcommand] at h
      cases h
      exact ⟨.invalid, rfl⟩
  | some command =>
      rw [hcommand] at h
      exact shows_of_run h

theorem unbroken_cons {command : List Char} {rest : List (List Char)} :
    Unbroken files console (command :: rest) ↔
      (∃ output c, execute files command console = .ok output c) ∧
        Unbroken files (executed files console command) rest := by
  constructor
  · intro h
    refine ⟨h [] command rest rfl, fun earlier next later hsplit => ?_⟩
    exact h (command :: earlier) next later (congrArg (command :: ·) hsplit)
  · rintro ⟨hfirst, hrest⟩ earlier next later hsplit
    cases earlier with
    | nil =>
        cases hsplit
        exact hfirst
    | cons first earlier =>
        cases hsplit
        exact hrest earlier next later rfl

theorem executed_of_ok {command : List Char} {output : String} {c : Console}
    (h : execute files command console = .ok output c) : executed files console command = c := by
  rw [executed_eq, h]
  rfl

theorem unbroken_of_stopped (h : console.stopped = true) (commands : List (List Char)) :
    Unbroken files console commands := by
  intro earlier command later _
  rw [foldl_executed_of_stopped h]
  exact ⟨"", console, execute_of_stopped h files command⟩

theorem feedAll_of_stopped (h : console.stopped = true) (commands : List (List Char)) :
    feedAll files commands console = .ok [] console := by
  cases commands with
  | nil => rfl
  | cons command rest =>
      rw [feedAll_cons, execute_of_stopped h]
      dsimp only
      rw [if_pos h]
      rfl

/-- Commands are taken to their end if none of them fails, and only then. -/
theorem unbroken_iff {commands : List (List Char)} : Unbroken files console commands ↔
    ∃ outputs c, feedAll files commands console = .ok outputs c := by
  induction commands generalizing console with
  | nil => exact iff_of_true (fun _ _ _ h => by simp at h) ⟨[], console, rfl⟩
  | cons command rest ih =>
      rw [unbroken_cons, feedAll_cons]
      cases hexecute : execute files command console with
      | error fault c => exact iff_of_false (by simp) (by simp)
      | ok output c =>
          rw [executed_of_ok hexecute]
          dsimp only
          split
          · next hstopped =>
            exact iff_of_true ⟨⟨output, c, rfl⟩, unbroken_of_stopped hstopped rest⟩ ⟨_, c, rfl⟩
          · rw [and_iff_right ⟨output, c, rfl⟩, ih]
            cases feedAll files rest c <;> simp

theorem isBlank_of_ofChar? {c : Char} {command : Command} (h : Command.ofChar? c = some command) :
    Text.isBlank c = false := by
  unfold Command.ofChar? at h
  split at h
  all_goals first | rfl | cases h

/-- A blank character makes no call and does not stop the console. -/
theorem ofChar?_of_isBlank {c : Char} (h : Text.isBlank c = true) : Command.ofChar? c = none := by
  cases hcommand : Command.ofChar? c with
  | none => rfl
  | some command => exact absurd (h.symm.trans (isBlank_of_ofChar? hcommand)) (by decide)

theorem requestsIn_of_isStop {c : Char} (h : isStop c = true) (files : FileView)
    (rest : List Char) : requestsIn files (c :: rest) = [] := by
  rw [requestsIn, List.takeWhile_cons_of_neg (by simp [h])]
  rfl

theorem requestsIn_cons {c : Char} (h : isStop c = false) (files : FileView) (rest : List Char) :
    requestsIn files (c :: rest) = (request? files c).toList ++ requestsIn files rest := by
  rw [requestsIn, List.takeWhile_cons_of_pos (by simp [h]), List.filterMap_cons]
  cases request? files c <;> rfl

theorem isStop_of_isBlank {c : Char} (h : Text.isBlank c = true) : isStop c = false := by
  rw [isStop, ofChar?_of_isBlank h]
  rfl

theorem requestsIn_of_isBlank {c : Char} (h : Text.isBlank c = true) (files : FileView)
    (rest : List Char) : requestsIn files (c :: rest) = requestsIn files rest := by
  rw [requestsIn_cons (isStop_of_isBlank h), request?, ofChar?_of_isBlank h]
  rfl

theorem run_requestsIn_cons {c : Char} (h : isStop c = false) (files : FileView)
    (rest : List Char) (sim : Simulation) : sim.run (requestsIn files (c :: rest)) =
      (sim.run (request? files c).toList).run (requestsIn files rest) := by
  rw [requestsIn_cons h]
  exact List.foldl_append

namespace Answers

variable {c : Char} {rest : List Char} {output : String} {outputs : List String}

theorem blank (hblank : Text.isBlank c = true) (h : Answers files sim rest outputs) :
    Answers files sim (c :: rest) outputs := by
  have hstop := isStop_of_isBlank hblank
  have hvisible (text : List Char) : visible (c :: text) = visible text :=
    List.filter_cons_of_neg (by simp [hblank])
  refine ⟨by rw [upToFirst, hstop, if_neg Bool.false_ne_true, hvisible, h.length_eq], ?_⟩
  intro before d after hsplit hbefore hd
  cases before with
  | nil =>
      cases hsplit
      exact absurd (hblank.symm.trans hd) (by decide)
  | cons first before =>
      cases hsplit
      rw [hvisible, requestsIn_of_isBlank hblank]
      exact h.shows before d after rfl (by simpa [hstop] using hbefore) hd

theorem stop (hstop : isStop c = true) (h : Shows files sim (Command.ofChar? c) output) :
    Answers files sim (c :: rest) [output] := by
  have hblank : Text.isBlank c = false := isBlank_of_ofChar? (eq_of_beq hstop)
  refine ⟨by simp [upToFirst, hstop, visible, hblank], ?_⟩
  intro before d after hsplit hbefore hd
  cases before with
  | nil =>
      cases hsplit
      exact ⟨output, rfl, h.ne_empty, h⟩
  | cons first before =>
      cases hsplit
      simp [hstop] at hbefore

theorem more (hstop : isStop c = false) (hblank : Text.isBlank c = false)
    (hfirst : Shows files sim (Command.ofChar? c) output)
    (h : Answers files (sim.run (request? files c).toList) rest outputs) :
    Answers files sim (c :: rest) (output :: outputs) := by
  have hvisible (text : List Char) : visible (c :: text) = c :: visible text :=
    List.filter_cons_of_pos (by simp [hblank])
  constructor
  · rw [upToFirst, hstop, if_neg Bool.false_ne_true, hvisible, List.length_cons,
      List.length_cons, h.length_eq]
  intro before d after hsplit hbefore hd
  cases before with
  | nil =>
      cases hsplit
      exact ⟨output, rfl, hfirst.ne_empty, hfirst⟩
  | cons first before =>
      cases hsplit
      rw [hvisible, run_requestsIn_cons hstop, List.length_cons, List.getElem?_cons_succ]
      exact h.shows before d after rfl (by simpa [hstop] using hbefore) hd

end Answers

theorem Replies.answers {text : List Char} {outputs : List String}
    (h : Replies files sim text outputs) : Answers files sim text outputs := by
  induction h with
  | nil => exact ⟨rfl, fun _ _ _ hsplit => by simp at hsplit⟩
  | blank hblank _ ih => exact ih.blank hblank
  | stop hstop h => exact .stop hstop h
  | more hstop hblank hfirst _ ih => exact ih.more hstop hblank hfirst

/-- A text none of whose commands fails makes its calls, shows what its characters show, and
stops the console if one of them does. -/
theorem feed_of_unbroken {text : List Char} (h : Unbroken files ⟨sim, false⟩ (commandsIn text)) :
    ∃ outputs, feed files text ⟨sim, false⟩ =
        .ok outputs ⟨sim.run (requestsIn files text), text.any isStop⟩ ∧
      Replies files sim text outputs := by
  induction text generalizing sim with
  | nil => exact ⟨[], rfl, .nil⟩
  | cons c rest ih =>
      by_cases hblank : Text.isBlank c = true
      · have hcommands : commandsIn (c :: rest) = commandsIn rest := by
          simp [commandsIn, hblank]
        rw [hcommands] at h
        obtain ⟨outputs, hfeed, hreplies⟩ := ih h
        refine ⟨outputs, ?_, hreplies.blank hblank⟩
        rw [feed, hcommands, requestsIn_of_isBlank hblank, List.any_cons,
          isStop_of_isBlank hblank]
        exact hfeed
      · rw [Bool.not_eq_true] at hblank
        have hcommands : commandsIn (c :: rest) = Text.upperChar c :: commandsIn rest := by
          simp [commandsIn, hblank]
        rw [hcommands, unbroken_cons] at h
        obtain ⟨⟨output, c', hexecute⟩, hrest⟩ := h
        rw [executed_of_ok hexecute] at hrest
        obtain ⟨hshows, rfl⟩ := shows_of_execute hexecute
        have hshown : (if output.isEmpty then [] else [output]) = [output] :=
          if_neg (by simpa using hshows.ne_empty)
        rw [feed, hcommands, feedAll_cons, hexecute]
        dsimp only
        rw [hshown]
        cases hstop : isStop c with
        | true =>
            refine ⟨[output], ?_, .stop hstop hshows⟩
            rw [if_pos rfl, requestsIn_of_isStop hstop, List.any_cons, hstop, request?,
              eq_of_beq hstop]
            rfl
        | false =>
            rw [hstop] at hrest
            obtain ⟨outputs, hfeed, hreplies⟩ := ih hrest
            refine ⟨output :: outputs, ?_, hreplies.more hstop hblank hshows⟩
            rw [feed] at hfeed
            rw [if_neg Bool.false_ne_true, hfeed, run_requestsIn_cons hstop, List.any_cons, hstop]
            rfl

theorem unbroken_of_perform {text : List Char}
    (h : ((feed files text).perform console).1.toOption.isSome = true) :
    Unbroken files console (commandsIn text) := by
  refine unbroken_iff.mpr ?_
  cases hfeed : feedAll files (commandsIn text) console with
  | ok outputs c => exact ⟨outputs, c, rfl⟩
  | error fault c =>
      rw [feed, Action.perform, hfeed] at h
      cases h

theorem feedAll_append (first second : List (List Char)) (console : Console) :
    feedAll files (first ++ second) console =
      match feedAll files first console with
      | .error fault c => .error fault c
      | .ok outputs c => match feedAll files second c with
        | .ok more c => .ok (outputs ++ more) c
        | .error fault c => .error fault c := by
  induction first generalizing console with
  | nil =>
      change feedAll files second console = match feedAll files second console with
        | .ok more c => .ok ([] ++ more) c
        | .error fault c => .error fault c
      cases feedAll files second console <;> rfl
  | cons command rest ih =>
      rw [List.cons_append, feedAll_cons, feedAll_cons]
      cases execute files command console with
      | error fault c => rfl
      | ok output c =>
          dsimp only
          split
          · next hstopped =>
            dsimp only
            rw [feedAll_of_stopped hstopped]
            dsimp only
            rw [List.append_nil]
          · rw [ih c]
            cases feedAll files rest c with
            | error fault c => rfl
            | ok outputs c =>
                dsimp only
                cases feedAll files second c with
                | error fault c => rfl
                | ok more c => simp only [List.append_assoc]

theorem commandsIn_append (first second : List Char) :
    commandsIn (first ++ second) = commandsIn first ++ commandsIn second := by
  simp [commandsIn]

theorem feed_append (files : FileView) (first second : List Char) :
    feed files (first ++ second) =
      do return (← feed files first) ++ (← feed files second) := by
  funext console
  rw [feed, commandsIn_append, feedAll_append]
  cases hfirst : feedAll files (commandsIn first) console with
  | error fault c => exact (Action.bind_of_error hfirst _).symm
  | ok outputs c =>
      refine .trans ?_ (Action.bind_of_ok hfirst _).symm
      dsimp only
      cases hsecond : feedAll files (commandsIn second) c with
      | error fault c => exact (Action.bind_of_error hsecond _).symm
      | ok more c => exact (Action.bind_of_ok hsecond fun more => pure (outputs ++ more)).symm

/-- A text comes to the steps and the unblockings that it asks for before the first stop, and
shows one output for each visible character up to there. So two texts in a row do what they do as
one, and a console that is stopped hears nothing. -/
theorem feed_eq_of_unbroken (files : FileView) :
    (∀ console text, console.stopped = false → Unbroken files console (commandsIn text) →
      ∃ outputs, feed files text console = .ok outputs
          { simulation := console.simulation.run (requestsIn files text)
            stopped := text.any isStop } ∧
        Answers files console.simulation text outputs) ∧
      (∀ first second, feed files (first ++ second) =
        do return (← feed files first) ++ (← feed files second)) ∧
      ∀ console text, console.stopped = true → feed files text console = .ok [] console := by
  refine ⟨?_, feed_append files, fun console text hstopped => feedAll_of_stopped hstopped _⟩
  rintro ⟨sim, stopped⟩ text hrun hunbroken
  cases hrun
  obtain ⟨outputs, hfeed, hreplies⟩ := feed_of_unbroken hunbroken
  exact ⟨outputs, hfeed, hreplies.answers⟩

/-- It blocks itself once. -/
def blockDemo : Program where
  instructions := [{ opcode := .set, number := 7 }, { opcode := .block },
    { opcode := .add, number := 1 }, { opcode := .halt }]

/-- Both cases of a letter, blanks of two kinds, a character that is no command, and a stop with
more to come. -/
def blockDemoText : List Char :=
  "qQ P\u2003xU q t q".toList

def blockDemoConsole : Console where
  simulation := Simulation.launched {} {} blockDemo

theorem unbroken_blockDemo : Unbroken noFiles blockDemoConsole (commandsIn blockDemoText) :=
  unbroken_of_perform (by decide +kernel)

theorem feed_eq_of_unbroken_blockDemo :
    blockDemoConsole.stopped = false ∧
      Unbroken noFiles blockDemoConsole (commandsIn blockDemoText) ∧
      (∃ outputs, feed noFiles blockDemoText blockDemoConsole = .ok outputs
          { simulation := blockDemoConsole.simulation.run (requestsIn noFiles blockDemoText)
            stopped := blockDemoText.any isStop } ∧
        Answers noFiles blockDemoConsole.simulation blockDemoText outputs) ∧
      feed noFiles blockDemoText { blockDemoConsole with stopped := true } =
        .ok [] { blockDemoConsole with stopped := true } :=
  have h := feed_eq_of_unbroken noFiles
  ⟨rfl, unbroken_blockDemo, h.1 blockDemoConsole blockDemoText rfl unbroken_blockDemo,
    h.2.2 { blockDemoConsole with stopped := true } blockDemoText rfl⟩

end Console
end Uniproc
