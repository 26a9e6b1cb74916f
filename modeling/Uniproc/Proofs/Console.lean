import Uniproc.Console
import Uniproc.Proofs.Reporting

/-!
What stops the console. Of its commands only a step and the state report can fail at all;
a step fails where a replacement cannot be loaded and the failure is not one that is
reported, and the report where a number in it is too long for a text.
-/

namespace Uniproc
namespace Console

/-- A number in the state report is too long for a text. -/
def Untellable (sim : Simulation) : Prop :=
  ∃ v ∈ sim.snapshot.processes, ¬ Writable [v.programCounter, v.value]

/-- The command cannot be carried out. -/
def Breaks (console : Console) (files : FileView) (command : List Char) : Prop :=
  console.stopped = false ∧
    ((Command.ofText? command = some .step ∧ console.simulation.Unloadable files) ∨
      (Command.ofText? command = some .print ∧ Untellable console.simulation))

/-- The console after a command, which may have failed. -/
def executed (files : FileView) (console : Console) (command : List Char) : Console :=
  ((execute files command).perform console).2

/-- The console after a text, of which a part may not have been reached. -/
def fed (console : Console) (input : FileView × List Char) : Console :=
  ((feed input.1 input.2).perform console).2

/-- The console on a simulation, after texts for each of which the files may be others. -/
def after (sim : Simulation) (past : List (FileView × List Char)) : Console :=
  past.foldl fed { simulation := sim }

def commandCount (past : List (FileView × List Char)) : Nat :=
  (past.map fun input => (commandsIn input.2).length).sum

variable {console : Console} {files : FileView} {command : List Char}

theorem execute_of_stopped (h : console.stopped = true) (files : FileView)
    (command : List Char) : execute files command console = .ok "" console := by
  unfold execute
  rw [Action.bind_get, if_pos h]
  rfl

theorem execute_of_running (h : console.stopped = false) (files : FileView)
    (command : List Char) : execute files command console =
      (match Command.ofText? command with
        | none => return invalidCommand
        | some c => run files c : Action Console String) console := by
  unfold execute
  rw [Action.bind_get]
  exact congrFun (if_neg (by simp [h])) console

/-- What is carried out on the simulation leaves its state in the console. -/
theorem onSimulation_eq {α : Type} (action : Action Simulation α) (console : Console) :
    onSimulation action console = match action console.simulation with
      | .ok a sim => .ok a { console with simulation := sim }
      | .error fault sim => .error fault { console with simulation := sim } := by
  unfold onSimulation Action.onPart
  cases action console.simulation <;> rfl

theorem run_step (files : FileView) (console : Console) : run files .step console =
    match Simulation.step files console.simulation with
    | .ok r sim => .ok r.message { console with simulation := sim }
    | .error fault sim => .error fault { console with simulation := sim } := by
  have hcall := onSimulation_eq (Simulation.step files) console
  unfold run
  cases hstep : Simulation.step files console.simulation with
  | ok r sim =>
      rw [hstep] at hcall
      exact Action.bind_of_ok hcall _
  | error fault sim =>
      rw [hstep] at hcall
      exact Action.bind_of_error hcall _

theorem run_unblock_eq (files : FileView) (console : Console) : run files .unblock console =
    match Simulation.unblock console.simulation with
    | .error fault sim => .error fault { console with simulation := sim }
    | .ok none sim => .ok "No blocked processes" { console with simulation := sim }
    | .ok (some slot) sim => match Numeral.text slot with
      | .ok number => .ok s!"Process {number} unblocked" { console with simulation := sim }
      | .error limit => .error (.numeral limit) { console with simulation := sim } := by
  have hcall := onSimulation_eq Simulation.unblock console
  unfold run
  cases hunblock : Simulation.unblock console.simulation with
  | error fault sim =>
      rw [hunblock] at hcall
      exact Action.bind_of_error hcall _
  | ok slot sim =>
      rw [hunblock] at hcall
      refine (Action.bind_of_ok hcall _).trans ?_
      cases slot with
      | none => rfl
      | some slot =>
          dsimp only
          cases Numeral.text slot <;> rfl

theorem run_unblock {slot : Option Int} {sim : Simulation}
    (h : Simulation.unblock console.simulation = .ok slot sim) (files : FileView)
    (hw : Writable slot.toList) :
    ∃ output, run files .unblock console = .ok output { console with simulation := sim } := by
  rw [run_unblock_eq, h]
  cases slot with
  | none => exact ⟨_, rfl⟩
  | some slot =>
      dsimp only
      rw [Numeral.text_of_isWritable (hw slot List.mem_cons_self)]
      exact ⟨_, rfl⟩

theorem run_print (files : FileView) (console : Console) : run files .print console =
    match console.simulation.snapshot.text with
    | .ok text => .ok text console
    | .error limit => .error (.numeral limit) console := by
  unfold run
  dsimp only
  rw [Action.bind_get]
  cases console.simulation.snapshot.text <;> rfl

theorem run_stop_eq (files : FileView) (console : Console) : run files .stop console =
    match console.simulation.average with
    | .ok x => .ok (Turnaround.report x) { console with stopped := true }
    | .error fault => .error fault { console with stopped := true } := by
  have hreport : { console with stopped := true : Console }.report =
      Turnaround.report <$> console.simulation.average := rfl
  unfold run
  change (Action.ofExcept { console with stopped := true : Console }.report) _ = _
  rw [hreport]
  cases console.simulation.average <;> rfl

theorem run_stop {x : Double} (h : console.simulation.average = .ok x) (files : FileView) :
    run files .stop console =
      .ok (Turnaround.report x) { console with stopped := true } := by
  rw [run_stop_eq, h]

theorem executed_eq (console : Console) (files : FileView) (command : List Char) :
    executed files console command = Action.stateOf (execute files command console) :=
  Action.perform_snd _ _

/-- A command leaves the simulation as it was or as a call has left it. -/
theorem simulation_executed (h : console.simulation.Steady)
    (ht : console.simulation.tick + 1 < tickLimit) (files : FileView) (command : List Char) :
    (executed files console command).simulation = console.simulation ∨
      ∃ q, (executed files console command).simulation = (console.simulation.happen q).after := by
  have hlimit := tickLimit_le_writingBound
  rw [executed_eq]
  cases hstopped : console.stopped with
  | true =>
      rw [execute_of_stopped hstopped]
      exact .inl rfl
  | false =>
      rw [execute_of_running hstopped]
      cases Command.ofText? command with
      | none => exact .inl rfl
      | some c =>
          dsimp only
          cases c with
          | step =>
              refine .inr ⟨⟨.step, files⟩, ?_⟩
              rw [run_step, Simulation.after_step]
              cases Simulation.step files console.simulation <;> rfl
          | unblock =>
              obtain ⟨sim, hunblock⟩ := Simulation.unblock_eq_ok h (by omega)
              have hw := Simulation.writable_blocked h.sound h.coherent.toScheduled (by omega)
              obtain ⟨output, hrun⟩ := run_unblock hunblock files hw
              refine .inr ⟨⟨.unblock, files⟩, ?_⟩
              rw [hrun, Simulation.after_unblock, hunblock]
              rfl
          | print =>
              rw [run_print]
              cases console.simulation.snapshot.text <;> exact .inl rfl
          | stop =>
              obtain ⟨x, haverage⟩ := Simulation.average_eq_ok h.sound (by omega)
              rw [run_stop haverage]
              exact .inl rfl

theorem steady_executed (h : console.simulation.Steady)
    (ht : console.simulation.tick + 1 < tickLimit) (files : FileView) (command : List Char) :
    (executed files console command).simulation.Steady ∧
      (executed files console command).simulation.tick ≤ console.simulation.tick + 1 := by
  have hlimit := tickLimit_le_writingBound
  obtain hsame | ⟨q, hcall⟩ := simulation_executed h ht files command
  · rw [hsame]
    exact ⟨h, Nat.le_succ _⟩
  · rw [hcall]
    have hlegible : console.simulation.tick + 1 < Numeral.writingBound := by omega
    exact ⟨h.after hlegible q, (h.entered hlegible q).booked.tick_bounds.2⟩

/-- A command fails just where it says so. -/
theorem execute_error_iff (h : console.simulation.Steady)
    (ht : console.simulation.tick + 1 < tickLimit) (files : FileView) (command : List Char) :
    (∃ fault c, execute files command console = .error fault c) ↔
      console.Breaks files command := by
  have hlimit := tickLimit_le_writingBound
  unfold Breaks
  cases hstopped : console.stopped with
  | true =>
      rw [execute_of_stopped hstopped]
      exact iff_of_false (by simp) (by simp)
  | false =>
      rw [execute_of_running hstopped]
      cases Command.ofText? command with
      | none => exact iff_of_false (by simp [pure, EStateM.pure]) (by simp)
      | some c =>
          dsimp only
          cases c with
          | step =>
              have hstep := Simulation.step_error_iff h (by omega) files
              rw [run_step]
              simp only [← hstep]
              cases Simulation.step files console.simulation <;> simp
          | unblock =>
              obtain ⟨sim, hunblock⟩ := Simulation.unblock_eq_ok h (by omega)
              have hw := Simulation.writable_blocked h.sound h.coherent.toScheduled (by omega)
              obtain ⟨output, hrun⟩ := run_unblock hunblock files hw
              rw [hrun]
              exact iff_of_false (by simp) (by simp)
          | print =>
              have htext := Simulation.exists_snapshot_text_ok_iff h (by omega)
              have huntellable : Untellable console.simulation ↔
                  ¬ ∃ text, console.simulation.snapshot.text = .ok text := by
                simp only [htext, Untellable, not_forall, exists_prop]
              rw [run_print]
              simp only [huntellable]
              cases console.simulation.snapshot.text <;> simp
          | stop =>
              obtain ⟨x, haverage⟩ := Simulation.average_eq_ok h.sound (by omega)
              rw [run_stop haverage]
              exact iff_of_false (by simp) (by simp)

theorem not_breaks_of_stopped (h : console.stopped = true) : ¬ console.Breaks files command :=
  fun hbreaks => Bool.false_ne_true (hbreaks.1.symm.trans h)

theorem foldl_executed_of_stopped (h : console.stopped = true) (files : FileView)
    (commands : List (List Char)) : commands.foldl (executed files) console = console := by
  induction commands with
  | nil => rfl
  | cons command rest ih =>
      have hsame : executed files console command = console := by
        rw [executed_eq, execute_of_stopped h]
        rfl
      rw [List.foldl_cons, hsame, ih]

/-- The first command alone decides, unless the console goes on after it. -/
theorem feedAll_cons (files : FileView) (command : List Char) (rest : List (List Char))
    (console : Console) : feedAll files (command :: rest) console =
      match execute files command console with
      | .error fault c => .error fault c
      | .ok output c =>
        let shown := if output.isEmpty then [] else [output]
        if c.stopped then .ok shown c
        else match feedAll files rest c with
          | .ok outputs c => .ok (shown ++ outputs) c
          | .error fault c => .error fault c := by
  rw [feedAll]
  cases hexecute : execute files command console with
  | error fault c => exact Action.bind_of_error hexecute _
  | ok output c =>
      rw [Action.bind_of_ok hexecute]
      dsimp only
      rw [Action.bind_get]
      split
      · rfl
      · cases hrest : feedAll files rest c with
        | ok outputs c => exact Action.bind_of_ok hrest _
        | error fault c => exact Action.bind_of_error hrest _

theorem steady_foldl_executed (h : console.simulation.Steady) (files : FileView)
    (commands : List (List Char))
    (ht : console.simulation.tick + commands.length < tickLimit) :
    (commands.foldl (executed files) console).simulation.Steady ∧
      (commands.foldl (executed files) console).simulation.tick ≤
        console.simulation.tick + commands.length := by
  induction commands generalizing console with
  | nil => exact ⟨h, Nat.le_refl _⟩
  | cons command rest ih =>
      rw [List.length_cons] at ht ⊢
      obtain ⟨hsteady, htick⟩ := steady_executed h (by omega) files command
      obtain ⟨hlast, hle⟩ := ih hsteady (by omega)
      exact ⟨hlast, by rw [List.foldl_cons]; omega⟩

/-- Commands fail just where one of them does. -/
theorem feedAll_error_iff (h : console.simulation.Steady) (files : FileView)
    (commands : List (List Char))
    (ht : console.simulation.tick + commands.length < tickLimit) :
    (∃ fault c, feedAll files commands console = .error fault c) ↔
      ∃ earlier command later, commands = earlier ++ command :: later ∧
        (earlier.foldl (executed files) console).Breaks files command := by
  induction commands generalizing console with
  | nil => exact iff_of_false (by rintro ⟨_, _, ⟨⟩⟩) (by simp)
  | cons first rest ih =>
      rw [List.length_cons] at ht
      have hfirst := execute_error_iff h (by omega) files first
      obtain ⟨hsteady, htick⟩ := steady_executed h (by omega) files first
      -- the command to blame is the first one, or one of the others in what the first leaves
      have hblame : (∃ earlier command later, first :: rest = earlier ++ command :: later ∧
          (earlier.foldl (executed files) console).Breaks files command) ↔
          console.Breaks files first ∨ ∃ earlier command later,
            rest = earlier ++ command :: later ∧
              (earlier.foldl (executed files) (executed files console first)).Breaks
                files command := by
        constructor
        · rintro ⟨earlier, command, later, hsplit, hbreaks⟩
          cases earlier with
          | nil =>
              cases hsplit
              exact .inl hbreaks
          | cons _ earlier =>
              cases hsplit
              exact .inr ⟨earlier, command, later, rfl, hbreaks⟩
        · rintro (hbreaks | ⟨earlier, command, later, rfl, hbreaks⟩)
          · exact ⟨[], first, rest, rfl, hbreaks⟩
          · exact ⟨first :: earlier, command, later, rfl, hbreaks⟩
      rw [hblame, feedAll_cons]
      cases hexecute : execute files first console with
      | error fault c =>
          exact iff_of_true ⟨fault, c, rfl⟩ (.inl (hfirst.mp ⟨fault, c, hexecute⟩))
      | ok output c =>
          have hwhole : ¬ console.Breaks files first := by
            rw [← hfirst, hexecute]
            simp
          have hnext : executed files console first = c := by
            rw [executed_eq, hexecute]
            rfl
          rw [hnext] at hsteady htick
          rw [or_iff_right hwhole, hnext]
          dsimp only
          split
          · next hstopped =>
            refine iff_of_false (by simp) ?_
            rintro ⟨earlier, command, later, _, hbreaks⟩
            rw [foldl_executed_of_stopped hstopped] at hbreaks
            exact not_breaks_of_stopped hstopped hbreaks
          · rw [← ih hsteady (by omega)]
            cases feedAll files rest c <;> simp

/-- What a text leaves is what some of its first commands leave. -/
theorem exists_stateOf_feedAll_eq (files : FileView) (commands : List (List Char))
    (console : Console) : ∃ earlier later, commands = earlier ++ later ∧
      Action.stateOf (feedAll files commands console) =
        earlier.foldl (executed files) console := by
  induction commands generalizing console with
  | nil => exact ⟨[], [], rfl, rfl⟩
  | cons first rest ih =>
      have hone : executed files console first = Action.stateOf (execute files first console) :=
        executed_eq console files first
      rw [feedAll_cons]
      cases hexecute : execute files first console with
      | error fault c =>
          rw [hexecute] at hone
          exact ⟨[first], rest, rfl, hone.symm⟩
      | ok output c =>
          rw [hexecute] at hone
          have hnext : executed files console first = c := hone
          dsimp only
          split
          · exact ⟨[first], rest, rfl, hnext.symm⟩
          · obtain ⟨earlier, later, rfl, hstate⟩ := ih c
            refine ⟨first :: earlier, later, rfl, ?_⟩
            rw [List.foldl_cons, hnext, ← hstate]
            cases feedAll files (earlier ++ later) c <;> rfl

theorem steady_fed (h : console.simulation.Steady) (input : FileView × List Char)
    (ht : console.simulation.tick + (commandsIn input.2).length < tickLimit) :
    (fed console input).simulation.Steady ∧ (fed console input).simulation.tick ≤
      console.simulation.tick + (commandsIn input.2).length := by
  obtain ⟨earlier, later, hsplit, hstate⟩ :=
    exists_stateOf_feedAll_eq input.1 (commandsIn input.2) console
  have hfed : fed console input = earlier.foldl (executed input.1) console := by
    rw [← hstate]
    exact Action.perform_snd _ _
  have hlength : (commandsIn input.2).length = earlier.length + later.length := by
    rw [hsplit, List.length_append]
  obtain ⟨hsteady, hle⟩ := steady_foldl_executed h input.1 earlier (by omega)
  rw [hfed]
  exact ⟨hsteady, by omega⟩

theorem steady_foldl_fed (h : console.simulation.Steady) (past : List (FileView × List Char))
    (ht : console.simulation.tick + commandCount past < tickLimit) :
    (past.foldl fed console).simulation.Steady ∧ (past.foldl fed console).simulation.tick ≤
      console.simulation.tick + commandCount past := by
  induction past generalizing console with
  | nil => exact ⟨h, Nat.le_refl _⟩
  | cons input rest ih =>
      have hcount : commandCount (input :: rest) =
          (commandsIn input.2).length + commandCount rest := rfl
      rw [hcount] at ht ⊢
      obtain ⟨hsteady, htick⟩ := steady_fed h input (by omega)
      obtain ⟨hlast, hle⟩ := ih hsteady (by omega)
      exact ⟨hlast, by rw [List.foldl_cons]; omega⟩

theorem steady_after {sim : Simulation} (h : sim.Steady) (past : List (FileView × List Char))
    (ht : sim.tick + commandCount past < tickLimit) : (after sim past).simulation.Steady ∧
      (after sim past).simulation.tick ≤ sim.tick + commandCount past := by
  have hstart : ({ simulation := sim } : Console).simulation.Steady := h
  exact steady_foldl_fed hstart past ht

/-- A console on a started simulation can be had, and feeding it fails in just two cases: at a
step whose replacement cannot be loaded in a way that is reported, and at a report on the
state in which a counter or a register has too many digits. -/
theorem feed_error_iff {lines : List (List Char)} {source : String} {limit : Int}
    {settings : Settings} {loader : Loader} {program : Program} {sim : Simulation}
    (hdecode : Program.decode lines source limit = .ok program)
    (hlaunch : Simulation.launch settings loader program = .ok sim) :
    ofSimulation sim = .ok (after sim []) ∧
      ∀ past files text, commandCount past + (commandsIn text).length < tickLimit →
        ((∃ fault c, feed files text (after sim past) = .error fault c) ↔
          ∃ earlier command later, commandsIn text = earlier ++ command :: later ∧
            (earlier.foldl (executed files) (after sim past)).Breaks files command) := by
  obtain ⟨hcapacity, rfl⟩ := Simulation.launch_eq_ok_iff.mp hlaunch
  have hsteady : (Simulation.launched settings loader program).Steady :=
    Simulation.steady_launched hcapacity (Program.written_of_decode hdecode)
  have htick : (Simulation.launched settings loader program).tick = 0 := rfl
  refine ⟨if_pos hsteady.booted, fun past files text hcount => ?_⟩
  obtain ⟨hpast, hle⟩ := steady_after hsteady past (by omega)
  exact feedAll_error_iff hpast files (commandsIn text) (by omega)

/-- It replaces itself with a file whose name no file can have. -/
def nullDemo : Program where
  instructions := [{ opcode := .replace, path := "a\x00b" }]

theorem decode_nullDemo : Program.decode ["R a\x00b".toList] Program.defaultSource
    Program.defaultLimit = .ok nullDemo := by
  decide +kernel

theorem launch_nullDemo :
    Simulation.launch {} {} nullDemo = .ok (Simulation.launched {} {} nullDemo) :=
  Simulation.launch_eq (by decide) {} nullDemo

def noFiles : FileView :=
  fun _ => .error .notFound

theorem feed_error_iff_nullDemo :
    Program.decode ["R a\x00b".toList] Program.defaultSource Program.defaultLimit = .ok nullDemo ∧
      Simulation.launch {} {} nullDemo = .ok (Simulation.launched {} {} nullDemo) ∧
      commandCount [] + (commandsIn ['Q']).length < tickLimit ∧
      ∃ fault c, feed noFiles ['Q'] (after (Simulation.launched {} {} nullDemo) []) =
        .error fault c := by
  have hcount : commandCount [] + (commandsIn ['Q']).length < tickLimit := by
    have hone : commandCount [] + (commandsIn ['Q']).length = 1 := by decide
    rw [hone]
    exact one_lt_tickLimit
  have hbreaks : (after (Simulation.launched {} {} nullDemo) []).Breaks noFiles ['Q'] :=
    ⟨rfl, .inl ⟨by decide, by decide, { opcode := .replace, path := "a\x00b" }, by decide, rfl,
      .inl (by decide +kernel)⟩⟩
  exact ⟨decode_nullDemo, launch_nullDemo, hcount,
    ((feed_error_iff decode_nullDemo launch_nullDemo).2 [] noFiles ['Q'] hcount).mpr
      ⟨[], ['Q'], [], by decide, hbreaks⟩⟩

/-- Not every text is taken to its end. -/
theorem exists_feed_error : ¬ ∀ {lines : List (List Char)} {source : String} {limit : Int}
    {settings : Settings} {loader : Loader} {program : Program} {sim : Simulation},
    Program.decode lines source limit = .ok program →
    Simulation.launch settings loader program = .ok sim →
    ∀ (files : FileView) (text : List Char),
      ∃ outputs c, feed files text (after sim []) = .ok outputs c := by
  intro h
  obtain ⟨outputs, c, hok⟩ := h decode_nullDemo launch_nullDemo noFiles ['Q']
  have hfault : ((feed noFiles ['Q']).perform (after (Simulation.launched {} {} nullDemo) [])).1 =
      .error .nullInPath := by decide +kernel
  rw [Action.perform, hok] at hfault
  cases hfault

end Console
end Uniproc
