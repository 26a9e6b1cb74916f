import Uniproc.Proofs.Machine.Effect
import Uniproc.Proofs.Writing

/-!
Carrying out an instruction that has been fetched. The state and the files decide its
effect. It can stop before the effect, where the text that reports it cannot be begun, or
after it; the state that is left is then the one before the effect or the one after it, and
never one between.
-/

namespace Uniproc

/-- The operations that have such an effect. -/
def Effect.Stems : Effect → Opcode → Prop
  | .compute _, op => op = .set ∨ op = .add ∨ op = .subtract
  | .block, op => op = .block
  | .finish, op => op = .halt
  | .refuse, op | .spawn _ _, op => op = .fork
  | .install _, op | .keep _, op | .lose _, op | .abort _, op => op = .replace

namespace Simulation

/-- The effect of an instruction, when the program counter has moved on. -/
def effectOf (sim : Simulation) (files : FileView) (i : Instruction) : Effect :=
  match i.opcode with
  | .set => .compute i.number
  | .add => .compute (sim.machine.cpu.value + i.number)
  | .subtract => .compute (sim.machine.cpu.value - i.number)
  | .block => .block
  | .halt => .finish
  | .fork => match sim.machine.table.allocate with
    | .ok child => .spawn child i.number
    | .error _ => .refuse
  | .replace => match sim.loader.load files i.path with
    | .ok p => .install p
    | .error (.load cause) => if sim.settings.revert then .keep cause else .lose cause
    | .error fault => .abort fault

/-- The state after an effect. Nothing has been logged yet. -/
def affect (sim : Simulation) (slot : Int) (b : ControlBlock) (e : Effect) : Simulation :=
  { sim with
    machine := sim.machine.affect slot b sim.tick e
    turnaround := match e with
      | .finish => sim.turnaround.record b.startTime sim.tick
      | _ => sim.turnaround }

/-- An event of this tick about the process with control block `b` in `slot`. -/
def entry (sim : Simulation) (level : Level) (source message : String) (slot : Int)
    (b : ControlBlock) : Event where
  tick := sim.tick
  level := level
  source := source
  message := message
  slot := some slot
  pid := some b.pid

def logged (sim : Simulation) (events : List Event) : Simulation :=
  { sim with log := events.foldl EventLog.record sim.log }

/-- The numbers that an effect is reported with, those of the heading apart. -/
def numbersOf (sim : Simulation) (slot : Int) (b : ControlBlock) : Effect → List Int
  | .finish => [slot, b.pid, Turnaround.ofTicks b.startTime sim.tick]
  | .spawn _ _ => [(sim.tick : Int), sim.machine.table.nextPid, slot]
  | _ => []

/-- What an effect logs besides the report of the step. -/
def notesOf (sim : Simulation) (slot : Int) (b : ControlBlock) : Effect → List Event
  | .finish => [sim.entry .debug "scheduler"
      s!"Process {slot} (pid {b.pid}) terminated, turnaround {Turnaround.ofTicks b.startTime sim.tick}"
      slot b]
  | .refuse => [sim.entry .warning "cpu" Fault.noFreeSlot.message.toString slot b]
  | .keep cause | .lose cause =>
    [sim.entry .error "loader" s!"Replace failed: {cause.message}" slot b]
  | _ => []

def headingOf (sim : Simulation) (slot : Int) : String :=
  s!"Time: {sim.tick}, Process {slot}"

/-- The report of an instruction that most effects have. -/
def plainOf (sim : Simulation) (slot : Int) (i : Instruction) : String :=
  s!"{sim.headingOf slot} executed instruction {i.line}"

/-- The report of an instruction. -/
def messageOf (sim : Simulation) (slot : Int) (i : Instruction) : Effect → String
  | .refuse => s!"{sim.headingOf slot} could not fork: {Fault.noFreeSlot.message.toString}"
  | .spawn _ _ =>
    s!"Time: {sim.tick}, New Process {sim.machine.table.nextPid} created, Process {slot} continues"
  | .install _ => s!"{sim.headingOf slot} replaced with new program"
  | .keep cause | .lose cause =>
    s!"{sim.headingOf slot} failed to replace program: {cause.message}"
  | _ => sim.plainOf slot i

/-- All that can come of an instruction of the process with control block `b` in `slot`:
it is not begun, it is not finished, it is done and cannot be told, or it is done. -/
inductive Executed (files : FileView) (slot : Int) (b : ControlBlock) (i : Instruction)
    (sim : Simulation) : EStateM.Result Fault Simulation String → Prop
  | unbegun (h : ¬ Writable ([(sim.tick : Int), slot] ++ i.numbers)) :
      Executed files slot b i sim (.error (.numeral .writing) sim)
  | aborted {fault : Fault} (h : sim.effectOf files i = .abort fault) :
      Executed files slot b i sim (.error fault (sim.affect slot b (.abort fault)))
  | untold (h : ¬ Writable (sim.numbersOf slot b (sim.effectOf files i))) :
      Executed files slot b i sim
        (.error (.numeral .writing) (sim.affect slot b (sim.effectOf files i)))
  | done {e : Effect} (h : sim.effectOf files i = e) (hdone : ∀ fault, e ≠ .abort fault)
      (hwritable : Writable ([(sim.tick : Int), slot] ++ i.numbers))
      (htold : Writable (sim.numbersOf slot b e)) :
      Executed files slot b i sim (.ok (sim.messageOf slot i e)
        ((sim.affect slot b e).logged
          (sim.notesOf slot b e ++ [sim.entry .info "cpu" (sim.messageOf slot i e) slot b])))

variable {sim : Simulation} {slot : Int} {b : ControlBlock}

theorem onMachine_of_ok {α : Type} {action : Action Machine α} {a : α} {m : Machine}
    (h : action sim.machine = .ok a m) : onMachine action sim = .ok a { sim with machine := m } :=
  Action.onPart_of_ok h

theorem noteSlot_eq (hb : sim.machine.table.blockAt slot = some b) (level : Level)
    (source message : String) : noteSlot level source message slot sim =
      .ok () (sim.logged [sim.entry level source message slot b]) := by
  unfold noteSlot
  rw [Action.bind_of_ok (onMachine_of_ok (Machine.lookUp_eq hb))]
  rfl

/-- The process has ended before any of the numbers is written. -/
theorem finish_eq (hc : sim.machine.Coherent) (hrun : sim.machine.scheduler.running = some slot)
    (hb : sim.machine.table.blockAt slot = some b) : finish slot sim =
      (do
        let number ← Action.write (Numeral.text slot)
        let pid ← Action.write (Numeral.text b.pid)
        let turnaround ← Action.write (Numeral.text (Turnaround.ofTicks b.startTime sim.tick))
        noteSlot .debug "scheduler"
          s!"Process {number} (pid {pid}) terminated, turnaround {turnaround}" slot :
        Action Simulation Unit) (sim.affect slot b .finish) := by
  have hstate := hc.state_eq_running hrun hb
  have hend : onMachine Machine.terminateRunning
      { sim with turnaround := sim.turnaround.record b.startTime sim.tick } = _ :=
    onMachine_of_ok (Machine.terminateRunning_eq hrun hb hstate)
  unfold finish
  rw [Action.bind_of_ok (onMachine_of_ok (Machine.lookUp_eq hb))]
  change (onMachine Machine.terminateRunning >>= _ : Action Simulation Unit)
    { sim with turnaround := sim.turnaround.record b.startTime sim.tick } = _
  rw [Action.bind_of_ok hend]
  exact Action.bind_of_ok (x := modifyMachine .discardCpu) rfl _

theorem blockAt_affect_finish (hb : sim.machine.table.blockAt slot = some b) :
    (sim.affect slot b .finish).machine.table.blockAt slot =
      some { b with state := .terminated } := by
  change (sim.machine.afterEnd slot b).table.blockAt slot = _
  rw [Machine.blockAt_afterEnd hb, if_pos rfl]

theorem finish_of_writable (hc : sim.machine.Coherent)
    (hrun : sim.machine.scheduler.running = some slot)
    (hb : sim.machine.table.blockAt slot = some b)
    (hw : Writable (sim.numbersOf slot b .finish)) : finish slot sim =
      .ok () ((sim.affect slot b .finish).logged (sim.notesOf slot b .finish)) := by
  simp only [numbersOf, writable_cons] at hw
  obtain ⟨hslot, hpid, hturnaround, _⟩ := hw
  rw [finish_eq hc hrun hb, Numeral.text_of_isWritable hslot, Numeral.text_of_isWritable hpid,
    Numeral.text_of_isWritable hturnaround]
  exact noteSlot_eq (blockAt_affect_finish hb) _ _ _

theorem finish_of_not_writable (hc : sim.machine.Coherent)
    (hrun : sim.machine.scheduler.running = some slot)
    (hb : sim.machine.table.blockAt slot = some b)
    (hw : ¬ Writable (sim.numbersOf slot b .finish)) : finish slot sim =
      .error (.numeral .writing) (sim.affect slot b .finish) := by
  rw [finish_eq hc hrun hb]
  simp only [numbersOf, writable_cons, writable_nil, and_true] at hw
  by_cases hslot : Numeral.isWritable slot = true
  · by_cases hpid : Numeral.isWritable b.pid = true
    · rw [Numeral.text_of_isWritable hslot, Numeral.text_of_isWritable hpid,
        Numeral.text_of_not_isWritable fun ht => hw ⟨hslot, hpid, ht⟩]
      rfl
    · rw [Numeral.text_of_isWritable hslot, Numeral.text_of_not_isWritable hpid]
      rfl
  · rw [Numeral.text_of_not_isWritable hslot]
    rfl

theorem fork_of_refuse {fault : Fault} (hb : sim.machine.table.blockAt slot = some b)
    (ha : sim.machine.table.allocate = .error fault)
    (hw : Writable [(sim.tick : Int), slot]) (offset : Int) (i : Instruction) :
    fork slot offset sim =
      .ok (sim.messageOf slot i .refuse) (sim.logged (sim.notesOf slot b .refuse)) := by
  have hfault : fault = .noFreeSlot := (ProcessTable.live_of_allocate_error ha hb).1
  subst hfault
  unfold fork
  rw [Action.bind_get, Action.bind_of_ok (onMachine_of_ok (Machine.lookUp_eq hb)), ha]
  change (noteSlot _ _ _ _ >>= _ : Action Simulation String) sim = _
  rw [Action.bind_of_ok (noteSlot_eq hb _ _ _), heading_of_writable hw]
  rfl

/-- The child is in its slot and in the ready queue before any of the numbers is written. -/
theorem fork_eq {child : Nat} (hc : sim.machine.Coherent)
    (hrun : sim.machine.scheduler.running = some slot)
    (hb : sim.machine.table.blockAt slot = some b)
    (ha : sim.machine.table.allocate = .ok child) (offset : Int) : fork slot offset sim =
      (do
        let tick ← Action.write (Numeral.text sim.tick)
        let pid ← Action.write (Numeral.text sim.machine.table.nextPid)
        let number ← Action.write (Numeral.text slot)
        return s!"Time: {tick}, New Process {pid} created, Process {number} continues" :
        Action Simulation String) (sim.affect slot b (.spawn child offset)) := by
  obtain ⟨old, hold, hfree⟩ := ProcessTable.blockAt_of_allocate ha
  let drawn : Machine :=
    { sim.machine with table.nextPid := sim.machine.table.nextPid + 1 }
  let born : Machine :=
    { drawn with table := drawn.table.put child (sim.machine.newborn b sim.tick) }
  have hne : (child : Int) ≠ slot := by
    rintro rfl
    exact (hc.not_mem_of_free hold hfree).1 hrun
  have hhome : drawn.cpu.home ≠ some (child : Int).toNat := by
    change sim.machine.cpu.home ≠ _
    rw [hc.home_eq hrun]
    have := (ProcessTable.bounds_of_blockAt hb).1
    simp only [ne_eq, Option.some.injEq]
    omega
  have hspawn : onMachine (Machine.spawn child (sim.machine.newborn b sim.tick))
      { sim with machine := drawn } = .ok () { sim with machine := born } :=
    onMachine_of_ok (Machine.spawn_eq (m := drawn) hold hfree hhome _)
  have hborn : born.table.blockAt child = some (sim.machine.newborn b sim.tick) := by
    have hput := ProcessTable.blockAt_put (t := drawn.table) hold
      (sim.machine.newborn b sim.tick) child
    rwa [if_pos rfl] at hput
  have hdraw : onMachine Machine.drawPid sim =
      .ok sim.machine.table.nextPid { sim with machine := drawn } := onMachine_of_ok rfl
  have henqueue : onMachine (Machine.enqueue child) { sim with machine := born } = _ :=
    onMachine_of_ok (Machine.enqueue_eq hborn rfl (hc.not_mem_of_free hold hfree).2.1)
  unfold fork
  rw [Action.bind_get, Action.bind_of_ok (onMachine_of_ok (Machine.lookUp_eq hb)), ha]
  change (onMachine Machine.drawPid >>= _ : Action Simulation String) sim = _
  rw [Action.bind_of_ok hdraw]
  change (onMachine (Machine.spawn child (sim.machine.newborn b sim.tick)) >>= _ :
    Action Simulation String) { sim with machine := drawn } = _
  rw [Action.bind_of_ok hspawn, Action.bind_of_ok henqueue]
  exact Action.bind_of_ok (x := setProgramCounter _) rfl _

theorem fork_of_writable {child : Nat} (hc : sim.machine.Coherent)
    (hrun : sim.machine.scheduler.running = some slot)
    (hb : sim.machine.table.blockAt slot = some b)
    (ha : sim.machine.table.allocate = .ok child) {offset : Int}
    (hw : Writable (sim.numbersOf slot b (.spawn child offset))) (i : Instruction) :
    fork slot offset sim = .ok (sim.messageOf slot i (.spawn child offset))
      (sim.affect slot b (.spawn child offset)) := by
  simp only [numbersOf, writable_cons] at hw
  obtain ⟨htick, hpid, hslot, _⟩ := hw
  rw [fork_eq hc hrun hb ha, Numeral.text_of_isWritable htick, Numeral.text_of_isWritable hpid,
    Numeral.text_of_isWritable hslot]
  rfl

theorem fork_of_not_writable {child : Nat} (hc : sim.machine.Coherent)
    (hrun : sim.machine.scheduler.running = some slot)
    (hb : sim.machine.table.blockAt slot = some b)
    (ha : sim.machine.table.allocate = .ok child) {offset : Int}
    (hw : ¬ Writable (sim.numbersOf slot b (.spawn child offset))) :
    fork slot offset sim =
      .error (.numeral .writing) (sim.affect slot b (.spawn child offset)) := by
  rw [fork_eq hc hrun hb ha]
  simp only [numbersOf, writable_cons, writable_nil, and_true] at hw
  by_cases htick : Numeral.isWritable (sim.tick : Int) = true
  · by_cases hpid : Numeral.isWritable sim.machine.table.nextPid = true
    · rw [Numeral.text_of_isWritable htick, Numeral.text_of_isWritable hpid,
        Numeral.text_of_not_isWritable fun hslot => hw ⟨htick, hpid, hslot⟩]
      rfl
    · rw [Numeral.text_of_isWritable htick, Numeral.text_of_not_isWritable hpid]
      rfl
  · rw [Numeral.text_of_not_isWritable htick]
    rfl

/-- The state in which the program of the running process has been taken away, before
another one is loaded. -/
def emptied (sim : Simulation) (slot : Int) (b : ControlBlock) : Simulation :=
  { sim with machine := sim.machine.afterReplace slot b {} }

theorem blockAt_emptied (hb : sim.machine.table.blockAt slot = some b) :
    (sim.emptied slot b).machine.table.blockAt slot = some { b with program := {} } := by
  rw [emptied, Machine.blockAt_afterReplace hb, if_pos rfl]

theorem modifyMachine_replaceProgram (hc : sim.machine.Coherent)
    (hrun : sim.machine.scheduler.running = some slot)
    (hb : sim.machine.table.blockAt slot = some b) :
    modifyMachine (.replaceProgram {}) sim = .ok () (sim.emptied slot b) := by
  change EStateM.Result.ok () { sim with machine := sim.machine.replaceProgram {} } = _
  rw [Machine.replaceProgram_eq hb (hc.program_eq hrun hb) (hc.home_eq hrun)]
  rfl

theorem replace_of_error {fault : Fault} {files : FileView} {path : String}
    (hc : sim.machine.Coherent) (hrun : sim.machine.scheduler.running = some slot)
    (hb : sim.machine.table.blockAt slot = some b)
    (hload : sim.loader.load files path = .error fault) (hfault : ∀ cause, fault ≠ .load cause) :
    replace files slot path sim = .error fault (sim.affect slot b (.abort fault)) := by
  unfold replace
  rw [Action.bind_get, Action.bind_of_ok (modifyMachine_replaceProgram hc hrun hb), hload]
  cases fault with
  | load cause => exact absurd rfl (hfault cause)
  | _ => rfl

theorem replace_of_ok {p : Program} {files : FileView} {path : String}
    (hc : sim.machine.Coherent) (hrun : sim.machine.scheduler.running = some slot)
    (hb : sim.machine.table.blockAt slot = some b)
    (hload : sim.loader.load files path = .ok p) (hw : Writable [(sim.tick : Int), slot])
    (i : Instruction) : replace files slot path sim =
      .ok (sim.messageOf slot i (.install p)) (sim.affect slot b (.install p)) := by
  have hinstall : modifyMachine (.replaceProgram p) (sim.emptied slot b) =
      .ok () { sim with machine := sim.machine.afterReplace slot b p } := by
    change EStateM.Result.ok () { sim with
      machine := (sim.machine.afterReplace slot b {}).replaceProgram p } = _
    rw [Machine.replaceProgram_afterReplace hb (hc.home_eq hrun)]
  unfold replace
  rw [Action.bind_get, Action.bind_of_ok (modifyMachine_replaceProgram hc hrun hb), hload]
  change (modifyMachine (.replaceProgram p) >>= _ : Action Simulation String) _ = _
  rw [Action.bind_of_ok hinstall, heading_of_writable hw]
  rfl

theorem replace_of_keep {cause : LoadError} {files : FileView} {path : String}
    (hc : sim.machine.Coherent) (hrun : sim.machine.scheduler.running = some slot)
    (hb : sim.machine.table.blockAt slot = some b)
    (hload : sim.loader.load files path = .error (.load cause))
    (hrevert : sim.settings.revert = true) (hw : Writable [(sim.tick : Int), slot])
    (i : Instruction) : replace files slot path sim =
      .ok (sim.messageOf slot i (.keep cause)) (sim.logged (sim.notesOf slot b (.keep cause))) := by
  have hprogram := hc.program_eq hrun hb
  have hback : modifyMachine (.replaceProgram (sim.machine.cpu.program.getD {}))
      (sim.emptied slot b) = .ok () sim := by
    change EStateM.Result.ok () { sim with
      machine := (sim.machine.afterReplace slot b {}).replaceProgram _ } = _
    rw [hprogram, Option.getD_some, Machine.replaceProgram_afterReplace hb (hc.home_eq hrun),
      Machine.afterReplace_self hb hprogram]
  unfold replace
  rw [Action.bind_get, Action.bind_of_ok (modifyMachine_replaceProgram hc hrun hb), hload]
  change ((if sim.settings.revert then _ else _) : Action Simulation String) _ = _
  rw [if_pos hrevert, Action.bind_of_ok hback]
  change (noteSlot _ _ _ _ >>= _ : Action Simulation String) _ = _
  rw [Action.bind_of_ok (noteSlot_eq hb _ _ _), heading_of_writable hw]
  rfl

theorem replace_of_lose {cause : LoadError} {files : FileView} {path : String}
    (hc : sim.machine.Coherent) (hrun : sim.machine.scheduler.running = some slot)
    (hb : sim.machine.table.blockAt slot = some b)
    (hload : sim.loader.load files path = .error (.load cause))
    (hrevert : sim.settings.revert = false) (hw : Writable [(sim.tick : Int), slot])
    (i : Instruction) : replace files slot path sim =
      .ok (sim.messageOf slot i (.lose cause))
        ((sim.affect slot b (.lose cause)).logged (sim.notesOf slot b (.lose cause))) := by
  have hskip : setProgramCounter (sim.machine.cpu.programCounter + 1) (sim.emptied slot b) =
      .ok () (sim.affect slot b (.lose cause)) := rfl
  have hskipped : (sim.affect slot b (.lose cause)).machine.table.blockAt slot =
      some { b with program := {} } := blockAt_emptied hb
  unfold replace
  rw [Action.bind_get, Action.bind_of_ok (modifyMachine_replaceProgram hc hrun hb), hload]
  change ((if sim.settings.revert then _ else _) : Action Simulation String) _ = _
  rw [hrevert]
  change (setProgramCounter _ >>= _ : Action Simulation String) _ = _
  rw [Action.bind_of_ok hskip]
  change (noteSlot _ _ _ _ >>= _ : Action Simulation String) _ = _
  rw [Action.bind_of_ok (noteSlot_eq hskipped _ _ _), heading_of_writable hw]
  rfl

theorem stems_effectOf (sim : Simulation) (files : FileView) (i : Instruction) :
    (sim.effectOf files i).Stems i.opcode := by
  unfold effectOf
  cases hop : i.opcode with
  | set => exact .inl rfl
  | add => exact .inr (.inl rfl)
  | subtract => exact .inr (.inr rfl)
  | block | halt => rfl
  | fork => cases sim.machine.table.allocate <;> rfl
  | replace =>
      dsimp only
      split
      · rfl
      · split <;> rfl
      · rfl

theorem admits_effectOf (sim : Simulation) (files : FileView) (i : Instruction) :
    sim.machine.Admits (sim.effectOf files i) := by
  unfold effectOf
  cases i.opcode with
  | set | add | subtract | block | halt => trivial
  | fork =>
      cases ha : sim.machine.table.allocate with
      | ok child => exact ha
      | error _ => trivial
  | replace =>
      dsimp only
      split
      · trivial
      · split <;> trivial
      · trivial

theorem execute_of_writable {files : FileView} {i : Instruction}
    (hw : Writable ([(sim.tick : Int), slot] ++ i.numbers)) : execute files slot i sim =
      (do
        let message ← carryOut files slot i (sim.plainOf slot i)
        noteSlot .info "cpu" message slot
        return message : Action Simulation String) sim := by
  obtain ⟨hheading, hline⟩ := writable_append.mp hw
  unfold execute
  rw [Action.bind_get, heading_of_writable hheading, Action.bind_of_ok (Action.write_ok _ _),
    Instruction.text_of_writable hline, Action.bind_of_ok (Action.write_ok _ _)]
  rfl

theorem execute_of_not_writable {files : FileView} {i : Instruction}
    (hw : ¬ Writable ([(sim.tick : Int), slot] ++ i.numbers)) :
    execute files slot i sim = .error (.numeral .writing) sim := by
  rw [writable_append] at hw
  unfold execute
  rw [Action.bind_get]
  by_cases hheading : Writable [(sim.tick : Int), slot]
  · rw [heading_of_writable hheading, Action.bind_of_ok (Action.write_ok _ _),
      Instruction.text_of_not_writable fun hline => hw ⟨hheading, hline⟩]
    exact Action.bind_of_error (Action.write_error _ _) _
  · rw [heading_of_not_writable hheading]
    exact Action.bind_of_error (Action.write_error _ _) _

/-- An instruction is done once its effect is there and its own events are logged. -/
theorem executed_of_done {files : FileView} {i : Instruction} {e : Effect}
    (hc : sim.machine.Coherent) (hrun : sim.machine.scheduler.running = some slot)
    (hb : sim.machine.table.blockAt slot = some b)
    (hw : Writable ([(sim.tick : Int), slot] ++ i.numbers)) (he : sim.effectOf files i = e)
    (hdone : ∀ fault, e ≠ .abort fault) (htold : Writable (sim.numbersOf slot b e))
    (hcarry : carryOut files slot i (sim.plainOf slot i) sim =
      .ok (sim.messageOf slot i e) ((sim.affect slot b e).logged (sim.notesOf slot b e))) :
    Executed files slot b i sim (execute files slot i sim) := by
  obtain ⟨c, hat, hpid⟩ := Machine.exists_blockAt_affect hc hrun hb
    (he ▸ admits_effectOf sim files i) sim.tick
  have hnote : noteSlot .info "cpu" (sim.messageOf slot i e) slot
      ((sim.affect slot b e).logged (sim.notesOf slot b e)) = _ := noteSlot_eq hat _ _ _
  have hentry : ((sim.affect slot b e).logged (sim.notesOf slot b e)).logged
      [((sim.affect slot b e).logged (sim.notesOf slot b e)).entry .info "cpu"
        (sim.messageOf slot i e) slot c] =
      (sim.affect slot b e).logged (sim.notesOf slot b e ++
        [sim.entry .info "cpu" (sim.messageOf slot i e) slot b]) := by
    simp only [logged, List.foldl_append, entry, hpid]
    rfl
  rw [execute_of_writable hw, Action.bind_of_ok hcarry, Action.bind_of_ok hnote, hentry]
  exact .done he hdone hw htold

theorem executed_of_error {files : FileView} {i : Instruction} {fault : Fault} {s : Simulation}
    (hw : Writable ([(sim.tick : Int), slot] ++ i.numbers))
    (hcarry : carryOut files slot i (sim.plainOf slot i) sim = .error fault s) :
    execute files slot i sim = .error fault s := by
  rw [execute_of_writable hw]
  exact Action.bind_of_error hcarry _

section

variable {files : FileView} {i : Instruction}

theorem executed_halt (hc : sim.machine.Coherent)
    (hrun : sim.machine.scheduler.running = some slot)
    (hb : sim.machine.table.blockAt slot = some b)
    (hw : Writable ([(sim.tick : Int), slot] ++ i.numbers)) (hop : i.opcode = .halt) :
    Executed files slot b i sim (execute files slot i sim) := by
  have heffect : sim.effectOf files i = .finish := by rw [effectOf, hop]
  have hcarry : carryOut files slot i (sim.plainOf slot i) =
      (do finish slot; return sim.plainOf slot i) := by
    simp only [carryOut, hop]
  by_cases htold : Writable (sim.numbersOf slot b .finish)
  · refine executed_of_done hc hrun hb hw heffect (by simp) htold ?_
    rw [hcarry, Action.bind_of_ok (finish_of_writable hc hrun hb htold)]
    rfl
  · have hend := finish_of_not_writable hc hrun hb htold
    rw [executed_of_error hw (by rw [hcarry]; exact Action.bind_of_error hend _), ← heffect]
    exact .untold (heffect ▸ htold)

theorem executed_fork (hc : sim.machine.Coherent)
    (hrun : sim.machine.scheduler.running = some slot)
    (hb : sim.machine.table.blockAt slot = some b)
    (hw : Writable ([(sim.tick : Int), slot] ++ i.numbers)) (hop : i.opcode = .fork) :
    Executed files slot b i sim (execute files slot i sim) := by
  have hcarry : carryOut files slot i (sim.plainOf slot i) = fork slot i.number := by
    simp only [carryOut, hop]
  cases ha : sim.machine.table.allocate with
  | error fault =>
      refine executed_of_done (e := .refuse) hc hrun hb hw (by simp only [effectOf, hop, ha])
        (by simp) writable_nil ?_
      rw [hcarry]
      exact fork_of_refuse hb ha (writable_append.mp hw).1 i.number i
  | ok child =>
      have heffect : sim.effectOf files i = .spawn child i.number := by
        simp only [effectOf, hop, ha]
      by_cases htold : Writable (sim.numbersOf slot b (.spawn child i.number))
      · refine executed_of_done hc hrun hb hw heffect (by simp) htold ?_
        rw [hcarry]
        exact fork_of_writable hc hrun hb ha htold i
      · have hfork := fork_of_not_writable hc hrun hb ha htold
        rw [executed_of_error hw (by rw [hcarry]; exact hfork), ← heffect]
        exact .untold (heffect ▸ htold)

/-- A failure to load is reported, and any other failure ends the replacement. -/
theorem executed_replace (hc : sim.machine.Coherent)
    (hrun : sim.machine.scheduler.running = some slot)
    (hb : sim.machine.table.blockAt slot = some b)
    (hw : Writable ([(sim.tick : Int), slot] ++ i.numbers)) (hop : i.opcode = .replace) :
    Executed files slot b i sim (execute files slot i sim) := by
  have hheading := (writable_append.mp hw).1
  have hcarry : carryOut files slot i (sim.plainOf slot i) = replace files slot i.path := by
    simp only [carryOut, hop]
  have heffect : sim.effectOf files i = match sim.loader.load files i.path with
      | .ok p => .install p
      | .error (.load cause) => if sim.settings.revert then .keep cause else .lose cause
      | .error fault => .abort fault := by
    simp only [effectOf, hop]
  cases hload : sim.loader.load files i.path with
  | ok p =>
      rw [hload] at heffect
      refine executed_of_done hc hrun hb hw heffect (by simp) writable_nil ?_
      rw [hcarry]
      exact replace_of_ok hc hrun hb hload hheading i
  | error fault =>
      by_cases hcause : ∃ cause, fault = .load cause
      · obtain ⟨cause, rfl⟩ := hcause
        rw [hload] at heffect
        cases hrevert : sim.settings.revert with
        | true =>
            rw [hrevert] at heffect
            refine executed_of_done (e := .keep cause) hc hrun hb hw heffect (by simp)
              writable_nil ?_
            rw [hcarry]
            exact replace_of_keep hc hrun hb hload hrevert hheading i
        | false =>
            rw [hrevert] at heffect
            refine executed_of_done (e := .lose cause) hc hrun hb hw heffect (by simp)
              writable_nil ?_
            rw [hcarry]
            exact replace_of_lose hc hrun hb hload hrevert hheading i
      · have hfault (cause : LoadError) : fault ≠ .load cause := fun h => hcause ⟨cause, h⟩
        have habort : sim.effectOf files i = .abort fault := by
          rw [heffect, hload]
          cases fault with
          | load cause => exact absurd rfl (hfault cause)
          | _ => rfl
        have hreplace := replace_of_error hc hrun hb hload hfault
        rw [executed_of_error hw (by rw [hcarry]; exact hreplace)]
        exact .aborted habort

end

/-- Whatever instruction is carried out, the outcome is one of those listed. -/
theorem executed (hc : sim.machine.Coherent) (hrun : sim.machine.scheduler.running = some slot)
    (hb : sim.machine.table.blockAt slot = some b) (files : FileView) (i : Instruction) :
    Executed files slot b i sim (execute files slot i sim) := by
  by_cases hw : Writable ([(sim.tick : Int), slot] ++ i.numbers)
  · cases hop : i.opcode with
    | set | add | subtract =>
        refine executed_of_done (e := .compute _) hc hrun hb hw (by rw [effectOf, hop]) (by simp)
          writable_nil ?_
        rw [carryOut, hop]
        rfl
    | block =>
        refine executed_of_done (e := .block) hc hrun hb hw (by rw [effectOf, hop]) (by simp)
          writable_nil ?_
        rw [carryOut, hop]
        change (onMachine (Machine.blockRunning _ _) >>= _ : Action Simulation String) sim = _
        rw [Action.bind_of_ok (onMachine_of_ok
          (Machine.blockRunning_eq hrun hb (hc.state_eq_running hrun hb) _ _))]
        rfl
    | halt => exact executed_halt hc hrun hb hw hop
    | fork => exact executed_fork hc hrun hb hw hop
    | replace => exact executed_replace hc hrun hb hw hop
  · rw [execute_of_not_writable hw]
    exact .unbegun hw

end Simulation
end Uniproc
