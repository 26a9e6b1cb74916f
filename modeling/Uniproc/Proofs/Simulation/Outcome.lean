import Uniproc.Proofs.Simulation.Effect

/-!
What a step and an unblocking come to, as functions of the state and the files. Each has a
point behind which nothing can stop it; the numbers that are written before decide whether it
gets there, and where it stops if it does not.
-/

namespace Uniproc

/-- The fault that an effect ends in. -/
def Effect.fault? : Effect → Option Fault
  | .abort fault => some fault
  | _ => none

theorem Effect.fault?_eq_none_iff {e : Effect} :
    e.fault? = none ↔ ∀ fault, e ≠ .abort fault := by
  cases e <;> simp [Effect.fault?]

theorem Effect.fault?_eq_some_iff {e : Effect} {fault : Fault} :
    e.fault? = some fault ↔ e = .abort fault := by
  cases e <;> simp [Effect.fault?]

/-- The result if all the numbers can be written, and else what is left where they cannot. -/
def checked {σ α : Type} (numbers : List Int) (stop : σ) (r : EStateM.Result Fault σ α) :
    EStateM.Result Fault σ α :=
  if Writable numbers then r else .error (.numeral .writing) stop

section

variable {σ τ α β : Type} {numbers : List Int}

theorem checked_of_writable (hw : Writable numbers) (stop : σ) (r : EStateM.Result Fault σ α) :
    checked numbers stop r = r :=
  if_pos hw

theorem checked_of_not_writable (hw : ¬ Writable numbers) (stop : σ)
    (r : EStateM.Result Fault σ α) :
    checked numbers stop r = .error (.numeral .writing) stop :=
  if_neg hw

theorem checked_eq_ok_iff {stop s : σ} {a : α} {r : EStateM.Result Fault σ α} :
    checked numbers stop r = .ok a s ↔ Writable numbers ∧ r = .ok a s := by
  by_cases hw : Writable numbers
  · rw [checked_of_writable hw]
    exact (and_iff_right hw).symm
  · rw [checked_of_not_writable hw]
    exact iff_of_false (by simp) (fun h => hw h.1)

theorem mapResult_checked (g : σ → τ) (f : α → β) (stop : σ) (r : EStateM.Result Fault σ α) :
    Action.mapResult g f (checked numbers stop r) =
      checked numbers (g stop) (Action.mapResult g f r) := by
  by_cases hw : Writable numbers
  · rw [checked_of_writable hw, checked_of_writable hw]
  · rw [checked_of_not_writable hw, checked_of_not_writable hw]
    rfl

end

namespace Simulation

@[simp] theorem machine_logged (sim : Simulation) (events : List Event) :
    (sim.logged events).machine = sim.machine := rfl

@[simp] theorem tick_logged (sim : Simulation) (events : List Event) :
    (sim.logged events).tick = sim.tick := rfl

theorem toList_logged (sim : Simulation) (events : List Event) :
    (sim.logged events).log.toList = sim.log.toList ++ events := by
  induction events generalizing sim with
  | nil =>
      rw [List.append_nil]
      rfl
  | cons e events ih =>
      have hrest := ih (sim.logged [e])
      have hfirst : (sim.logged [e]).log.toList = sim.log.toList ++ [e] :=
        EventLog.toList_record sim.log e
      rw [hfirst, List.append_assoc] at hrest
      exact hrest

/-- The next instruction of the program that the CPU runs. -/
def next? (sim : Simulation) : Option Instruction :=
  (sim.machine.cpu.program.getD {}).instructions[sim.machine.cpu.programCounter.toNat]?

/-- The state in which an instruction takes effect: the program counter has moved on. -/
def fetched (sim : Simulation) : Simulation :=
  { sim with machine := sim.machine.withCounter (sim.machine.cpu.programCounter + 1) }

/-- A process without an instruction left does not move on. -/
def fetchedBy (sim : Simulation) : Option Instruction → Simulation
  | some _ => sim.fetched
  | none => sim

def effectAt (sim : Simulation) (files : FileView) : Option Instruction → Effect
  | some i => sim.effectOf files i
  | none => .finish

def messageAt (sim : Simulation) (slot : Int) (e : Effect) : Option Instruction → String
  | some i => sim.messageOf slot i e
  | none => s!"{sim.headingOf slot} reached end of program without E operation"

def eventsAt (sim : Simulation) (slot : Int) (b : ControlBlock) (e : Effect)
    (i? : Option Instruction) : List Event :=
  sim.notesOf slot b e ++
    [sim.entry (if i?.isSome then .info else .warning) "cpu" (sim.messageAt slot e i?) slot b]

def elapsed (sim : Simulation) : Simulation :=
  { sim with tick := sim.tick + 1 }

def dispatched (sim : Simulation) : Simulation :=
  { sim with machine := sim.machine.afterDispatch }

def unblocked (sim : Simulation) : Simulation :=
  { sim with machine := sim.machine.afterUnblock }

/-- What a step without a running process logs. -/
def idleEvents (sim : Simulation) : List Event :=
  [{ tick := sim.tick, level := .warning, source := "cpu", message := noProcessRunning }]

/-- What giving the CPU away logs. -/
def switchEvents (sim : Simulation) : List Event :=
  match sim.machine.next? with
  | some slot => (sim.machine.table.blockAt slot).toList.map
    (sim.entry .debug "scheduler" s!"Process {slot} dispatched" slot)
  | none => []

/-- What unblocking logs. -/
def wakeEvents (sim : Simulation) : List Event :=
  match sim.machine.scheduler.blocked with
  | slot :: _ => (sim.machine.table.blockAt slot).toList.map
    (sim.entry .debug "scheduler" s!"Process {slot} unblocked" slot)
  | [] => []

def turnReport (sim : Simulation) (slot : Int) (b : ControlBlock) (e : Effect)
    (i? : Option Instruction) : StepReport :=
  ⟨sim.tick, some slot, some b.pid, i?, sim.messageAt slot e i?⟩

/-- What the turn of the process with control block `b` in `slot` comes to, from the state in
which the next instruction takes effect. An instruction is announced before it is carried out;
a process that has none left ends first. -/
def turnOutcome (mid : Simulation) (files : FileView) (slot : Int) (b : ControlBlock)
    (i? : Option Instruction) : EStateM.Result Fault Simulation StepReport :=
  let e := mid.effectAt files i?
  let s := mid.affect slot b e
  let done := .ok (mid.turnReport slot b e i?) (s.logged (mid.eventsAt slot b e i?))
  match i? with
  | some i => checked ([(mid.tick : Int), slot] ++ i.numbers) mid
      (match e.fault? with
        | some fault => .error fault s
        | none => checked (mid.numbersOf slot b e) s done)
  | none => checked (mid.numbersOf slot b e) s
      (checked [(mid.tick : Int), slot] (s.logged (mid.notesOf slot b e)) done)

/-- What is left to do when a step or an unblocking has its answer. -/
def dispatchOutcome {α : Type} (sim : Simulation) (a : α) : EStateM.Result Fault Simulation α :=
  checked sim.machine.next?.toList sim.dispatched
    (.ok a (sim.dispatched.logged sim.switchEvents))

def stepOutcome (sim : Simulation) (files : FileView) :
    EStateM.Result Fault Simulation StepReport :=
  match sim.machine.scheduler.running with
  | none => .ok ⟨sim.tick, none, none, none, noProcessRunning⟩ (sim.logged sim.idleEvents).elapsed
  | some slot =>
    let b := (sim.machine.table.blockAt slot).getD {}
    match (sim.fetchedBy sim.next?).turnOutcome files slot b sim.next? with
    | .ok report s => s.elapsed.dispatchOutcome report
    | .error fault s => .error fault s

def unblockOutcome (sim : Simulation) : EStateM.Result Fault Simulation (Option Int) :=
  let slot? := sim.machine.scheduler.blocked.head?
  checked slot?.toList sim.unblocked ((sim.unblocked.logged sim.wakeEvents).dispatchOutcome slot?)

variable {sim : Simulation} {slot : Int} {b : ControlBlock}

@[simp] theorem scheduler_fetchedBy (sim : Simulation) (i? : Option Instruction) :
    (sim.fetchedBy i?).machine.scheduler = sim.machine.scheduler := by
  cases i? <;> rfl

@[simp] theorem table_fetchedBy (sim : Simulation) (i? : Option Instruction) :
    (sim.fetchedBy i?).machine.table = sim.machine.table := by
  cases i? <;> rfl

@[simp] theorem tick_fetchedBy (sim : Simulation) (i? : Option Instruction) :
    (sim.fetchedBy i?).tick = sim.tick := by
  cases i? <;> rfl

theorem coherent_fetchedBy (hc : sim.machine.Coherent)
    (hrun : sim.machine.scheduler.running = some slot) (i? : Option Instruction) :
    (sim.fetchedBy i?).machine.Coherent := by
  cases i? with
  | some _ =>
      have hcounter := hc.counter_nonneg
      exact Machine.coherent_withCounter hc hrun (by omega)
  | none => exact hc

theorem admits_effectAt (sim : Simulation) (files : FileView) (i? : Option Instruction) :
    sim.machine.Admits (sim.effectAt files i?) := by
  cases i? with
  | some i => exact admits_effectOf sim files i
  | none => trivial

/-- Every effect but the end is that of an instruction. -/
theorem exists_stems_of_effectAt {files : FileView} {i? : Option Instruction} {e : Effect}
    (h : sim.effectAt files i? = e) (hfinish : e ≠ .finish) :
    ∃ i, i? = some i ∧ e.Stems i.opcode := by
  cases i? with
  | none => exact absurd h.symm hfinish
  | some i => exact ⟨i, rfl, h ▸ stems_effectOf sim files i⟩

/-- A turn that is reported has had its effect and logged its events. -/
theorem turnOutcome_ok {files : FileView} {i? : Option Instruction} {report : StepReport}
    {s : Simulation} (h : sim.turnOutcome files slot b i? = .ok report s) :
    report = sim.turnReport slot b (sim.effectAt files i?) i? ∧
      s = (sim.affect slot b (sim.effectAt files i?)).logged
        (sim.eventsAt slot b (sim.effectAt files i?) i?) ∧
      ∀ fault, sim.effectAt files i? ≠ .abort fault := by
  unfold turnOutcome at h
  cases i? with
  | some i =>
      dsimp only at h
      obtain ⟨_, h⟩ := checked_eq_ok_iff.mp h
      cases hfault : (sim.effectAt files (some i)).fault? with
      | some fault =>
          rw [hfault] at h
          cases h
      | none =>
          rw [hfault] at h
          obtain ⟨_, h⟩ := checked_eq_ok_iff.mp h
          cases h
          exact ⟨rfl, rfl, Effect.fault?_eq_none_iff.mp hfault⟩
  | none =>
      dsimp only at h
      obtain ⟨_, h⟩ := checked_eq_ok_iff.mp h
      obtain ⟨_, h⟩ := checked_eq_ok_iff.mp h
      cases h
      exact ⟨rfl, rfl, by simp [effectAt]⟩

theorem coherent_of_turnOutcome {files : FileView} {report : StepReport} {s : Simulation}
    (hc : sim.machine.Coherent) (hrun : sim.machine.scheduler.running = some slot)
    (hb : sim.machine.table.blockAt slot = some b)
    (h : (sim.fetchedBy sim.next?).turnOutcome files slot b sim.next? = .ok report s) :
    s.machine.Coherent := by
  obtain ⟨_, hs, _⟩ := turnOutcome_ok h
  rw [hs]
  exact Machine.coherent_affect (coherent_fetchedBy hc hrun sim.next?) (by simpa using hrun)
    (by simpa using hb) (admits_effectAt _ _ _) _

/-- An instruction that is announced and carried out is reported last. -/
theorem execute_eq (hc : sim.machine.Coherent) (hrun : sim.machine.scheduler.running = some slot)
    (hb : sim.machine.table.blockAt slot = some b) (files : FileView) (i : Instruction) :
    (do
      let message ← execute files slot i
      return ⟨sim.tick, some slot, some b.pid, some i, message⟩ :
      Action Simulation StepReport) sim = sim.turnOutcome files slot b (some i) := by
  unfold turnOutcome
  dsimp only
  by_cases hw : Writable ([(sim.tick : Int), slot] ++ i.numbers)
  · rw [checked_of_writable hw]
    generalize hx : execute files slot i sim = x
    have hexec := executed hc hrun hb files i
    rw [hx] at hexec
    cases hexec with
    | unbegun h => exact absurd hw h
    | aborted h =>
        rw [Action.bind_of_error hx, effectAt, h]
        rfl
    | untold h =>
        have hfault : (sim.effectOf files i).fault? = none := by
          rw [Effect.fault?_eq_none_iff]
          intro fault heffect
          rw [heffect] at h
          exact h writable_nil
        rw [Action.bind_of_error hx, effectAt, hfault]
        exact (checked_of_not_writable h _ _).symm
    | done he hdone _ htold =>
        rw [Action.bind_of_ok hx, effectAt, he, Effect.fault?_eq_none_iff.mpr hdone]
        exact (checked_of_writable htold _ _).symm
  · rw [checked_of_not_writable hw, Action.bind_of_error (execute_of_not_writable hw)]

theorem fetch_eq (h : 0 ≤ sim.machine.cpu.programCounter) : sim.fetch = .ok sim.next? := by
  unfold fetch next?
  dsimp only
  generalize sim.machine.cpu.program.getD {} = p
  generalize sim.machine.cpu.programCounter = pc at h ⊢
  by_cases hlt : pc < (p.length : Int)
  · have hpos : pc.toNat < p.length := by omega
    have hindex := resolveIndex_of_lt hpos
    rw [Int.toNat_of_nonneg h] at hindex
    have hat : p.instructions[pc.toNat]? = some (p.instructions.get ⟨pc.toNat, hpos⟩) :=
      List.getElem?_eq_getElem hpos
    rw [if_pos hlt, Program.get, hindex, Option.bind_some, hat]
    rfl
  · have hlen : p.instructions.length ≤ pc.toNat := by
      change ¬ pc < (p.instructions.length : Int) at hlt
      omega
    rw [if_neg hlt, List.getElem?_eq_none hlen]

theorem runSlot_of_some {i : Instruction} (hc : sim.machine.Coherent)
    (hb : sim.machine.table.blockAt slot = some b) (hnext : sim.next? = some i)
    (files : FileView) : runSlot files slot sim =
      (do
        let message ← execute files slot i
        return ⟨sim.tick, some slot, some b.pid, some i, message⟩ :
        Action Simulation StepReport) sim.fetched := by
  have hfetch : Action.ofExcept sim.fetch sim = .ok (some i) sim := by
    rw [fetch_eq hc.counter_nonneg, hnext]
    rfl
  unfold runSlot
  rw [Action.bind_get, Action.bind_of_ok (onMachine_of_ok (Machine.lookUp_eq hb)),
    Action.bind_of_ok hfetch]
  exact Action.bind_of_ok (x := setProgramCounter _) rfl _

theorem runSlot_of_none (hc : sim.machine.Coherent)
    (hb : sim.machine.table.blockAt slot = some b) (hnext : sim.next? = none)
    (files : FileView) : runSlot files slot sim =
      (do
        finish slot
        let heading ← Action.write (heading sim.tick slot)
        let message := s!"{heading} reached end of program without E operation"
        noteSlot .warning "cpu" message slot
        return ⟨sim.tick, some slot, some b.pid, none, message⟩ :
        Action Simulation StepReport) sim := by
  have hfetch : Action.ofExcept sim.fetch sim = .ok none sim := by
    rw [fetch_eq hc.counter_nonneg, hnext]
    rfl
  unfold runSlot
  rw [Action.bind_get, Action.bind_of_ok (onMachine_of_ok (Machine.lookUp_eq hb)),
    Action.bind_of_ok hfetch]

/-- Behind the end of the program the process ends before its heading is written. -/
theorem exhausted_eq (hc : sim.machine.Coherent)
    (hrun : sim.machine.scheduler.running = some slot)
    (hb : sim.machine.table.blockAt slot = some b) (files : FileView) :
    (do
      finish slot
      let heading ← Action.write (heading sim.tick slot)
      let message := s!"{heading} reached end of program without E operation"
      noteSlot .warning "cpu" message slot
      return ⟨sim.tick, some slot, some b.pid, none, message⟩ :
      Action Simulation StepReport) sim = sim.turnOutcome files slot b none := by
  unfold turnOutcome
  dsimp only [effectAt]
  by_cases htold : Writable (sim.numbersOf slot b .finish)
  · rw [checked_of_writable htold, Action.bind_of_ok (finish_of_writable hc hrun hb htold)]
    by_cases hw : Writable [(sim.tick : Int), slot]
    · rw [checked_of_writable hw, heading_of_writable hw, Action.bind_of_ok (Action.write_ok _ _)]
      have hat : ((sim.affect slot b .finish).logged
          (sim.notesOf slot b .finish)).machine.table.blockAt slot =
          some { b with state := .terminated } := blockAt_affect_finish hb
      have hnote : noteSlot .warning "cpu" (sim.messageAt slot .finish none) slot
          ((sim.affect slot b .finish).logged (sim.notesOf slot b .finish)) = _ :=
        noteSlot_eq hat _ _ _
      have hevents : ((sim.affect slot b .finish).logged (sim.notesOf slot b .finish)).logged
          [((sim.affect slot b .finish).logged (sim.notesOf slot b .finish)).entry .warning
            "cpu" (sim.messageAt slot .finish none) slot { b with state := .terminated }] =
          (sim.affect slot b .finish).logged (sim.eventsAt slot b .finish none) := by
        simp only [logged, eventsAt, List.foldl_append]
        rfl
      rw [hevents] at hnote
      exact Action.bind_of_ok hnote _
    · rw [checked_of_not_writable hw, heading_of_not_writable hw]
      exact Action.bind_of_error (Action.write_error _ _) _
  · rw [checked_of_not_writable htold]
    exact Action.bind_of_error (finish_of_not_writable hc hrun hb htold) _

theorem runSlot_eq (hc : sim.machine.Coherent) (hrun : sim.machine.scheduler.running = some slot)
    (hb : sim.machine.table.blockAt slot = some b) (files : FileView) :
    runSlot files slot sim = (sim.fetchedBy sim.next?).turnOutcome files slot b sim.next? := by
  cases hnext : sim.next? with
  | some i =>
      rw [runSlot_of_some hc hb hnext]
      exact execute_eq (coherent_fetchedBy hc hrun (some i)) hrun hb files i
  | none =>
      rw [runSlot_of_none hc hb hnext]
      exact exhausted_eq hc hrun hb files

/-- The process has the CPU before its slot is written. -/
theorem dispatch_eq {rest : List Int} (hidle : sim.machine.scheduler.running = none)
    (hready : sim.machine.scheduler.ready = slot :: rest)
    (hb : sim.machine.table.blockAt slot = some b) (hstate : b.state = .ready) : dispatch sim =
      (do
        let number ← Action.write (Numeral.text slot)
        noteSlot .debug "scheduler" s!"Process {number} dispatched" slot : Action Simulation Unit)
      { sim with machine := sim.machine.afterSwitch slot b rest } := by
  have hswitch : onMachine Machine.dispatch sim = _ :=
    onMachine_of_ok (Machine.dispatch_switch hidle hready hb hstate)
  have hload : onMachine (Machine.loadCpu slot) { sim with
      machine := { sim.machine.afterSwitch slot b rest with cpu := sim.machine.cpu } } = _ :=
    onMachine_of_ok
      (Machine.loadCpu_eq ((Machine.blockAt_afterSwitch hb rest slot).trans (if_pos rfl)))
  unfold dispatch
  rw [Action.bind_of_ok hswitch]
  change (onMachine (Machine.loadCpu slot) >>= _ : Action Simulation Unit) _ = _
  rw [Action.bind_of_ok hload]
  rfl

theorem blockAt_switched (hb : sim.machine.table.blockAt slot = some b) (rest : List Int) :
    { sim with machine := sim.machine.afterSwitch slot b rest }.machine.table.blockAt slot =
      some { b with state := .running } :=
  (Machine.blockAt_afterSwitch hb rest slot).trans (if_pos rfl)

theorem switchEvents_eq (hnext : sim.machine.next? = some slot)
    (hb : sim.machine.table.blockAt slot = some b) : sim.switchEvents =
      [sim.entry .debug "scheduler" s!"Process {slot} dispatched" slot b] := by
  simp only [switchEvents, hnext, hb, Option.toList_some, List.map_cons, List.map_nil]

theorem dispatch_of_writable (hc : sim.machine.Coherent)
    (hw : Writable sim.machine.next?.toList) :
    dispatch sim = .ok () (sim.dispatched.logged sim.switchEvents) := by
  obtain ⟨hnext, heq⟩ | ⟨slot, b, rest, hnext, hidle, hready, hb, hstate, heq⟩ :=
    hc.afterDispatch_cases
  · unfold dispatch
    rw [Action.bind_of_ok (onMachine_of_ok (Machine.dispatch_stay hnext)), dispatched, heq,
      switchEvents, hnext]
    rfl
  · rw [hnext] at hw
    have hslot := hw slot List.mem_cons_self
    rw [dispatch_eq hidle hready hb hstate, Numeral.text_of_isWritable hslot,
      Action.bind_of_ok (Action.write_ok _ _), switchEvents_eq hnext hb, dispatched, heq]
    exact noteSlot_eq (blockAt_switched hb rest) _ _ _

theorem dispatch_of_not_writable (hc : sim.machine.Coherent)
    (hw : ¬ Writable sim.machine.next?.toList) :
    dispatch sim = .error (.numeral .writing) sim.dispatched := by
  obtain ⟨hnext, _⟩ | ⟨slot, b, rest, hnext, hidle, hready, hb, hstate, heq⟩ :=
    hc.afterDispatch_cases
  · rw [hnext] at hw
    exact absurd writable_nil hw
  · have hslot : ¬ Numeral.isWritable slot = true := by
      intro hslot
      rw [hnext] at hw
      exact hw (writable_cons.mpr ⟨hslot, writable_nil⟩)
    rw [dispatch_eq hidle hready hb hstate, Numeral.text_of_not_isWritable hslot, dispatched, heq]
    exact Action.bind_of_error (Action.write_error _ _) _

theorem requireBooted_eq (h : sim.booted = true) : requireBooted sim = .ok () sim := by
  simp only [requireBooted, Action.bind_get, h]
  rfl

theorem wakeEvents_eq {rest : List Int} (hblocked : sim.machine.scheduler.blocked = slot :: rest)
    (hb : sim.machine.table.blockAt slot = some b) : sim.wakeEvents =
      [sim.entry .debug "scheduler" s!"Process {slot} unblocked" slot b] := by
  simp only [wakeEvents, hblocked, hb, Option.toList_some, List.map_cons, List.map_nil]

theorem blockAt_woken (hb : sim.machine.table.blockAt slot = some b) (rest : List Int) :
    { sim with machine := sim.machine.afterWake slot b rest }.machine.table.blockAt slot =
      some { b with state := .ready } :=
  Machine.blockAt_afterWake_self hb rest

theorem dispatch_eq_outcome {α : Type} (hc : sim.machine.Coherent) (a : α) :
    (do dispatch; return a : Action Simulation α) sim = sim.dispatchOutcome a := by
  unfold dispatchOutcome
  by_cases hw : Writable sim.machine.next?.toList
  · rw [checked_of_writable hw, Action.bind_of_ok (dispatch_of_writable hc hw)]
    rfl
  · rw [checked_of_not_writable hw, Action.bind_of_error (dispatch_of_not_writable hc hw)]

theorem unblock_eq (hbooted : sim.booted = true) (hc : sim.machine.Coherent) :
    unblock sim = sim.unblockOutcome := by
  have hrest : (do dispatch; return sim.machine.scheduler.blocked.head? :
      Action Simulation (Option Int)) (sim.unblocked.logged sim.wakeEvents) =
      (sim.unblocked.logged sim.wakeEvents).dispatchOutcome sim.machine.scheduler.blocked.head? :=
    dispatch_eq_outcome (Machine.coherent_afterUnblock hc) _
  unfold unblock unblockOutcome
  rw [Action.bind_of_ok (requireBooted_eq hbooted)]
  obtain ⟨hblocked, heq⟩ | ⟨slot, b, rest, hblocked, hb, hstate, heq⟩ := hc.afterUnblock_cases
  · have hevents : sim.wakeEvents = [] := by simp only [wakeEvents, hblocked]
    have hstay : sim.unblocked = sim := by rw [unblocked, heq]
    rw [hevents, hblocked, hstay] at hrest
    rw [Action.bind_of_ok (onMachine_of_ok (Machine.unblock_stay hblocked)), hevents, hblocked,
      hstay]
    exact hrest
  · have hwoken : sim.unblocked = { sim with machine := sim.machine.afterWake slot b rest } := by
      rw [unblocked, heq]
    rw [Action.bind_of_ok (onMachine_of_ok (Machine.unblock_wake hblocked hb hstate)), ← hwoken]
    dsimp only
    rw [hblocked, List.head?_cons, Option.toList_some]
    by_cases hslot : Numeral.isWritable slot = true
    · have hnote : noteSlot .debug "scheduler" s!"Process {toString slot} unblocked" slot
          sim.unblocked = _ := noteSlot_eq (hwoken ▸ blockAt_woken hb rest) _ _ _
      rw [checked_of_writable (writable_cons.mpr ⟨hslot, writable_nil⟩)]
      rw [wakeEvents_eq hblocked hb, hblocked] at hrest
      rw [wakeEvents_eq hblocked hb, Numeral.text_of_isWritable hslot,
        Action.bind_of_ok (Action.write_ok _ _), Action.bind_of_ok hnote]
      exact hrest
    · have hw : ¬ Writable [slot] := fun hw => hslot (hw slot List.mem_cons_self)
      rw [checked_of_not_writable hw, Numeral.text_of_not_isWritable hslot,
        Action.bind_of_error (Action.write_error _ _)]

theorem step_eq (hbooted : sim.booted = true) (hc : sim.machine.Coherent) (files : FileView) :
    step files sim = sim.stepOutcome files := by
  unfold step stepOutcome
  rw [Action.bind_of_ok (requireBooted_eq hbooted), Action.bind_get]
  cases hrun : sim.machine.scheduler.running with
  | none => rfl
  | some slot =>
      obtain ⟨b, hb, _⟩ := hc.exists_running hrun
      have hturn := runSlot_eq hc hrun hb files
      dsimp only
      rw [hb, Option.getD_some, ← hturn]
      cases hx : runSlot files slot sim with
      | error fault s => exact Action.bind_of_error hx _
      | ok report s =>
          have hs := coherent_of_turnOutcome hc hrun hb (hturn.symm.trans hx)
          have helapsed : s.elapsed.machine.Coherent := hs
          have hclock : advanceClock s = .ok () s.elapsed := rfl
          rw [Action.bind_of_ok hx, Action.bind_of_ok hclock]
          exact dispatch_eq_outcome helapsed report

end Simulation
end Uniproc
