import Uniproc.Proofs.Machine.Outline
import Uniproc.Proofs.Simulation.Stopping

/-!
Scheduling does not depend on data. Two states with one outline come to states with one
outline under the same calls: the values that the processes compute with, their priorities and
the time they have used never decide which process runs, nor whether a call stops.
-/

namespace Uniproc

/-- The event without its message, which can tell of an operand. -/
def Event.outline (e : Event) : Event :=
  { e with message := "" }

def EventLog.outline (log : EventLog) : EventLog where
  events := log.events.map Event.outline

def StepReport.outline (r : StepReport) : StepReport :=
  { r with instruction := r.instruction.map Instruction.outline, message := "" }

theorem Effect.fault?_outline (e : Effect) : e.outline.fault? = e.fault? := by
  cases e <;> rfl

namespace Simulation

def outline (sim : Simulation) : Simulation :=
  { sim with machine := sim.machine.outline, log := sim.log.outline }

def Answer.outline : Answer → Answer
  | .report r => .report r.outline
  | .unblocked slot => .unblocked slot

/-- What happened in a call, as far as it is no matter of data. -/
def Moment.outline (x : Moment) : Moment where
  before := x.before.outline
  request := x.request
  response := x.response.map Answer.outline
  after := x.after.outline

variable {sim s t : Simulation} {slot : Int} {b c : ControlBlock} {files : FileView}

theorem outline_logged (sim : Simulation) (events : List Event) :
    (sim.logged events).outline = sim.outline.logged (events.map Event.outline) := by
  induction events generalizing sim with
  | nil => rfl
  | cons e events ih =>
      have hrecord : (sim.logged [e]).outline = sim.outline.logged [e.outline] := by
        simp only [outline, logged, List.foldl_cons, List.foldl_nil, EventLog.outline,
          EventLog.record, Array.map_push]
      have hrest := ih (sim.logged [e])
      rw [hrecord] at hrest
      exact hrest

theorem outline_affect (sim : Simulation) (slot : Int) (b : ControlBlock) (e : Effect) :
    (sim.affect slot b e).outline = sim.outline.affect slot b.outline e.outline := by
  have hmachine := sim.machine.outline_affect slot b sim.tick e
  simp only [outline, affect, hmachine]
  cases e <;> rfl

theorem outline_fetchedBy (sim : Simulation) (i? : Option Instruction) :
    (sim.fetchedBy i?).outline = sim.outline.fetchedBy (i?.map Instruction.outline) := by
  cases i? <;> rfl

theorem next?_outline (sim : Simulation) :
    sim.outline.next? = sim.next?.map Instruction.outline := by
  unfold next?
  cases hprogram : sim.machine.cpu.program with
  | none =>
      have hnone : sim.outline.machine.cpu.program = none := by
        simp only [outline, Machine.outline, Cpu.outline, hprogram, Option.map_none]
      rw [hnone]
      rfl
  | some p =>
      have hsome : sim.outline.machine.cpu.program = some p.outline := by
        simp only [outline, Machine.outline, Cpu.outline, hprogram, Option.map_some]
      rw [hsome]
      exact List.getElem?_map

/-- Operands decide about values only. -/
theorem outline_effectAt (sim : Simulation) (files : FileView) (i? : Option Instruction) :
    (sim.effectAt files i?).outline =
      (sim.outline.effectAt files (i?.map Instruction.outline)).outline := by
  cases i? with
  | none => rfl
  | some i =>
      simp only [effectAt, Option.map_some, effectOf, Instruction.opcode_outline,
        Instruction.path_outline]
      cases hop : i.opcode with
      | set | add | subtract | block | halt => rfl
      | fork =>
          have hallocate : sim.outline.machine.table.allocate = _ :=
            sim.machine.table.allocate_outline
          rw [hallocate, Instruction.number_outline (by rw [hop]; rfl)]
      | replace => rfl

theorem numbersOf_outline (sim : Simulation) (slot : Int) (b : ControlBlock) (e : Effect) :
    sim.numbersOf slot b e = sim.outline.numbersOf slot b.outline e.outline := by
  cases e <;> rfl

theorem outline_notesOf (sim : Simulation) (slot : Int) (b : ControlBlock) (e : Effect) :
    (sim.notesOf slot b e).map Event.outline =
      (sim.outline.notesOf slot b.outline e.outline).map Event.outline := by
  cases e <;> rfl

theorem outline_eventsAt (sim : Simulation) (slot : Int) (b : ControlBlock) (e : Effect)
    (i? : Option Instruction) : (sim.eventsAt slot b e i?).map Event.outline =
      (sim.outline.eventsAt slot b.outline e.outline (i?.map Instruction.outline)).map
        Event.outline := by
  simp only [eventsAt, List.map_append, outline_notesOf sim slot b e, Option.isSome_map]
  rfl

theorem outline_turnReport (sim : Simulation) (slot : Int) (b : ControlBlock) (e : Effect)
    (i? : Option Instruction) : (sim.turnReport slot b e i?).outline =
      ⟨sim.outline.tick, some slot, some b.outline.pid, i?.map Instruction.outline, ""⟩ :=
  rfl

/-- An operand that comes from a text can be written, and so can the one in its place. -/
theorem writable_outline {i : Instruction} (h : Writable i.numbers) (numbers : List Int) :
    Writable (numbers ++ i.numbers) ↔ Writable (numbers ++ i.outline.numbers) := by
  have hzero : Numeral.isWritable 0 = true :=
    Numeral.isWritable_of_bounds (Int.le_refl 0)
      (Int.ofNat_lt.mpr (Numeral.lt_writingBound (by decide)))
  have houtline : Writable i.outline.numbers := by
    unfold Instruction.outline
    split
    · unfold Instruction.numbers
      split
      · exact writable_cons.mpr ⟨hzero, writable_nil⟩
      · exact writable_nil
    · exact h
  rw [writable_append, writable_append]
  exact and_congr_right fun _ => iff_of_true h houtline

theorem checked_congr {σ α : Type} {numbers numbers' : List Int}
    (h : Writable numbers ↔ Writable numbers') (stop : σ) (r : EStateM.Result Fault σ α) :
    checked numbers stop r = checked numbers' stop r := by
  simp only [checked, h]

/-- Two turns with one outline: what is announced, what stops them and what they leave. -/
theorem turnOutcome_congr {i? j? : Option Instruction} (h : s.outline = t.outline)
    (hb : b.outline = c.outline)
    (hi : i?.map Instruction.outline = j?.map Instruction.outline)
    (hwi : ∀ i ∈ i?, Writable i.numbers) (hwj : ∀ j ∈ j?, Writable j.numbers) :
    Action.mapResult outline StepReport.outline (s.turnOutcome files slot b i?) =
      Action.mapResult outline StepReport.outline (t.turnOutcome files slot c j?) := by
  have htick : s.tick = t.tick := (congrArg tick h :)
  have heffect : (s.effectAt files i?).outline = (t.effectAt files j?).outline := by
    rw [outline_effectAt, h, hi, ← outline_effectAt]
  have hfault : (s.effectAt files i?).fault? = (t.effectAt files j?).fault? := by
    rw [← Effect.fault?_outline, heffect, Effect.fault?_outline]
  have hnumbers : s.numbersOf slot b (s.effectAt files i?) =
      t.numbersOf slot c (t.effectAt files j?) := by
    rw [numbersOf_outline, h, hb, heffect, ← numbersOf_outline]
  have hafter : (s.affect slot b (s.effectAt files i?)).outline =
      (t.affect slot c (t.effectAt files j?)).outline := by
    rw [outline_affect, h, hb, heffect, ← outline_affect]
  have hnotes : (s.notesOf slot b (s.effectAt files i?)).map Event.outline =
      (t.notesOf slot c (t.effectAt files j?)).map Event.outline := by
    rw [outline_notesOf, h, hb, heffect, ← outline_notesOf]
  have hevents : (s.eventsAt slot b (s.effectAt files i?) i?).map Event.outline =
      (t.eventsAt slot c (t.effectAt files j?) j?).map Event.outline := by
    rw [outline_eventsAt, h, hb, heffect, hi, ← outline_eventsAt]
  have hreport : (s.turnReport slot b (s.effectAt files i?) i?).outline =
      (t.turnReport slot c (t.effectAt files j?) j?).outline := by
    rw [outline_turnReport, h, hb, hi, ← outline_turnReport]
  unfold turnOutcome
  cases i? with
  | none =>
      cases j? with
      | some j => cases hi
      | none =>
          simp only [mapResult_checked, Action.mapResult_ok, outline_logged, hnumbers, hafter, hnotes,
            hevents, hreport, htick]
  | some i =>
      cases j? with
      | none => cases hi
      | some j =>
          have hij : i.outline = j.outline := Option.some.inj hi
          have hannounced : Writable ([(s.tick : Int), slot] ++ i.numbers) ↔
              Writable ([(t.tick : Int), slot] ++ j.numbers) := by
            rw [writable_outline (hwi i rfl), writable_outline (hwj j rfl), hij, htick]
          dsimp only
          rw [mapResult_checked, mapResult_checked, checked_congr hannounced, h, hfault]
          congr 1
          cases (t.effectAt files (some j)).fault? with
          | some fault => exact congrArg (EStateM.Result.error fault) hafter
          | none =>
              simp only [mapResult_checked, Action.mapResult_ok, outline_logged, hnumbers, hafter,
                hevents, hreport]

theorem switchEvents_outline (sim : Simulation) : sim.switchEvents.map Event.outline =
    sim.outline.switchEvents.map Event.outline := by
  have hnext : sim.outline.machine.next? = sim.machine.next? := rfl
  unfold switchEvents
  rw [hnext]
  cases sim.machine.next? with
  | none => rfl
  | some slot =>
      have hat : sim.outline.machine.table.blockAt slot = _ :=
        sim.machine.table.blockAt_outline slot
      dsimp only
      rw [hat]
      cases sim.machine.table.blockAt slot <;> rfl

theorem wakeEvents_outline (sim : Simulation) : sim.wakeEvents.map Event.outline =
    sim.outline.wakeEvents.map Event.outline := by
  have hblocked : sim.outline.machine.scheduler.blocked = sim.machine.scheduler.blocked := rfl
  unfold wakeEvents
  rw [hblocked]
  cases sim.machine.scheduler.blocked with
  | nil => rfl
  | cons slot rest =>
      have hat : sim.outline.machine.table.blockAt slot = _ :=
        sim.machine.table.blockAt_outline slot
      dsimp only
      rw [hat]
      cases sim.machine.table.blockAt slot <;> rfl

theorem outline_dispatched (sim : Simulation) : sim.dispatched.outline = sim.outline.dispatched := by
  simp only [outline, dispatched, Machine.outline_afterDispatch]

theorem outline_unblocked (sim : Simulation) : sim.unblocked.outline = sim.outline.unblocked := by
  simp only [outline, unblocked, Machine.outline_afterUnblock]

theorem dispatchOutcome_congr {α β : Type} {f : α → β} {a a' : α} (h : s.outline = t.outline)
    (ha : f a = f a') : Action.mapResult outline f (s.dispatchOutcome a) =
      Action.mapResult outline f (t.dispatchOutcome a') := by
  have hnext : s.machine.next? = t.machine.next? := (congrArg (·.machine.next?) h :)
  have hevents : s.switchEvents.map Event.outline = t.switchEvents.map Event.outline := by
    rw [switchEvents_outline, h, ← switchEvents_outline]
  have hafter : s.dispatched.outline = t.dispatched.outline := by
    rw [outline_dispatched, h, ← outline_dispatched]
  simp only [dispatchOutcome, mapResult_checked, Action.mapResult_ok, outline_logged, hnext,
    hevents, hafter, ha]

theorem unblockOutcome_congr (h : s.outline = t.outline) :
    Action.mapResult outline id s.unblockOutcome = Action.mapResult outline id t.unblockOutcome := by
  have hblocked : s.machine.scheduler.blocked = t.machine.scheduler.blocked :=
    (congrArg (·.machine.scheduler.blocked) h :)
  have hevents : s.wakeEvents.map Event.outline = t.wakeEvents.map Event.outline := by
    rw [wakeEvents_outline, h, ← wakeEvents_outline]
  have hafter : s.unblocked.outline = t.unblocked.outline := by
    rw [outline_unblocked, h, ← outline_unblocked]
  have hlogged : (s.unblocked.logged s.wakeEvents).outline =
      (t.unblocked.logged t.wakeEvents).outline := by
    rw [outline_logged, outline_logged, hafter, hevents]
  simp only [unblockOutcome, mapResult_checked, hblocked, hafter]
  rw [dispatchOutcome_congr hlogged rfl]

theorem outline_getD (b? : Option ControlBlock) :
    (b?.getD {}).outline = (b?.map ControlBlock.outline).getD {} := by
  cases b? <;> rfl

theorem stepOutcome_congr (h : s.outline = t.outline) (hs : s.Scripted) (ht : t.Scripted)
    (files : FileView) : Action.mapResult outline StepReport.outline (s.stepOutcome files) =
      Action.mapResult outline StepReport.outline (t.stepOutcome files) := by
  have hrunning : s.machine.scheduler.running = t.machine.scheduler.running :=
    (congrArg (·.machine.scheduler.running) h :)
  have hnext : s.next?.map Instruction.outline = t.next?.map Instruction.outline := by
    rw [← next?_outline, h, next?_outline]
  have hfetched : (s.fetchedBy s.next?).outline = (t.fetchedBy t.next?).outline := by
    rw [outline_fetchedBy, h, hnext, ← outline_fetchedBy]
  unfold stepOutcome
  rw [hrunning]
  cases hrun : t.machine.scheduler.running with
  | none =>
      have htick : s.tick = t.tick := (congrArg tick h :)
      have hidle : (s.logged s.idleEvents).elapsed.outline =
          (t.logged t.idleEvents).elapsed.outline := by
        have hlogged : (s.logged s.idleEvents).outline = (t.logged t.idleEvents).outline := by
          rw [outline_logged, outline_logged, h, idleEvents, idleEvents, htick]
        exact congrArg elapsed hlogged
      simp only [Action.mapResult_ok, htick, hidle]
  | some slot =>
      have hblock : ((s.machine.table.blockAt slot).getD {}).outline =
          ((t.machine.table.blockAt slot).getD {}).outline := by
        rw [outline_getD, outline_getD, ← ProcessTable.blockAt_outline,
          ← ProcessTable.blockAt_outline]
        exact congrArg (·.machine.table.blockAt slot |>.getD {}) h
      have hturn : Action.mapResult outline StepReport.outline
          ((s.fetchedBy s.next?).turnOutcome files slot _ s.next?) = _ :=
        turnOutcome_congr hfetched hblock hnext
          (fun i hi => hs.writable_next (hrunning.trans hrun) hi)
          (fun i hi => ht.writable_next hrun hi)
      dsimp only
      generalize (s.fetchedBy s.next?).turnOutcome files slot _ s.next? = x at hturn
      generalize (t.fetchedBy t.next?).turnOutcome files slot _ t.next? = y at hturn
      cases x with
      | error fault s' =>
          cases y with
          | error fault' t' => exact hturn
          | ok report' t' => cases hturn
      | ok report s' =>
          cases y with
          | error fault' t' => cases hturn
          | ok report' t' =>
              simp only [Action.mapResult_ok, EStateM.Result.ok.injEq] at hturn
              obtain ⟨hreport, hafter⟩ := hturn
              have helapsed : s'.elapsed.outline = t'.elapsed.outline := congrArg elapsed hafter
              exact dispatchOutcome_congr helapsed hreport

theorem outline_ofOutcome (sim : Simulation) (q : Request)
    (r : EStateM.Result Fault Simulation Answer) : (Moment.ofOutcome sim q r).outline =
      .ofOutcome sim.outline q (Action.mapResult outline Answer.outline r) := by
  cases r <;> rfl

/-- One call. -/
theorem happen_congr (h : s.outline = t.outline) (hs : s.Scripted) (ht : t.Scripted)
    (q : Request) : (s.happen q).outline = (t.happen q).outline := by
  have houtcome : Action.mapResult outline Answer.outline (q.outcome s) =
      Action.mapResult outline Answer.outline (q.outcome t) := by
    unfold Request.outcome
    cases q.call with
    | step =>
        have hstep := congrArg (Action.mapResult id Answer.report)
          (stepOutcome_congr h hs ht q.files)
        simp only [Action.mapResult_mapResult] at hstep ⊢
        exact hstep
    | unblock =>
        have hunblock := congrArg (Action.mapResult id Answer.unblocked)
          (unblockOutcome_congr h)
        simp only [Action.mapResult_mapResult] at hunblock ⊢
        exact hunblock
  rw [happen_eq hs.toUnderway, happen_eq ht.toUnderway, outline_ofOutcome, outline_ofOutcome, h,
    houtcome]

/-- Any number of calls. -/
theorem history_congr (h : s.outline = t.outline) (hs : s.Scripted) (ht : t.Scripted)
    (requests : List Request) :
    (history s requests).map Moment.outline = (history t requests).map Moment.outline ∧
      (run s requests).outline = (run t requests).outline := by
  induction requests generalizing s t with
  | nil => exact ⟨rfl, h⟩
  | cons q rest ih =>
      have hmoment := happen_congr h hs ht q
      have hafter : (s.happen q).after.outline = (t.happen q).after.outline :=
        congrArg Moment.after hmoment
      obtain ⟨hhistory, hrun⟩ := ih hafter ((happened hs.toUnderway q).scripted hs)
        ((happened ht.toUnderway q).scripted ht)
      refine ⟨?_, hrun⟩
      rw [history, history, List.map_cons, List.map_cons, hmoment, hhistory]

/-- The same state with another register, priority and time used in one slot. -/
def marked (sim : Simulation) (slot : Int) (b : ControlBlock) (value priority timeUsed : Int) :
    Simulation :=
  { sim with machine.table := sim.machine.table.put slot { b with value, priority, timeUsed } }

/-- The same state with another value in the CPU. -/
def loaded (sim : Simulation) (value : Int) : Simulation :=
  { sim with machine := sim.machine.withValue value }

/-- The states of simulations that were started with a program from a text. Registers,
priorities and the time used may have been changed from outside at any time, those of the CPU
while a process runs. -/
inductive Reached : Simulation → Prop
  | launched {lines : List (List Char)} {source : String} {limit : Int} {program : Program}
      {settings : Settings} {loader : Loader} {sim : Simulation}
      (hprogram : Program.decode lines source limit = .ok program)
      (hlaunch : launch settings loader program = .ok sim) : Reached sim
  | called {sim : Simulation} (h : Reached sim) (q : Request) : Reached (sim.happen q).after
  | marked {sim : Simulation} {slot : Int} {b : ControlBlock} (h : Reached sim)
      (hb : sim.machine.table.blockAt slot = some b) (value priority timeUsed : Int) :
      Reached (sim.marked slot b value priority timeUsed)
  | loaded {sim : Simulation} (h : Reached sim) (hrun : sim.machine.scheduler.running.isSome)
      (value : Int) : Reached (sim.loaded value)

theorem scripted_marked (h : sim.Scripted) (hb : sim.machine.table.blockAt slot = some b)
    (value priority timeUsed : Int) : (sim.marked slot b value priority timeUsed).Scripted := by
  refine ⟨⟨h.booted, Machine.coherent_put_of_eq h.coherent hb rfl rfl rfl⟩, ?_⟩
  intro other c hc
  have hat := ProcessTable.blockAt_put hb { b with value, priority, timeUsed }
  exact written_of_update hat (show b.program.Written from h.written hb) h.written hc

theorem Reached.scripted (h : Reached sim) : sim.Scripted := by
  induction h with
  | launched hprogram hlaunch =>
      obtain ⟨hcapacity, rfl⟩ := launch_eq_ok_iff.mp hlaunch
      exact scripted_launched hcapacity _ (Program.written_of_decode hprogram)
  | called _ q ih => exact (happened ih.toUnderway q).scripted ih
  | marked _ hb value priority timeUsed ih => exact scripted_marked ih hb value priority timeUsed
  | loaded _ hrun value ih =>
      obtain ⟨slot, hslot⟩ := Option.isSome_iff_exists.mp hrun
      exact ⟨⟨ih.booted, Machine.coherent_withValue ih.coherent hslot value⟩, ih.written⟩

/-- Two simulations that agree except in what they compute with go on to agree in that way:
the same calls stop, and the same processes run, wait and end at the same ticks. -/
theorem outline_eq_of_reached (hs : Reached s) (ht : Reached t) (h : s.outline = t.outline)
    (requests : List Request) :
    (history s requests).map Moment.outline = (history t requests).map Moment.outline ∧
      (run s requests).outline = (run t requests).outline :=
  history_congr h hs.scripted ht.scripted requests

/-- A process that computes with `n`, forks, adds and blocks. -/
def operandDemo (n : Int) : Program where
  instructions :=
    [⟨.set, n, ""⟩, ⟨.fork, 1, ""⟩, ⟨.halt, 0, ""⟩, ⟨.add, 2 * n, ""⟩, ⟨.block, 0, ""⟩]

/-- The second process has other operands, and it is given a priority, another register and
some time before it runs. -/
theorem outline_eq_of_reached_operands :
    ∃ s t b, Program.decode ["S 3".toList, "F 1".toList, "E".toList, "A 6".toList, "B".toList]
        "a" 100 = .ok (operandDemo 3) ∧
      Program.decode ["S -4".toList, "F 1".toList, "E".toList, "A -8".toList, "B".toList]
        "a" 100 = .ok (operandDemo (-4)) ∧
      launch {} {} (operandDemo 3) = .ok s ∧ launch {} {} (operandDemo (-4)) = .ok t ∧
      t.machine.table.blockAt 0 = some b ∧
      s.outline = ((t.marked 0 b 12 5 7).loaded 99).outline ∧
      ∀ requests, (history s requests).map Moment.outline =
          (history ((t.marked 0 b 12 5 7).loaded 99) requests).map Moment.outline ∧
        (run s requests).outline = (run ((t.marked 0 b 12 5 7).loaded 99) requests).outline := by
  have hs : Program.decode ["S 3".toList, "F 1".toList, "E".toList, "A 6".toList, "B".toList]
      "a" 100 = .ok (operandDemo 3) := by decide +kernel
  have ht : Program.decode ["S -4".toList, "F 1".toList, "E".toList, "A -8".toList, "B".toList]
      "a" 100 = .ok (operandDemo (-4)) := by decide +kernel
  have hcapacity : 1 ≤ Settings.tableCapacity {} := by decide
  have hlaunch := launch_eq hcapacity {} (operandDemo 3)
  have hlaunch' := launch_eq hcapacity {} (operandDemo (-4))
  have hb : (launched {} {} (operandDemo (-4))).machine.table.blockAt 0 =
      some (initBlock (operandDemo (-4))) := by decide +kernel
  have hreached := Reached.launched ht hlaunch'
  have hchanged := (hreached.marked hb 12 5 7).loaded rfl 99
  have houtline : (launched {} {} (operandDemo 3)).outline =
      (((launched {} {} (operandDemo (-4))).marked 0 (initBlock (operandDemo (-4))) 12 5 7).loaded
        99).outline := by decide +kernel
  exact ⟨_, _, _, hs, ht, hlaunch, hlaunch', hb, houtline,
    outline_eq_of_reached (.launched hs hlaunch) hchanged houtline⟩

end Simulation
end Uniproc
