import Uniproc.Proofs.Simulation.History

/-!
The course of a call, whether it returns or stops: its process has its turn, or a process is
woken, or nobody moves. The log, the clock and what is told about the call are left aside.
-/

namespace Uniproc
namespace Simulation

/-- The state in which the next instruction takes effect. -/
def turning (sim : Simulation) : Simulation :=
  sim.fetchedBy sim.next?

/-- The effect of the next instruction. -/
def nextEffect (sim : Simulation) (files : FileView) : Effect :=
  sim.turning.effectAt files sim.next?

/-- The machine after the turn of the process with control block `b` in `slot`. -/
def afterTurn (sim : Simulation) (files : FileView) (slot : Int) (b : ControlBlock) : Machine :=
  sim.turning.machine.affect slot b sim.turning.tick (sim.nextEffect files)

namespace Moment

/-- An instruction of this kind has its turn. A call that stops may have stopped before the
instruction took effect. -/
def Executes (x : Moment) (op : Opcode) : Prop :=
  x.request.call = .step ∧ x.before.machine.scheduler.running.isSome ∧
    ∃ i, x.before.fetch = .ok (some i) ∧ i.opcode = op

/-- All that a call can do to the table and the scheduler. -/
inductive Course (x : Moment) : Prop
  | rest (hcall : x.request.call = .step)
      (htable : x.after.machine.table = x.before.machine.table)
      (hscheduler : x.after.machine.scheduler = x.before.machine.scheduler)
  | turn {slot : Int} {b : ControlBlock} (hcall : x.request.call = .step)
      (hrun : x.before.machine.scheduler.running = some slot)
      (hb : x.before.machine.table.blockAt slot = some b)
      (hafter : x.after.machine = x.before.afterTurn x.request.files slot b ∨
        x.after.machine = (x.before.afterTurn x.request.files slot b).afterDispatch)
  | wake (hcall : x.request.call = .unblock)
      (hafter : x.after.machine = x.before.machine.afterUnblock ∨
        x.after.machine = x.before.machine.afterUnblock.afterDispatch)

end Moment

variable {sim : Simulation} {slot : Int} {b : ControlBlock} {files : FileView} {x : Moment}

theorem exists_block_of_block {i? : Option Instruction} (h : sim.effectAt files i? = .block) :
    ∃ i, i? = some i ∧ i.opcode = .block :=
  exists_stems_of_effectAt h (by simp)

/-- A turn that has begun leaves the machine that its effect makes. -/
theorem Turned.machine_cases {r : EStateM.Result Fault Simulation StepReport}
    (h : Turned files slot b sim r) :
    ((Action.stateOf r).machine.table = sim.machine.table ∧
      (Action.stateOf r).machine.scheduler = sim.machine.scheduler) ∨
    (Action.stateOf r).machine = sim.afterTurn files slot b := by
  cases h with
  | unbegun => exact .inl ⟨rfl, rfl⟩
  | aborted hnext h =>
      refine .inr ?_
      rw [afterTurn, nextEffect, turning, hnext]
      exact congrArg (sim.fetched.machine.affect slot b sim.fetched.tick) h.symm
  | untold events hnext hmid he _ =>
      subst hnext hmid he
      exact .inr rfl
  | done hnext hmid he _ =>
      subst hnext hmid he
      exact .inr rfl

/-- Once a report is there the turn has begun. -/
theorem Turned.machine_of_ok {report : StepReport} {s : Simulation}
    (h : Turned files slot b sim (.ok report s)) : s.machine = sim.afterTurn files slot b := by
  cases h with
  | done hnext hmid he _ =>
      subst hnext hmid he
      rfl

theorem Stepped.course {r : EStateM.Result Fault Simulation StepReport}
    {response : Except Fault Answer} (h : Stepped files sim r) :
    Moment.Course ⟨sim, ⟨.step, files⟩, response, Action.stateOf r⟩ := by
  cases h with
  | idle => exact .rest rfl rfl rfl
  | stopped hrun hb h =>
      obtain ⟨htable, hscheduler⟩ | hmachine := h.machine_cases
      · exact .rest rfl htable hscheduler
      · exact .turn rfl hrun hb (.inl hmachine)
  | untold hrun hb h _ =>
      exact .turn rfl hrun hb (.inr (congrArg Machine.afterDispatch h.machine_of_ok))
  | done hrun hb h =>
      exact .turn rfl hrun hb (.inr (congrArg Machine.afterDispatch h.machine_of_ok))

theorem Unblocked.course {r : EStateM.Result Fault Simulation (Option Int)}
    {response : Except Fault Answer} (h : Unblocked sim r) :
    Moment.Course ⟨sim, ⟨.unblock, files⟩, response, Action.stateOf r⟩ := by
  cases h with
  | untold => exact .wake rfl (.inl rfl)
  | undispatched => exact .wake rfl (.inr rfl)
  | done => exact .wake rfl (.inr rfl)

theorem Happened.course (h : Happened sim x) : x.Course := by
  cases h with
  | stepped h => exact h.course
  | stopped h => exact h.course
  | unblocked h => exact h.course
  | stuck h => exact h.course

/-- What an unblocking returns was at the front of the blocked queue. -/
theorem Happened.call_of_unblocked {slot? : Option Int} (h : Happened sim x)
    (hanswer : x.response = .ok (.unblocked slot?)) :
    x.request.call = .unblock ∧ slot? = sim.machine.scheduler.blocked.head? := by
  cases h with
  | unblocked h =>
      cases hanswer
      cases h
      exact ⟨rfl, rfl⟩
  | stepped | stopped | stuck => cases hanswer

@[simp] theorem table_turning (sim : Simulation) :
    sim.turning.machine.table = sim.machine.table :=
  table_fetchedBy sim sim.next?

@[simp] theorem scheduler_turning (sim : Simulation) :
    sim.turning.machine.scheduler = sim.machine.scheduler :=
  scheduler_fetchedBy sim sim.next?

theorem loader_turning (sim : Simulation) : sim.turning.loader = sim.loader := by
  unfold turning
  cases sim.next? <;> rfl

/-- The process that is to have its turn still has the CPU once its instruction is fetched. -/
structure Turning (sim : Simulation) (slot : Int) (b : ControlBlock) (files : FileView) : Prop where
  coherent : sim.turning.machine.Coherent
  running : sim.turning.machine.scheduler.running = some slot
  block : sim.turning.machine.table.blockAt slot = some b
  admits : sim.turning.machine.Admits (sim.nextEffect files)

theorem turning_of_running (hc : sim.machine.Coherent)
    (hrun : sim.machine.scheduler.running = some slot)
    (hb : sim.machine.table.blockAt slot = some b) (files : FileView) :
    Turning sim slot b files where
  coherent := coherent_fetchedBy hc hrun sim.next?
  running := by rwa [scheduler_turning]
  block := by rwa [table_turning]
  admits := admits_effectAt sim.turning files sim.next?

theorem Turning.coherent_afterTurn (h : Turning sim slot b files) :
    (sim.afterTurn files slot b).Coherent :=
  Machine.coherent_affect h.coherent h.running h.block h.admits sim.turning.tick

namespace Moment

/-- What holds after the turn, after the waking and if nobody moves, and is kept when the CPU
is given away, holds after the call. -/
theorem Course.keeps {P : Machine → Prop} (h : x.Course) (hc : x.before.machine.Coherent)
    (hrest : x.after.machine.table = x.before.machine.table →
      x.after.machine.scheduler = x.before.machine.scheduler → P x.after.machine)
    (hturn : ∀ {slot b}, x.request.call = .step →
      x.before.machine.scheduler.running = some slot →
      x.before.machine.table.blockAt slot = some b → P (x.before.afterTurn x.request.files slot b))
    (hwake : x.request.call = .unblock → P x.before.machine.afterUnblock)
    (hdispatch : ∀ {m : Machine}, m.Coherent → P m → P m.afterDispatch) :
    P x.after.machine := by
  cases h with
  | rest _ htable hscheduler => exact hrest htable hscheduler
  | turn hcall hrun hb hafter =>
      have hturned := hturn hcall hrun hb
      rcases hafter with hafter | hafter <;> rw [hafter]
      · exact hturned
      · exact hdispatch (turning_of_running hc hrun hb _).coherent_afterTurn hturned
  | wake hcall hafter =>
      have hwoken := hwake hcall
      rcases hafter with hafter | hafter <;> rw [hafter]
      · exact hwoken
      · exact hdispatch (Machine.coherent_afterUnblock hc) hwoken

theorem executes_of_next? {op : Opcode} (hc : x.before.machine.Coherent)
    (hcall : x.request.call = .step) (hrun : x.before.machine.scheduler.running = some slot)
    (hop : ∃ i, x.before.next? = some i ∧ i.opcode = op) : x.Executes op := by
  obtain ⟨i, hnext, hop⟩ := hop
  refine ⟨hcall, by rw [hrun]; rfl, i, ?_, hop⟩
  rw [fetch_eq hc.counter_nonneg, hnext]

end Moment

/-- Every call of a run finds a state in good order and comes to one of the outcomes. -/
theorem happened_of_mem_history (hu : sim.Underway) (requests : List Request) :
    ∀ x ∈ history sim requests, x.before.Underway ∧ Happened x.before x := by
  induction requests generalizing sim with
  | nil => simp [history]
  | cons q rest ih =>
      have hhappened := happened hu q
      rw [history, List.forall_mem_cons]
      exact ⟨⟨hu, hhappened⟩, ih (hhappened.underway hu)⟩

end Simulation
end Uniproc
