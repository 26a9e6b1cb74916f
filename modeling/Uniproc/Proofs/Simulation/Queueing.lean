import Uniproc.Proofs.Machine.Passage
import Uniproc.Proofs.Simulation.Course

/-!
First come, first served, as a law of histories. Over any run, whoever has come into a queue
has left it, in the order of coming, or is still there, in this order too. Slots are used again
and again, so everybody is listed with the number of the process as well.
-/

namespace Uniproc
namespace Simulation

namespace Moment

/-- Who has come into the ready queue in this call, with the CPU by now or not. -/
def enqueued (x : Moment) : List (Int × Option Int) :=
  x.before.machine.table.enqueued x.after.machine.table

/-- Who has got the CPU in this call. -/
def dispatched (x : Moment) : List (Int × Option Int) :=
  x.before.machine.table.dispatched x.after.machine.table

/-- Who has come into the blocked queue in this call. -/
def stopped (x : Moment) : List (Int × Option Int) :=
  x.before.machine.table.stopped x.after.machine.table

/-- Who has left the blocked queue in this call. -/
def awoken (x : Moment) : List (Int × Option Int) :=
  x.before.machine.table.awoken x.after.machine.table

/-- By what calls processes pass, one at a time. -/
structure Passing (x : Moment) : Prop where
  enqueued : x.enqueued ≠ [] →
    x.Executes .fork ∨ (x.request.call = .unblock ∧ x.enqueued = x.awoken)
  stopped : x.stopped ≠ [] → x.Executes .block
  awoken : x.awoken ≠ [] → x.request.call = .unblock ∧ x.enqueued = x.awoken
  enqueued_le : x.enqueued.length ≤ 1
  dispatched_le : x.dispatched.length ≤ 1
  stopped_le : x.stopped.length ≤ 1
  /-- An unblocking returns the slot that it has unblocked. -/
  returned {slot? : Option Int} : x.response = .ok (.unblocked slot?) →
    x.awoken.map Prod.fst = slot?.toList

/-- Who passes in a step, where the CPU counts as the ready queue: the process that has its
turn, by blocking or ending, or its child. -/
inductive StepPassage (x : Moment) (source target : List ProcessState) :
    List (Int × Option Int) → Prop
  | nobody : StepPassage x source target []
  | blocked (p : Int × Option Int) (hsource : .running ∈ source) (htarget : .blocked ∈ target)
      (hblock : x.Executes .block) : StepPassage x source target [p]
  | ended (p : Int × Option Int) (hsource : .running ∈ source)
      (htarget : .terminated ∈ target) : StepPassage x source target [p]
  | forked (p : Int × Option Int) (hsource : .terminated ∈ source) (htarget : .ready ∈ target)
      (hfork : x.Executes .fork) : StepPassage x source target [p]

end Moment

/-- The law, over the moments so far, of the state now. -/
structure Fifo (past : List Moment) (now : Simulation) : Prop where
  ready : past.flatMap Moment.enqueued =
    past.flatMap Moment.dispatched ++ now.machine.scheduler.ready.map now.machine.table.occupant
  blocked : past.flatMap Moment.stopped =
    past.flatMap Moment.awoken ++ now.machine.scheduler.blocked.map now.machine.table.occupant
  switches : now.machine.scheduler.switches = (past.flatMap Moment.dispatched).length

variable {sim : Simulation} {x : Moment} {past : List Moment}

theorem Turning.queued_afterTurn {slot : Int} {b : ControlBlock} {files : FileView}
    (h : Turning sim slot b files) : Machine.Queued sim.machine (sim.afterTurn files slot b) := by
  have hqueued := Machine.queued_affect h.coherent.toScheduled h.running h.block h.admits
    sim.turning.tick
  exact hqueued.congr ⟨(table_turning sim).symm, (scheduler_turning sim).symm⟩ ⟨rfl, rfl⟩

namespace Moment

/-- Whatever a call comes to, both queues have kept their order. -/
theorem Course.queued (h : x.Course) (hc : x.before.machine.Coherent) :
    Machine.Queued x.before.machine x.after.machine := by
  refine h.keeps hc ?_ ?_ ?_ ?_
  · intro htable hscheduler
    exact (Machine.Queued.refl _).congr ⟨rfl, rfl⟩ ⟨htable, hscheduler⟩
  · intro slot b _ hrun hb
    exact (turning_of_running hc hrun hb x.request.files).queued_afterTurn
  · intro _
    exact Machine.queued_afterUnblock hc.toScheduled
  · intro m hm hqueued
    exact hqueued.afterDispatch hm.toScheduled

section Passed

variable {source target : List ProcessState}

theorem Course.stepPassage (h : x.Course) (hc : x.before.machine.Coherent)
    (hcall : x.request.call = .step) (hdisjoint : ∀ s ∈ source, s ∉ target)
    (hclass : ProcessState.ready ∈ target ↔ ProcessState.running ∈ target) :
    x.StepPassage source target
      (x.before.machine.table.passed x.after.machine.table source target) := by
  refine h.keeps (P := fun m =>
    x.StepPassage source target (x.before.machine.table.passed m.table source target)) hc
    ?_ ?_ ?_ ?_
  · intro htable _
    rw [htable, ProcessTable.passed_self hdisjoint]
    exact .nobody
  · intro slot b _ hrun hb
    have hturning := turning_of_running hc hrun hb x.request.files
    have hpassed := Machine.passed_affect hturning.coherent.toScheduled hturning.running
      hturning.block hturning.admits x.before.turning.tick hdisjoint
    rw [table_turning] at hpassed
    rw [afterTurn, hpassed]
    unfold Machine.passengers
    cases he : x.before.nextEffect x.request.files with
    | block =>
        have hblock := executes_of_next? hc hcall hrun (exists_block_of_block he)
        dsimp only
        split
        · next hboth => exact .blocked _ hboth.1 hboth.2 hblock
        · exact .nobody
    | finish =>
        dsimp only
        split
        · next hboth => exact .ended _ hboth.1 hboth.2
        · exact .nobody
    | spawn child offset =>
        have hfork := executes_of_next? hc hcall hrun (exists_fork_of_spawn he)
        dsimp only
        split
        · next hboth => exact .forked _ hboth.1 hboth.2 hfork
        · exact .nobody
    | _ => exact .nobody
  · intro hunblock
    rw [hcall] at hunblock
    cases hunblock
  · intro m hm hpassed
    rwa [hm.toScheduled.passed_afterDispatch hclass]

/-- Who passes in an unblocking was at the front of the blocked queue. -/
theorem Course.passed_of_unblock (h : x.Course) (hc : x.before.machine.Coherent)
    (hcall : x.request.call = .unblock) (hdisjoint : ∀ s ∈ source, s ∉ target)
    (hclass : ProcessState.ready ∈ target ↔ ProcessState.running ∈ target) :
    x.before.machine.table.passed x.after.machine.table source target =
      if .blocked ∈ source ∧ .ready ∈ target then
        x.before.machine.scheduler.blocked.head?.toList.map x.before.machine.table.occupant
      else [] := by
  cases h with
  | rest hstep | turn hstep =>
      rw [hcall] at hstep
      cases hstep
  | wake _ hafter =>
      have hwoken := Machine.coherent_afterUnblock hc
      have hpassed := hc.toScheduled.passed_afterUnblock hdisjoint
      rcases hafter with hafter | hafter <;> rw [hafter]
      · exact hpassed
      · rw [hwoken.toScheduled.passed_afterDispatch hclass]
        exact hpassed

end Passed

end Moment

namespace Moment

variable {l : List (Int × Option Int)}

theorem StepPassage.length_le {source target : List ProcessState}
    (h : x.StepPassage source target l) : l.length ≤ 1 := by
  cases h with
  | nobody => exact Nat.zero_le 1
  | blocked | ended | forked => exact Nat.le_refl 1

theorem StepPassage.executes_fork (h : x.StepPassage [.terminated, .blocked] [.ready, .running] l)
    (hne : l ≠ []) : x.Executes .fork := by
  cases h with
  | nobody => exact absurd rfl hne
  | blocked _ hsource | ended _ hsource => exact absurd hsource (by decide)
  | forked _ _ _ hfork => exact hfork

theorem StepPassage.executes_block (h : x.StepPassage [.running] [.blocked] l) (hne : l ≠ []) :
    x.Executes .block := by
  cases h with
  | nobody => exact absurd rfl hne
  | blocked _ _ _ hblock => exact hblock
  | ended _ _ htarget => exact absurd htarget (by decide)
  | forked _ hsource => exact absurd hsource (by decide)

theorem StepPassage.nobody_awoken (h : x.StepPassage [.blocked] [.ready, .running] l) :
    l = [] := by
  cases h with
  | nobody => rfl
  | blocked _ hsource | ended _ hsource | forked _ hsource => exact absurd hsource (by decide)

end Moment

theorem Happened.passing (h : Happened x.before x) (hu : x.before.Underway) : x.Passing := by
  have hc := hu.coherent
  have hcourse := h.course
  have hqueued := hcourse.queued hc
  cases hcall : x.request.call with
  | step =>
      have henqueued : x.StepPassage _ _ x.enqueued :=
        hcourse.stepPassage hc hcall (by decide) (by decide)
      have hstopped : x.StepPassage _ _ x.stopped :=
        hcourse.stepPassage hc hcall (by decide) (by decide)
      have hawoken : x.StepPassage _ _ x.awoken :=
        hcourse.stepPassage hc hcall (by decide) (by decide)
      have hnobody : x.awoken = [] := hawoken.nobody_awoken
      constructor
      case enqueued =>
        intro hne
        exact .inl (henqueued.executes_fork hne)
      case stopped =>
        intro hne
        exact hstopped.executes_block hne
      case awoken =>
        intro hne
        exact absurd hnobody hne
      case enqueued_le => exact henqueued.length_le
      case dispatched_le => exact hqueued.dispatched_le
      case stopped_le => exact hstopped.length_le
      case returned =>
        intro slot? hanswer
        have hunblock := (h.call_of_unblocked hanswer).1
        rw [hcall] at hunblock
        cases hunblock
  | unblock =>
      have henqueued : x.enqueued = _ := hcourse.passed_of_unblock hc hcall (by decide) (by decide)
      have hstopped : x.stopped = _ := hcourse.passed_of_unblock hc hcall (by decide) (by decide)
      have hawoken : x.awoken = _ := hcourse.passed_of_unblock hc hcall (by decide) (by decide)
      rw [if_pos (by decide)] at henqueued hawoken
      rw [if_neg (by decide)] at hstopped
      have hsame : x.enqueued = x.awoken := henqueued.trans hawoken.symm
      constructor
      case enqueued =>
        intro _
        exact .inr ⟨hcall, hsame⟩
      case stopped =>
        intro hne
        exact absurd hstopped hne
      case awoken =>
        intro _
        exact ⟨hcall, hsame⟩
      case enqueued_le =>
        rw [henqueued, List.length_map]
        exact Option.length_toList_le
      case dispatched_le => exact hqueued.dispatched_le
      case stopped_le =>
        rw [hstopped]
        exact Nat.zero_le 1
      case returned =>
        intro slot? hanswer
        rw [hawoken, (h.call_of_unblocked hanswer).2, List.map_map]
        exact List.map_id _

/-- One call carries the law on. -/
theorem Fifo.next (h : Fifo past x.before)
    (hq : Machine.Queued x.before.machine x.after.machine) : Fifo (past ++ [x]) x.after where
  ready := by
    rw [List.flatMap_append, List.flatMap_append, List.flatMap_singleton, List.flatMap_singleton,
      h.ready, List.append_assoc, List.append_assoc]
    exact congrArg _ hq.ready
  blocked := by
    rw [List.flatMap_append, List.flatMap_append, List.flatMap_singleton, List.flatMap_singleton,
      h.blocked, List.append_assoc, List.append_assoc]
    exact congrArg _ hq.blocked
  switches := by
    rw [List.flatMap_append, List.length_append, List.flatMap_singleton, hq.switches, h.switches]
    rfl

theorem fifo_run (hu : sim.Underway) (h : Fifo past sim) (requests : List Request) :
    Fifo (past ++ history sim requests) (run sim requests) := by
  induction requests generalizing sim past with
  | nil =>
      rw [history, List.append_nil]
      exact h
  | cons q rest ih =>
      have hhappened := happened hu q
      have hnext := h.next (x := sim.happen q) (hhappened.course.queued hu.coherent)
      rw [history, List.append_cons]
      exact ih (hhappened.underway hu) hnext

section Launch

variable {settings : Settings}

/-- After any calls, whether they return or stop, both queues are first come, first served: a
process comes into a queue by a fork, a block or an unblocking, and all that have come have
left in the same order, or are there in it, under the number they came with. -/
theorem fifo_of_launch (h : 1 ≤ settings.tableCapacity) (loader : Loader) (program : Program) :
    ∃ sim, launch settings loader program = .ok sim ∧
    ∀ requests, (∀ x ∈ history sim requests, x.Passing) ∧
      Fifo (history sim requests) (run sim requests) := by
  have hunderway := underway_launched h loader program
  refine ⟨_, launch_eq h loader program, fun requests => ⟨fun x hx => ?_, ?_⟩⟩
  · obtain ⟨hu, hhappened⟩ := happened_of_mem_history hunderway requests x hx
    exact hhappened.passing hu
  · have hempty : Fifo [] (launched settings loader program) := ⟨rfl, rfl, rfl⟩
    exact fifo_run hunderway hempty requests

theorem fifo_of_launch_refill : (1 : Int) ≤ ({} : Settings).tableCapacity ∧
    (history (launched {} {} refillDemo) refillDemoCalls).flatMap Moment.enqueued =
      [(1, some 1), (0, some 0), (1, some 2)] ∧
    ∃ sim, launch {} {} refillDemo = .ok sim ∧
    ∀ requests, (∀ x ∈ history sim requests, x.Passing) ∧
      Fifo (history sim requests) (run sim requests) :=
  ⟨by decide, by decide +kernel, fifo_of_launch (by decide) {} refillDemo⟩

end Launch

end Simulation
end Uniproc
