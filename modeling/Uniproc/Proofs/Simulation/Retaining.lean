import Uniproc.Proofs.Simulation.Run

/-!
Steps in which the running process keeps the CPU: nobody is dispatched after them, so that
there is nothing to see of them but the effect of one instruction, unless its report cannot be
written.
-/

namespace Uniproc
namespace Simulation

/-- The process with control block `b` in `slot` has the CPU and is about to execute this
instruction. -/
structure AboutTo (sim : Simulation) (slot : Int) (b : ControlBlock) (i : Instruction) : Prop where
  running : sim.machine.scheduler.running = some slot
  block : sim.machine.table.blockAt slot = some b
  fetch : sim.fetch = .ok (some i)

/-- The instruction is announced and has this effect, after which the process still has the
CPU. -/
structure Retains (sim : Simulation) (files : FileView) (slot : Int) (b : ControlBlock)
    (i : Instruction) (e : Effect) : Prop extends AboutTo sim slot b i where
  underway : sim.Underway
  announced : Writable ([(sim.tick : Int), slot] ++ i.numbers)
  effect_eq : sim.fetched.effectOf files i = e
  retains : (sim.fetched.affect slot b e).machine.scheduler.running = some slot

variable {sim : Simulation} {files : FileView} {slot : Int} {b : ControlBlock} {i : Instruction}
  {e : Effect}

theorem AboutTo.next?_eq (h : sim.AboutTo slot b i) (hc : sim.machine.Coherent) :
    sim.next? = some i := by
  have hfetch := fetch_eq hc.counter_nonneg
  rw [h.fetch] at hfetch
  exact (Except.ok.inj hfetch).symm

/-- A program of which an instruction is left is not empty. -/
theorem AboutTo.program_ne (h : sim.AboutTo slot b i) (hc : sim.machine.Coherent) :
    b.program ≠ {} := by
  intro hempty
  have hnext := h.next?_eq hc
  rw [next?, hc.program_eq h.running h.block, Option.getD_some, hempty] at hnext
  cases hnext

theorem dispatchOutcome_of_running {α : Type} (hrun : sim.machine.scheduler.running = some slot)
    (a : α) : sim.dispatchOutcome a = .ok a sim := by
  have hnext : sim.machine.next? = none :=
    Machine.next?_eq_none_iff.mpr (.inl (by rw [hrun]; rfl))
  have hstay : sim.dispatched = sim := by rw [dispatched, Machine.afterDispatch, hrun]
  have hevents : sim.switchEvents = [] := by rw [switchEvents, hnext]
  rw [dispatchOutcome, hnext, Option.toList_none, checked_of_writable writable_nil, hstay, hevents]
  rfl

theorem AboutTo.stepOutcome_of_ok {report : StepReport} {s : Simulation}
    (h : sim.AboutTo slot b i) (hc : sim.machine.Coherent)
    (hturn : sim.fetched.turnOutcome files slot b (some i) = .ok report s) :
    sim.stepOutcome files = s.elapsed.dispatchOutcome report := by
  unfold stepOutcome
  rw [h.running, h.next?_eq hc]
  dsimp only [fetchedBy]
  rw [h.block, Option.getD_some, hturn]

theorem AboutTo.happen_of_error {fault : Fault} {s : Simulation} (h : sim.AboutTo slot b i)
    (hu : sim.Underway)
    (hturn : sim.fetched.turnOutcome files slot b (some i) = .error fault s) :
    sim.happen ⟨.step, files⟩ = ⟨sim, ⟨.step, files⟩, .error fault, s⟩ := by
  have hstep : sim.stepOutcome files = .error fault s := by
    unfold stepOutcome
    rw [h.running, h.next?_eq hu.coherent]
    dsimp only [fetchedBy]
    rw [h.block, Option.getD_some, hturn]
  rw [happen_eq hu, Request.outcome]
  dsimp only
  rw [hstep]
  rfl

/-- Only the counter has moved on if the instruction cannot be announced. -/
theorem AboutTo.happen_of_unannounced (h : sim.AboutTo slot b i) (hu : sim.Underway)
    (hw : ¬ Writable ([(sim.tick : Int), slot] ++ i.numbers)) : sim.happen ⟨.step, files⟩ =
      ⟨sim, ⟨.step, files⟩, .error (.numeral .writing), sim.fetched⟩ :=
  h.happen_of_error hu (checked_of_not_writable hw _ _)

theorem Retains.turnOutcome_eq (h : Retains sim files slot b i e) :
    sim.fetched.turnOutcome files slot b (some i) =
      match e.fault? with
      | some fault => .error fault (sim.fetched.affect slot b e)
      | none => checked (sim.fetched.numbersOf slot b e) (sim.fetched.affect slot b e)
        (.ok (sim.fetched.turnReport slot b e (some i))
          ((sim.fetched.affect slot b e).logged (sim.fetched.eventsAt slot b e (some i)))) := by
  rw [← h.effect_eq]
  exact checked_of_writable h.announced _ _

theorem Retains.happen_of_abort {fault : Fault} (h : Retains sim files slot b i (.abort fault)) :
    sim.happen ⟨.step, files⟩ =
      ⟨sim, ⟨.step, files⟩, .error fault, sim.fetched.affect slot b (.abort fault)⟩ := by
  refine h.happen_of_error h.underway ?_
  rw [h.turnOutcome_eq]
  rfl

/-- The effect is there although it cannot be told. -/
theorem Retains.happen_of_untold (h : Retains sim files slot b i e) (hdone : e.fault? = none)
    (htold : ¬ Writable (sim.fetched.numbersOf slot b e)) : sim.happen ⟨.step, files⟩ =
      ⟨sim, ⟨.step, files⟩, .error (.numeral .writing), sim.fetched.affect slot b e⟩ := by
  refine h.happen_of_error h.underway ?_
  rw [h.turnOutcome_eq, hdone]
  exact checked_of_not_writable htold _ _

theorem Retains.happen_of_told (h : Retains sim files slot b i e) (hdone : e.fault? = none)
    (htold : Writable (sim.fetched.numbersOf slot b e)) : sim.happen ⟨.step, files⟩ =
      ⟨sim, ⟨.step, files⟩, .ok (.report (sim.fetched.turnReport slot b e (some i))),
        ((sim.fetched.affect slot b e).logged
          (sim.fetched.eventsAt slot b e (some i))).elapsed⟩ := by
  let s := (sim.fetched.affect slot b e).logged (sim.fetched.eventsAt slot b e (some i))
  have hturn : sim.fetched.turnOutcome files slot b (some i) =
      .ok (sim.fetched.turnReport slot b e (some i)) s := by
    rw [h.turnOutcome_eq, hdone]
    exact checked_of_writable htold _ _
  have hrun : s.elapsed.machine.scheduler.running = some slot := h.retains
  rw [happen_eq h.underway, Request.outcome]
  dsimp only
  rw [h.stepOutcome_of_ok h.underway.coherent hturn, dispatchOutcome_of_running hrun]
  rfl

end Simulation
end Uniproc
