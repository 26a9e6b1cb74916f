import Mathlib.Logic.Relation
import Uniproc.Proofs.Simulation.Outcome

/-!
The cycle of a simulation: what a step and an unblocking come to, whether they return or
stop with a fault. Each leads from one state to the next by a few moves, and what every
move keeps is kept by both.
-/

namespace Uniproc

namespace Simulation

/-- All that can come of the turn of the process with control block `b` in `slot`. -/
inductive Turned (files : FileView) (slot : Int) (b : ControlBlock) (sim : Simulation) :
    EStateM.Result Fault Simulation StepReport → Prop
  | unbegun {i : Instruction} (hnext : sim.next? = some i)
      (h : ¬ Writable ([(sim.tick : Int), slot] ++ i.numbers)) :
      Turned files slot b sim (.error (.numeral .writing) sim.fetched)
  | aborted {i : Instruction} {fault : Fault} (hnext : sim.next? = some i)
      (h : sim.fetched.effectOf files i = .abort fault) :
      Turned files slot b sim (.error fault (sim.fetched.affect slot b (.abort fault)))
  | untold {i? : Option Instruction} {mid : Simulation} {e : Effect} (events : List Event)
      (hnext : sim.next? = i?) (hmid : sim.fetchedBy i? = mid) (he : mid.effectAt files i? = e)
      (h : ¬ Writable ([(sim.tick : Int), slot] ++ mid.numbersOf slot b e)) :
      Turned files slot b sim
        (.error (.numeral .writing) ((mid.affect slot b e).logged events))
  | done {i? : Option Instruction} {mid : Simulation} {e : Effect}
      (hnext : sim.next? = i?) (hmid : sim.fetchedBy i? = mid) (he : mid.effectAt files i? = e)
      (hdone : ∀ fault, e ≠ .abort fault) :
      Turned files slot b sim
        (.ok ⟨sim.tick, some slot, some b.pid, i?, mid.messageAt slot e i?⟩
          ((mid.affect slot b e).logged (mid.eventsAt slot b e i?)))

/-- All that can come of a step. -/
inductive Stepped (files : FileView) (sim : Simulation) :
    EStateM.Result Fault Simulation StepReport → Prop
  | idle (h : sim.machine.scheduler.running = none) :
      Stepped files sim (.ok ⟨sim.tick, none, none, none, noProcessRunning⟩
        (sim.logged sim.idleEvents).elapsed)
  | stopped {slot : Int} {b : ControlBlock} {fault : Fault} {s : Simulation}
      (hrun : sim.machine.scheduler.running = some slot)
      (hb : sim.machine.table.blockAt slot = some b)
      (h : Turned files slot b sim (.error fault s)) : Stepped files sim (.error fault s)
  | untold {slot : Int} {b : ControlBlock} {report : StepReport} {s : Simulation}
      (hrun : sim.machine.scheduler.running = some slot)
      (hb : sim.machine.table.blockAt slot = some b)
      (h : Turned files slot b sim (.ok report s)) (hnext : ¬ Writable s.machine.next?.toList) :
      Stepped files sim (.error (.numeral .writing) s.elapsed.dispatched)
  | done {slot : Int} {b : ControlBlock} {report : StepReport} {s : Simulation}
      (hrun : sim.machine.scheduler.running = some slot)
      (hb : sim.machine.table.blockAt slot = some b)
      (h : Turned files slot b sim (.ok report s)) :
      Stepped files sim (.ok report (s.elapsed.dispatched.logged s.elapsed.switchEvents))

/-- All that can come of an unblocking. -/
inductive Unblocked (sim : Simulation) : EStateM.Result Fault Simulation (Option Int) → Prop
  | untold (h : ¬ Writable sim.machine.scheduler.blocked.head?.toList) :
      Unblocked sim (.error (.numeral .writing) sim.unblocked)
  | undispatched (h : ¬ Writable sim.unblocked.machine.next?.toList) :
      Unblocked sim (.error (.numeral .writing)
        (sim.unblocked.logged sim.wakeEvents).dispatched)
  | done : Unblocked sim (.ok sim.machine.scheduler.blocked.head?
      ((sim.unblocked.logged sim.wakeEvents).dispatched.logged sim.unblocked.switchEvents))

/-- The moves of which a step and an unblocking are made. -/
inductive Move : Simulation → Simulation → Prop
  | log (sim : Simulation) (events : List Event) : Move sim (sim.logged events)
  | fetch {sim : Simulation} {slot : Int} (hrun : sim.machine.scheduler.running = some slot) :
      Move sim sim.fetched
  | affect {sim : Simulation} {slot : Int} {b : ControlBlock} {files : FileView}
      {i? : Option Instruction} (hrun : sim.machine.scheduler.running = some slot)
      (hb : sim.machine.table.blockAt slot = some b) :
      Move sim (sim.affect slot b (sim.effectAt files i?))
  | elapse (sim : Simulation) : Move sim sim.elapsed
  | dispatch (sim : Simulation) : Move sim sim.dispatched
  | unblock (sim : Simulation) : Move sim sim.unblocked

abbrev Moves : Simulation → Simulation → Prop :=
  Relation.ReflTransGen Move

variable {sim : Simulation} {slot : Int} {b : ControlBlock}

theorem Move.coherent {s s' : Simulation} (h : Move s s') (hc : s.machine.Coherent) :
    s'.machine.Coherent := by
  cases h with
  | log events => exact hc
  | fetch hrun =>
      have hcounter := hc.counter_nonneg
      exact Machine.coherent_withCounter hc hrun (by omega)
  | affect hrun hb => exact Machine.coherent_affect hc hrun hb (admits_effectAt _ _ _) _
  | elapse => exact hc
  | dispatch => exact Machine.coherent_afterDispatch hc
  | unblock => exact Machine.coherent_afterUnblock hc

/-- What every move keeps is kept by any number of them. -/
theorem Moves.keeps {P : Simulation → Prop} {s s' : Simulation} (h : Moves s s')
    (hmove : ∀ {u v : Simulation}, P u → Move u v → P v) (hp : P s) : P s' := by
  induction h with
  | refl => exact hp
  | tail _ hlast ih => exact hmove ih hlast

theorem Moves.coherent {s s' : Simulation} (h : Moves s s') (hc : s.machine.Coherent) :
    s'.machine.Coherent :=
  h.keeps (P := fun s => s.machine.Coherent) (fun hc hmove => hmove.coherent hc) hc

theorem Turned.moves {files : FileView} {r : EStateM.Result Fault Simulation StepReport}
    (h : Turned files slot b sim r) (hrun : sim.machine.scheduler.running = some slot)
    (hb : sim.machine.table.blockAt slot = some b) : Moves sim (Action.stateOf r) := by
  have hfetch : Moves sim sim.fetched := .single (.fetch hrun)
  have haffect (i? : Option Instruction) : Moves sim
      ((sim.fetchedBy i?).affect slot b ((sim.fetchedBy i?).effectAt files i?)) := by
    cases i? with
    | some i =>
        have hmove : Move sim.fetched
            (sim.fetched.affect slot b (sim.fetched.effectAt files (some i))) := .affect hrun hb
        exact hfetch.tail hmove
    | none => exact .single (.affect hrun hb)
  cases h with
  | unbegun => exact hfetch
  | aborted hnext h =>
      rw [← h]
      exact haffect (some _)
  | untold events hnext hmid he _ =>
      subst hmid he
      exact (haffect _).tail (.log _ events)
  | done hnext hmid he _ =>
      subst hmid he
      exact (haffect _).tail (.log _ _)

theorem Stepped.moves {files : FileView} {r : EStateM.Result Fault Simulation StepReport}
    (h : Stepped files sim r) : Moves sim (Action.stateOf r) := by
  cases h with
  | idle _ => exact (Relation.ReflTransGen.single (.log sim _)).tail (.elapse _)
  | stopped hrun hb h => exact h.moves hrun hb
  | untold hrun hb h _ => exact ((h.moves hrun hb).tail (.elapse _)).tail (.dispatch _)
  | done hrun hb h =>
      exact (((h.moves hrun hb).tail (.elapse _)).tail (.dispatch _)).tail (.log _ _)

theorem Unblocked.moves {r : EStateM.Result Fault Simulation (Option Int)}
    (h : Unblocked sim r) : Moves sim (Action.stateOf r) := by
  have hunblock : Moves sim sim.unblocked := .single (.unblock sim)
  cases h with
  | untold _ => exact hunblock
  | undispatched _ => exact (hunblock.tail (.log _ _)).tail (.dispatch _)
  | done => exact ((hunblock.tail (.log _ _)).tail (.dispatch _)).tail (.log _ _)

/-- Where a turn stops, its effect is there or it is not begun. -/
theorem turned (hc : sim.machine.Coherent) (hrun : sim.machine.scheduler.running = some slot)
    (hb : sim.machine.table.blockAt slot = some b) (files : FileView) :
    Turned files slot b sim (runSlot files slot sim) := by
  rw [runSlot_eq hc hrun hb]
  unfold turnOutcome
  cases hnext : sim.next? with
  | some i =>
      dsimp only
      by_cases hw : Writable ([(sim.tick : Int), slot] ++ i.numbers)
      · rw [tick_fetchedBy, checked_of_writable hw]
        cases hfault : ((sim.fetchedBy (some i)).effectAt files (some i)).fault? with
        | some fault =>
            have habort := Effect.fault?_eq_some_iff.mp hfault
            rw [habort]
            exact .aborted hnext habort
        | none =>
            by_cases htold : Writable ((sim.fetchedBy (some i)).numbersOf slot b
                ((sim.fetchedBy (some i)).effectAt files (some i)))
            · dsimp only
              rw [checked_of_writable htold]
              exact .done hnext rfl rfl (Effect.fault?_eq_none_iff.mp hfault)
            · dsimp only
              rw [checked_of_not_writable htold]
              refine .untold [] hnext rfl rfl ?_
              exact fun h => htold (writable_append.mp h).2
      · rw [tick_fetchedBy, checked_of_not_writable hw]
        exact .unbegun hnext hw
  | none =>
      dsimp only [fetchedBy, effectAt]
      by_cases htold : Writable (sim.numbersOf slot b .finish)
      · rw [checked_of_writable htold]
        by_cases hw : Writable [(sim.tick : Int), slot]
        · rw [checked_of_writable hw]
          exact .done hnext rfl rfl (by simp)
        · rw [checked_of_not_writable hw]
          refine .untold _ hnext rfl rfl ?_
          exact fun h => hw (writable_append.mp h).1
      · rw [checked_of_not_writable htold]
        refine .untold [] hnext rfl rfl ?_
        exact fun h => htold (writable_append.mp h).2

theorem stepped (hbooted : sim.booted = true) (hc : sim.machine.Coherent) (files : FileView) :
    Stepped files sim (step files sim) := by
  rw [step_eq hbooted hc]
  unfold stepOutcome
  cases hrun : sim.machine.scheduler.running with
  | none => exact .idle hrun
  | some slot =>
      obtain ⟨b, hb, _⟩ := hc.exists_running hrun
      have hturn := turned hc hrun hb files
      rw [runSlot_eq hc hrun hb] at hturn
      dsimp only
      rw [hb, Option.getD_some]
      cases hx : (sim.fetchedBy sim.next?).turnOutcome files slot b sim.next? with
      | error fault s => exact .stopped hrun hb (hx ▸ hturn)
      | ok report s =>
          dsimp only [dispatchOutcome]
          by_cases hw : Writable s.elapsed.machine.next?.toList
          · rw [checked_of_writable hw]
            exact .done hrun hb (hx ▸ hturn)
          · rw [checked_of_not_writable hw]
            exact .untold hrun hb (hx ▸ hturn) hw

theorem unblock_done (hbooted : sim.booted = true) (hc : sim.machine.Coherent) :
    Unblocked sim (unblock sim) := by
  rw [unblock_eq hbooted hc]
  unfold unblockOutcome
  dsimp only [dispatchOutcome]
  by_cases hwake : Writable sim.machine.scheduler.blocked.head?.toList
  · rw [checked_of_writable hwake]
    by_cases hw : Writable sim.unblocked.machine.next?.toList
    · rw [machine_logged, checked_of_writable hw]
      exact .done
    · rw [machine_logged, checked_of_not_writable hw]
      exact .undispatched hw
  · rw [checked_of_not_writable hwake]
    exact .untold hwake

end Simulation
end Uniproc
