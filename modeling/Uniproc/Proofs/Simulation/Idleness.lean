import Uniproc.Proofs.Simulation.History

/-!
Idleness: between the calls of a run the CPU is idle only if nobody is ready. So it does not
show that an idle step does not give the CPU away, which is to say that a simulation whose
idle steps do is the same.
-/

namespace Uniproc

/-- An idle CPU has nobody to be given to. -/
def Machine.Settled (m : Machine) : Prop :=
  m.scheduler.running = none → m.scheduler.ready = []

namespace Simulation

/-- An idle step that gives the CPU away too. -/
def eagerIdle : Action Simulation StepReport := do
  let report ← idle
  dispatch
  return report

def eagerStep (files : FileView) : Action Simulation StepReport := do
  requireBooted
  match (← get).machine.scheduler.running with
  | none => eagerIdle
  | some slot =>
    let report ← runSlot files slot
    advanceClock
    dispatch
    return report

/-- The answer of the simulation that has these steps. -/
def Request.actEagerly (q : Request) : Action Simulation Answer :=
  match q.call with
  | .step => .report <$> eagerStep q.files
  | .unblock => .unblocked <$> unblock

def happenEagerly (sim : Simulation) (q : Request) : Moment :=
  let (response, after) := q.actEagerly.perform sim
  ⟨sim, q, response, after⟩

def eagerHistory (sim : Simulation) : List Request → List Moment
  | [] => []
  | q :: rest => sim.happenEagerly q :: eagerHistory (sim.happenEagerly q).after rest

def eagerRun (sim : Simulation) (requests : List Request) : Simulation :=
  requests.foldl (fun sim q => (sim.happenEagerly q).after) sim

end Simulation

namespace Machine

variable {m : Machine}

theorem settled_of_running {slot : Int} (h : m.scheduler.running = some slot) : m.Settled := by
  intro hidle
  rw [h] at hidle
  cases hidle

theorem settled_afterDispatch (h : m.Scheduled) : m.afterDispatch.Settled := by
  obtain ⟨hnext, heq⟩ | ⟨slot, b, rest, _, _, _, _, _, heq⟩ := h.afterDispatch_cases
  · rw [heq]
    intro hidle
    rw [next?_eq_none_iff, hidle] at hnext
    exact hnext.resolve_left (by simp)
  · rw [heq]
    exact settled_of_running rfl

end Machine

namespace Simulation

variable {sim : Simulation} {requests : List Request}

theorem dispatch_of_settled (h : sim.machine.Settled)
    (hidle : sim.machine.scheduler.running = none) : dispatch sim = .ok () sim := by
  have hnext : sim.machine.next? = none := Machine.next?_eq_none_iff.mpr (.inr (h hidle))
  unfold dispatch
  exact Action.bind_of_ok (onMachine_of_ok (Machine.dispatch_stay hnext)) _

/-- Where nobody is ready behind an idle CPU, there is nobody to give it to. -/
theorem eagerStep_eq (hbooted : sim.booted = true) (h : sim.machine.Settled) (files : FileView) :
    eagerStep files sim = step files sim := by
  unfold eagerStep step
  rw [Action.bind_of_ok (requireBooted_eq hbooted), Action.bind_of_ok (requireBooted_eq hbooted),
    Action.bind_get, Action.bind_get]
  cases hrun : sim.machine.scheduler.running with
  | some slot => rfl
  | none =>
      have hidle : idle sim = .ok ⟨sim.tick, none, none, none, noProcessRunning⟩
          (sim.logged sim.idleEvents).elapsed := rfl
      have hdispatch : dispatch (sim.logged sim.idleEvents).elapsed = _ :=
        dispatch_of_settled h hrun
      dsimp only
      rw [eagerIdle, Action.bind_of_ok hidle, Action.bind_of_ok hdispatch, hidle]
      rfl

/-- In a state that is not settled there is a difference. -/
example : ∃ (sim : Simulation) (files : FileView), sim.booted = true ∧
    (Action.stateOf (eagerStep files sim)).machine.scheduler.running = some 0 ∧
    (Action.stateOf (step files sim)).machine.scheduler.running = none :=
  ⟨{ settings := {}
     loader := {}
     machine := { table := { slots := [{ state := .ready }] }, scheduler := { ready := [0] } }
     booted := true }, fun _ => .error .notFound, by decide +kernel⟩

theorem happenEagerly_eq (hbooted : sim.booted = true) (h : sim.machine.Settled) (q : Request) :
    sim.happenEagerly q = sim.happen q := by
  obtain ⟨call, files⟩ := q
  cases call with
  | unblock => rfl
  | step =>
      have hact : Request.actEagerly ⟨.step, files⟩ sim = Request.act ⟨.step, files⟩ sim := by
        simp only [Request.actEagerly, Request.act, Functor.map, EStateM.map,
          eagerStep_eq hbooted h files]
      simp only [happenEagerly, happen, Action.perform, hact]

/-- A call leaves nobody ready behind an idle CPU, whether it returns or stops. -/
theorem Happened.settled {x : Moment} (hx : Happened sim x) (hu : sim.Underway)
    (hs : sim.books.Sound) (ht : sim.tick + 1 < Numeral.writingBound)
    (h : sim.machine.Settled) : x.after.machine.Settled := by
  have hc := hu.coherent
  cases hx with
  | stepped hstep =>
      cases hstep with
      | idle _ => exact h
      | done hrun hb hturn =>
          have hafter := (hturn.moves hrun hb).coherent hc
          exact Machine.settled_afterDispatch hafter.toScheduled
  | stopped hstep =>
      cases hstep with
      | stopped hrun hb hturn =>
          -- the process that was stopped still has the CPU
          obtain ⟨i, _, ⟨_, rfl⟩ | ⟨_, rfl⟩⟩ := hturn.error_cases hc hrun hb hs ht
          · exact Machine.settled_of_running hrun
          · exact Machine.settled_of_running hrun
      | untold hrun hb hturn hnext => exact absurd (hturn.writable_next? hc hrun hb hs ht) hnext
  | unblocked hunblock =>
      cases hunblock with
      | done =>
          have hwoken := Machine.coherent_afterUnblock hc
          exact Machine.settled_afterDispatch hwoken.toScheduled
  | stuck hunblock => exact absurd hunblock (Unblocked.not_error hc hs (by omega))

/-- A run whose ticks can be written stays settled, and is the run with eager idle steps. -/
theorem settled_run (hu : sim.Underway) (hs : sim.books.Sound)
    (ht : sim.tick + requests.length < Numeral.writingBound) (h : sim.machine.Settled) :
    (∀ x ∈ history sim requests, x.after.machine.Settled) ∧
      eagerHistory sim requests = history sim requests := by
  induction requests generalizing sim with
  | nil => exact ⟨by simp [history], rfl⟩
  | cons q rest ih =>
      rw [List.length_cons] at ht
      have hhappened := happened hu q
      have hentered := entered_happen hu hs (q := q) (.inr (by omega))
      have hafter := hhappened.settled hu hs (by omega) h
      have htick : (sim.happen q).after.tick ≤ sim.tick + 1 := hentered.booked.tick_bounds.2
      obtain ⟨hsettled, heager⟩ := ih (hhappened.underway hu) (hentered.booked.sound hs) (by omega)
        hafter
      rw [history, eagerHistory, happenEagerly_eq hu.booted h]
      exact ⟨List.forall_mem_cons.mpr ⟨hafter, hsettled⟩, congrArg _ heager⟩

theorem eagerRun_eq (h : eagerHistory sim requests = history sim requests) :
    eagerRun sim requests = run sim requests := by
  induction requests generalizing sim with
  | nil => rfl
  | cons q rest ih =>
      rw [eagerHistory, history, List.cons.injEq] at h
      obtain ⟨hfirst, hrest⟩ := h
      rw [hfirst] at hrest
      change eagerRun (sim.happenEagerly q).after rest = run (sim.happen q).after rest
      rw [hfirst]
      exact ih hrest

theorem settled_launched {settings : Settings} (h : 1 ≤ settings.tableCapacity) (loader : Loader)
    (program : Program) (hlength : requests.length < Numeral.writingBound) :
    (run (launched settings loader program) requests).machine.Settled ∧
      eagerHistory (launched settings loader program) requests =
        history (launched settings loader program) requests := by
  have hlaunched : (launched settings loader program).machine.Settled :=
    Machine.settled_of_running rfl
  obtain ⟨hsettled, heager⟩ := settled_run (underway_launched h loader program)
    (sound_launched h loader program) ((Nat.zero_add _).trans_lt hlength) hlaunched
  refine ⟨?_, heager⟩
  exact run_of_history (P := fun sim => sim.machine.Settled) (fun x hx _ => hsettled x hx) hlaunched

/-- After any calls, as long as ticks can be written, nobody is ready behind an idle CPU. So
with idle steps that give the CPU away every call has the same answer and leaves the same
state. -/
theorem settled_of_launch {settings : Settings} (h : 1 ≤ settings.tableCapacity)
    (loader : Loader) (program : Program) :
    ∃ sim, launch settings loader program = .ok sim ∧
    ∀ requests : List Request, requests.length < Numeral.writingBound →
      (run sim requests).machine.Settled ∧
      eagerHistory sim requests = history sim requests ∧
      eagerRun sim requests = run sim requests := by
  refine ⟨_, launch_eq h loader program, fun requests hlength => ?_⟩
  obtain ⟨hsettled, heager⟩ := settled_launched h loader program hlength
  exact ⟨hsettled, heager, eagerRun_eq heager⟩

/-- The only process has blocked, and the other steps are idle. -/
theorem settled_of_launch_block : (1 : Int) ≤ ({} : Settings).tableCapacity ∧
    (List.replicate 5 (⟨.step, fun _ => .error .notFound⟩ : Request)).length <
      Numeral.writingBound ∧
    (run (launched {} {} ⟨[⟨.block, 0, ""⟩]⟩)
      [⟨.step, fun _ => .error .notFound⟩]).machine.scheduler = ⟨none, [], [0], 0⟩ ∧
    ∃ sim, launch {} {} ⟨[⟨.block, 0, ""⟩]⟩ = .ok sim ∧
      (run sim (List.replicate 5 ⟨.step, fun _ => .error .notFound⟩)).machine.Settled ∧
      eagerHistory sim (List.replicate 5 ⟨.step, fun _ => .error .notFound⟩) =
        history sim (List.replicate 5 ⟨.step, fun _ => .error .notFound⟩) ∧
      eagerRun sim (List.replicate 5 ⟨.step, fun _ => .error .notFound⟩) =
        run sim (List.replicate 5 ⟨.step, fun _ => .error .notFound⟩) := by
  have hlength : (List.replicate 5 (⟨.step, fun _ => .error .notFound⟩ : Request)).length <
      Numeral.writingBound := Numeral.lt_writingBound (by decide)
  have hcapacity : (1 : Int) ≤ ({} : Settings).tableCapacity := by decide
  obtain ⟨sim, hlaunch, hsettled⟩ := settled_of_launch hcapacity {} ⟨[⟨.block, 0, ""⟩]⟩
  exact ⟨hcapacity, hlength, by decide +kernel, sim, hlaunch, hsettled _ hlength⟩

end Simulation
end Uniproc
