import Uniproc.Proofs.Simulation.Cycle
import Uniproc.Simulation.Start

/-!
Runs: a simulation is launched and then called any number of times, with other files
before every call. A call may stop with a fault, and the run goes on from the state that
is left.
-/

namespace Uniproc
namespace Simulation

inductive Call
  | step
  | unblock
deriving DecidableEq, Repr

/-- A call, and the files as they are when it comes. -/
structure Request where
  call : Call
  files : FileView

inductive Answer
  | report (r : StepReport)
  | unblocked (slot : Option Int)
deriving DecidableEq, Repr

def Request.act (q : Request) : Action Simulation Answer :=
  match q.call with
  | .step => .report <$> step q.files
  | .unblock => .unblocked <$> unblock

/-- What happened in one call. -/
structure Moment where
  before : Simulation
  request : Request
  response : Except Fault Answer
  after : Simulation

def happen (sim : Simulation) (q : Request) : Moment :=
  let (response, after) := q.act.perform sim
  ⟨sim, q, response, after⟩

/-- What a call comes to in a state, as a function. -/
def Request.outcome (q : Request) (sim : Simulation) : EStateM.Result Fault Simulation Answer :=
  match q.call with
  | .step => Action.mapResult id .report (sim.stepOutcome q.files)
  | .unblock => Action.mapResult id .unblocked sim.unblockOutcome

def Moment.ofOutcome (sim : Simulation) (q : Request) :
    EStateM.Result Fault Simulation Answer → Moment
  | .ok answer after => ⟨sim, q, .ok answer, after⟩
  | .error fault after => ⟨sim, q, .error fault, after⟩

/-- What happens from a state on, call by call. -/
def history (sim : Simulation) : List Request → List Moment
  | [] => []
  | q :: rest => sim.happen q :: history (sim.happen q).after rest

def run (sim : Simulation) (requests : List Request) : Simulation :=
  requests.foldl (fun sim q => (sim.happen q).after) sim

/-- The control block of the first process. -/
def initBlock (program : Program) : ControlBlock where
  pid := initPid
  program := program
  state := .running

/-- The state that a launch leads to. -/
def launched (settings : Settings) (loader : Loader) (program : Program) : Simulation :=
  let table : ProcessTable := { slots := List.replicate settings.tableCapacity.toNat {} }
  let sim : Simulation :=
    { settings, loader
      machine :=
        { table := table.put initSlot (initBlock program)
          scheduler.running := some initSlot
          cpu := .ofBlock (initBlock program) (some initSlot.toNat) }
      booted := true }
  sim.logged [sim.entry .info "boot" s!"Init loaded with {program.length} instructions" initSlot
    (initBlock program)]

/-- The calls of a run come in states of this kind only. -/
structure Underway (sim : Simulation) : Prop where
  booted : sim.booted = true
  coherent : sim.machine.Coherent

/-- All that can come of a call. -/
inductive Happened (sim : Simulation) : Moment → Prop
  | stepped {files : FileView} {report : StepReport} {s : Simulation}
      (h : Stepped files sim (.ok report s)) :
      Happened sim ⟨sim, ⟨.step, files⟩, .ok (.report report), s⟩
  | stopped {files : FileView} {fault : Fault} {s : Simulation}
      (h : Stepped files sim (.error fault s)) :
      Happened sim ⟨sim, ⟨.step, files⟩, .error fault, s⟩
  | unblocked {files : FileView} {slot : Option Int} {s : Simulation}
      (h : Unblocked sim (.ok slot s)) :
      Happened sim ⟨sim, ⟨.unblock, files⟩, .ok (.unblocked slot), s⟩
  | stuck {files : FileView} {fault : Fault} {s : Simulation}
      (h : Unblocked sim (.error fault s)) :
      Happened sim ⟨sim, ⟨.unblock, files⟩, .error fault, s⟩

variable {settings : Settings} {loader : Loader} {program : Program}

theorem blockAt_replicate {n : Nat} {slot : Int} {b : ControlBlock}
    (h : { slots := List.replicate n {} : ProcessTable }.blockAt slot = some b) : b = {} := by
  have hmem := List.mem_of_getElem? (ProcessTable.getElem?_of_blockAt h)
  exact List.eq_of_mem_replicate hmem

theorem blockAt_initSlot {n : Nat} (h : 0 < n) :
    { slots := List.replicate n {} : ProcessTable }.blockAt initSlot = some {} := by
  have hfirst : (List.replicate n { : ControlBlock })[0]? = some { : ControlBlock } :=
    List.getElem?_replicate_of_lt h
  exact hfirst

theorem blockAt_launched (h : 1 ≤ settings.tableCapacity) (slot : Int) :
    (launched settings loader program).machine.table.blockAt slot =
      if slot = initSlot then some (initBlock program) else
        { slots := List.replicate settings.tableCapacity.toNat {} : ProcessTable }.blockAt slot :=
  ProcessTable.blockAt_put (blockAt_initSlot (by omega)) _ slot

theorem launch_eq (h : 1 ≤ settings.tableCapacity) (loader : Loader) (program : Program) :
    launch settings loader program = .ok (launched settings loader program) := by
  let table : ProcessTable := { slots := List.replicate settings.tableCapacity.toNat {} }
  let idle : Simulation := { settings, loader, machine := { table } }
  let loaded : Machine := { table := table.put initSlot (initBlock program) }
  let started : Machine := { loaded with scheduler.running := some initSlot }
  have hfree : table.blockAt initSlot = some {} := blockAt_initSlot (by omega)
  have hinit : loaded.table.blockAt initSlot = some (initBlock program) :=
    (ProcessTable.blockAt_put hfree _ initSlot).trans (if_pos rfl)
  have hloader : ofLoader settings loader = .ok idle := by
    rw [ofLoader, Machine.ofCapacity, ProcessTable.ofCapacity, if_neg (by omega)]
    rfl
  have hmachine : onMachine (do
      Machine.spawn initSlot (initBlock program)
      Machine.start initSlot
      Machine.loadCpu initSlot) idle = .ok ()
        { idle with machine :=
          { started with cpu := .ofBlock (initBlock program) (some initSlot.toNat) } } := by
    refine onMachine_of_ok ?_
    rw [Action.bind_of_ok (Machine.spawn_eq (m := idle.machine) hfree rfl (by simp [idle]) _)]
    change (Machine.start initSlot >>= _ : Action Machine Unit) loaded = _
    rw [Action.bind_of_ok (Machine.start_eq rfl hinit rfl)]
    exact Machine.loadCpu_eq (m := started) hinit
  have hboot : boot program idle = .ok () (launched settings loader program) := by
    unfold boot
    rw [Action.bind_get]
    refine (Action.bind_of_ok hmachine _).trans ?_
    refine noteSlot_eq ?_ _ _ _
    exact hinit
  simp only [launch, hloader, bind, Except.bind, hboot]

theorem ofLoader_eq_error (h : ¬ 1 ≤ settings.tableCapacity) (loader : Loader) :
    ofLoader settings loader = .error .capacity := by
  rw [ofLoader, Machine.ofCapacity, ProcessTable.ofCapacity, if_pos (by omega)]
  rfl

theorem launch_eq_ok_iff {loader : Loader} {program : Program} {sim : Simulation} :
    launch settings loader program = .ok sim ↔
      1 ≤ settings.tableCapacity ∧ sim = launched settings loader program := by
  by_cases h : 1 ≤ settings.tableCapacity
  · rw [launch_eq h, Except.ok.injEq, eq_comm]
    exact (and_iff_right h).symm
  · have hcapacity : launch settings loader program = .error .capacity := by
      rw [launch, ofLoader_eq_error h]
      rfl
    rw [hcapacity]
    exact iff_of_false (by simp) fun hboth => h hboth.1

/-- Only the first slot has a process. -/
theorem stateAt_launched (h : 1 ≤ settings.tableCapacity) (slot : Int) {state : ProcessState}
    (hstate : state ≠ .terminated) :
    (launched settings loader program).machine.table.stateAt slot = some state ↔
      slot = initSlot ∧ state = .running := by
  rw [ProcessTable.stateAt, blockAt_launched h]
  by_cases hslot : slot = initSlot
  · rw [if_pos hslot]
    simp [hslot, initBlock, eq_comm]
  · rw [if_neg hslot]
    constructor
    · intro hat
      obtain ⟨b, hb, hbstate⟩ := Option.map_eq_some_iff.mp hat
      rw [blockAt_replicate hb] at hbstate
      exact absurd hbstate.symm hstate
    · intro hboth
      exact absurd hboth.1 hslot

theorem coherent_launched (h : 1 ≤ settings.tableCapacity) (loader : Loader)
    (program : Program) : (launched settings loader program).machine.Coherent where
  running_iff slot := by
    rw [stateAt_launched h slot (by simp)]
    constructor
    · intro hrun
      exact ⟨(Option.some.inj hrun).symm, rfl⟩
    · rintro ⟨rfl, _⟩
      rfl
  ready_iff slot := by
    rw [stateAt_launched h slot (by simp)]
    simp [launched]
  blocked_iff slot := by
    rw [stateAt_launched h slot (by simp)]
    simp [launched]
  ready_nodup := List.nodup_nil
  blocked_nodup := List.nodup_nil
  isLoaded_eq := rfl
  program_eq hrun hb := by
    cases hrun
    rw [blockAt_launched h, if_pos rfl] at hb
    cases hb
    rfl
  cpu_of_idle hidle := by cases hidle
  home_eq hrun := by
    cases hrun
    rfl
  counter_nonneg := Int.le_refl 0
  counters_nonneg {slot b} hb := by
    rw [blockAt_launched h] at hb
    split at hb
    · cases hb
      exact Int.le_refl 0
    · have hblank : b = {} := blockAt_replicate hb
      subst hblank
      exact Int.le_refl 0

theorem underway_launched (h : 1 ≤ settings.tableCapacity) (loader : Loader)
    (program : Program) : (launched settings loader program).Underway :=
  ⟨rfl, coherent_launched h loader program⟩

variable {sim : Simulation}

theorem Move.fixed {s s' : Simulation} (h : Move s s') :
    s'.booted = s.booted ∧ s'.settings = s.settings ∧ s'.loader = s.loader := by
  cases h <;> exact ⟨rfl, rfl, rfl⟩

theorem Move.underway {s s' : Simulation} (h : Move s s') (hu : s.Underway) : s'.Underway :=
  ⟨h.fixed.1.trans hu.booted, h.coherent hu.coherent⟩

@[simp] theorem before_happen (sim : Simulation) (q : Request) :
    (sim.happen q).before = sim := rfl

@[simp] theorem request_happen (sim : Simulation) (q : Request) :
    (sim.happen q).request = q := rfl

theorem happen_eq (h : sim.Underway) (q : Request) :
    sim.happen q = .ofOutcome sim q (q.outcome sim) := by
  have hact : q.act sim = q.outcome sim := by
    unfold Request.act Request.outcome
    cases q.call with
    | step => exact (Action.map_eq _ _ _).trans (by rw [step_eq h.booted h.coherent])
    | unblock => exact (Action.map_eq _ _ _).trans (by rw [unblock_eq h.booted h.coherent])
  unfold happen Action.perform
  rw [hact]
  cases q.outcome sim <;> rfl

/-- A call has an outcome of a step or of an unblocking. -/
theorem happened (h : sim.Underway) (q : Request) : Happened sim (sim.happen q) := by
  obtain ⟨call, files⟩ := q
  unfold happen Request.act
  cases call with
  | step =>
      have hstep := stepped h.booted h.coherent files
      simp only [Action.perform, Functor.map, EStateM.map]
      cases hx : step files sim with
      | ok report s => exact .stepped (hx ▸ hstep)
      | error fault s => exact .stopped (hx ▸ hstep)
  | unblock =>
      have hunblock := unblock_done h.booted h.coherent
      simp only [Action.perform, Functor.map, EStateM.map]
      cases hx : unblock sim with
      | ok slot s => exact .unblocked (hx ▸ hunblock)
      | error fault s => exact .stuck (hx ▸ hunblock)

theorem after_step (sim : Simulation) (files : FileView) :
    (sim.happen ⟨.step, files⟩).after = Action.stateOf (step files sim) := by
  simp only [happen, Request.act, Action.perform, Functor.map, EStateM.map, Action.stateOf]
  cases step files sim <;> rfl

theorem after_unblock (sim : Simulation) (files : FileView) :
    (sim.happen ⟨.unblock, files⟩).after = Action.stateOf (unblock sim) := by
  simp only [happen, Request.act, Action.perform, Functor.map, EStateM.map, Action.stateOf]
  cases unblock sim <;> rfl

theorem Happened.moves {x : Moment} (h : Happened sim x) : Moves sim x.after := by
  cases h with
  | stepped h => exact h.moves
  | stopped h => exact h.moves
  | unblocked h => exact h.moves
  | stuck h => exact h.moves

theorem Happened.underway {x : Moment} (h : Happened sim x) (hu : sim.Underway) :
    x.after.Underway :=
  h.moves.keeps (fun hu hmove => hmove.underway hu) hu

/-- What every move keeps is kept by a run. -/
theorem run_keeps {P : Simulation → Prop} (hmove : ∀ {u v : Simulation}, P u → Move u v → P v)
    (hunderway : ∀ {u : Simulation}, P u → u.Underway) (h : P sim) (requests : List Request) :
    P (run sim requests) := by
  induction requests generalizing sim with
  | nil => exact h
  | cons q rest ih => exact ih ((happened (hunderway h) q).moves.keeps hmove h)

theorem underway_run (h : sim.Underway) (requests : List Request) : (run sim requests).Underway :=
  run_keeps (fun hu hmove => hmove.underway hu) (fun hu => hu) h requests

theorem fixed_run (hu : sim.Underway) (requests : List Request) :
    (run sim requests).settings = sim.settings ∧ (run sim requests).loader = sim.loader := by
  have hfixed : (run sim requests).Underway ∧ (run sim requests).settings = sim.settings ∧
      (run sim requests).loader = sim.loader := by
    refine run_keeps
      (P := fun s => s.Underway ∧ s.settings = sim.settings ∧ s.loader = sim.loader) ?_ (·.1)
      ⟨hu, rfl, rfl⟩ requests
    rintro u v ⟨hu, hsettings, hloader⟩ hmove
    exact ⟨hmove.underway hu, hmove.fixed.2.1.trans hsettings, hmove.fixed.2.2.trans hloader⟩
  exact hfixed.2

/-- After any calls the scheduler agrees with the states in the table, so that every slot
with a process has one place, and the CPU is loaded with the program of the running slot
or not at all. -/
theorem scheduled_of_launch (h : 1 ≤ settings.tableCapacity) (loader : Loader)
    (program : Program) : ∃ sim, launch settings loader program = .ok sim ∧
    ∀ requests, (run sim requests).machine.Scheduled ∧
      (run sim requests).machine.scheduler.places.Nodup ∧
      ∀ slot, slot ∈ (run sim requests).machine.scheduler.places ↔
        ∃ b, (run sim requests).machine.table.Live slot b := by
  refine ⟨_, launch_eq h loader program, fun requests => ?_⟩
  have hunderway := underway_run (underway_launched h loader program) requests
  have hscheduled := hunderway.coherent.toScheduled
  exact ⟨hscheduled, hscheduled.nodup_places, hscheduled.mem_places_iff⟩

/-- A process that forks, waits until its child has ended, and forks again. -/
def refillDemo : Program where
  instructions :=
    [⟨.fork, 1, ""⟩, ⟨.halt, 0, ""⟩, ⟨.block, 0, ""⟩,
     ⟨.fork, 1, ""⟩, ⟨.halt, 0, ""⟩, ⟨.block, 0, ""⟩]

/-- The calls up to the second fork, whose child comes to the slot of the first. -/
def refillDemoCalls : List Request :=
  [.step, .step, .step, .unblock, .step].map fun call => ⟨call, fun _ => .error .notFound⟩

/-- The second child is ready in the slot of the first. -/
theorem scheduled_of_launch_refillDemo : (1 : Int) ≤ ({} : Settings).tableCapacity ∧
    (run (launched {} {} refillDemo) refillDemoCalls).machine.scheduler = ⟨some 0, [1], [], 2⟩ ∧
    (run (launched {} {} refillDemo) refillDemoCalls).machine.table.stateAt 1 = some .ready ∧
    (run (launched {} {} refillDemo) refillDemoCalls).machine.table.nextPid = 3 ∧
    ∃ sim, launch {} {} refillDemo = .ok sim ∧
    ∀ requests, (run sim requests).machine.Scheduled ∧
      (run sim requests).machine.scheduler.places.Nodup ∧
      ∀ slot, slot ∈ (run sim requests).machine.scheduler.places ↔
        ∃ b, (run sim requests).machine.table.Live slot b :=
  ⟨by decide, by decide +kernel, by decide +kernel, by decide +kernel,
    scheduled_of_launch (by decide) {} refillDemo⟩

end Simulation
end Uniproc
