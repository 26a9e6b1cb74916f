import Uniproc.Proofs.Loading
import Uniproc.Proofs.Machine.Widening
import Uniproc.Proofs.Simulation.Course

/-!
Limits matter only where they are hit. A run in which every fork finds a slot and every
program can be loaded goes the same way with more slots and longer programs: the larger
simulation is at every moment the smaller one with free slots behind its table.
-/

namespace Uniproc

/-- Nothing has been in the way of the instruction. -/
def Effect.Unhindered : Effect → Prop
  | .refuse | .keep _ | .lose _ | .abort _ => False
  | _ => True

namespace Simulation

/-- Other settings, another limit to the length of programs and a number of slots to add. -/
structure Room where
  settings : Settings
  limit : Int
  slots : Nat

/-- The same state with more room. -/
def refit (sim : Simulation) (r : Room) : Simulation :=
  { sim with
    settings := r.settings
    loader := { sim.loader with limit := r.limit }
    machine := sim.machine.widened r.slots }

/-- All that can be asked of a simulation between two calls. -/
structure Outlook where
  snapshot : Snapshot
  turnaround : Turnaround
  switches : Nat
  log : List Event
deriving DecidableEq, Repr

def outlook (sim : Simulation) : Outlook where
  snapshot := sim.snapshot
  turnaround := sim.turnaround
  switches := sim.machine.scheduler.switches
  log := sim.log.toList

namespace Moment

/-- What a call shows: its answer and all that can be asked after it. -/
def shown (x : Moment) : Except Fault Answer × Outlook :=
  (x.response, x.after.outlook)

/-- The call has returned, no fork was refused in it and no replacement failed. -/
structure Unhindered (x : Moment) : Prop where
  returned : x.response.isOk
  forked : ∀ i ∈ x.instruction?, i.opcode = .fork → x.before.machine.table.allocate.isOk
  replaced : ∀ i ∈ x.instruction?, i.opcode = .replace →
    (x.before.loader.load x.request.files i.path).isOk

instance (x : Moment) : Decidable x.Unhindered :=
  decidable_of_iff
    (x.response.isOk ∧
      (∀ i ∈ x.instruction?, i.opcode = .fork → x.before.machine.table.allocate.isOk) ∧
      ∀ i ∈ x.instruction?, i.opcode = .replace →
        (x.before.loader.load x.request.files i.path).isOk)
    ⟨fun ⟨h, hfork, hreplace⟩ => ⟨h, hfork, hreplace⟩, fun h => ⟨h.1, h.2, h.3⟩⟩

end Moment

variable {sim : Simulation} {slot : Int} {b : ControlBlock} {files : FileView}
  {r : Room}

theorem unhindered_effectOf {i : Instruction}
    (hfork : i.opcode = .fork → sim.machine.table.allocate.isOk)
    (hreplace : i.opcode = .replace → (sim.loader.load files i.path).isOk) :
    (sim.effectOf files i).Unhindered := by
  unfold effectOf
  cases hop : i.opcode with
  | set | add | subtract | block | halt => trivial
  | fork =>
      have hfree := hfork hop
      cases hchild : sim.machine.table.allocate with
      | ok child => trivial
      | error fault =>
          rw [hchild] at hfree
          cases hfree
  | replace =>
      have hloaded := hreplace hop
      cases hp : sim.loader.load files i.path with
      | ok p => trivial
      | error fault =>
          rw [hp] at hloaded
          cases hloaded

/-- An effect that nothing is in the way of is the same with more room. -/
theorem effectAt_refit {i? : Option Instruction} (h : (sim.effectAt files i?).Unhindered)
    (hlimit : sim.loader.limit ≤ r.limit) :
    (sim.refit r).effectAt files i? = sim.effectAt files i? := by
  cases i? with
  | none => rfl
  | some i =>
      dsimp only [effectAt, effectOf] at h ⊢
      cases hop : i.opcode with
      | set | add | subtract | block | halt => rfl
      | fork =>
          rw [hop] at h
          cases hchild : sim.machine.table.allocate with
          | error fault =>
              rw [hchild] at h
              exact h.elim
          | ok child =>
              have hwidened : (sim.refit r).machine.table.allocate = .ok child :=
                ProcessTable.allocate_widened hchild r.slots
              rw [hwidened]
      | replace =>
          rw [hop] at h
          cases hload : sim.loader.load files i.path with
          | error fault =>
              rw [hload] at h
              cases fault with
              | load cause =>
                  dsimp only at h
                  split at h <;> exact h.elim
              | _ => exact h.elim
          | ok p =>
              have hrefit : (sim.refit r).loader.load files i.path = .ok p :=
                Loader.load_of_le hload hlimit
              rw [hrefit]

theorem affect_refit (hb : sim.machine.table.blockAt slot = some b) {e : Effect}
    (he : sim.machine.Admits e) : (sim.affect slot b e).refit r =
      (sim.refit r).affect slot b e := by
  have hmachine : (sim.machine.affect slot b sim.tick e).widened r.slots = _ :=
    Machine.affect_widened hb he sim.tick r.slots
  simp only [refit, affect, hmachine]

theorem numbersOf_refit (e : Effect) :
    (sim.refit r).numbersOf slot b e = sim.numbersOf slot b e := by
  cases e <;> rfl

theorem notesOf_refit (e : Effect) :
    (sim.refit r).notesOf slot b e = sim.notesOf slot b e := by
  cases e <;> rfl

theorem messageAt_refit (e : Effect) (i? : Option Instruction) :
    (sim.refit r).messageAt slot e i? = sim.messageAt slot e i? := by
  cases i? with
  | none => rfl
  | some i => cases e <;> rfl

theorem eventsAt_refit (e : Effect) (i? : Option Instruction) :
    (sim.refit r).eventsAt slot b e i? = sim.eventsAt slot b e i? := by
  rw [eventsAt, notesOf_refit, messageAt_refit]
  rfl

theorem turnReport_refit (e : Effect) (i? : Option Instruction) :
    (sim.refit r).turnReport slot b e i? = sim.turnReport slot b e i? := by
  rw [turnReport, messageAt_refit]
  rfl

theorem turnOutcome_refit {i? : Option Instruction} (hb : sim.machine.table.blockAt slot = some b)
    (h : (sim.effectAt files i?).Unhindered) (hlimit : sim.loader.limit ≤ r.limit) :
    (sim.refit r).turnOutcome files slot b i? =
      Action.mapResult (·.refit r) id (sim.turnOutcome files slot b i?) := by
  have hfault : (sim.effectAt files i?).fault? = none := by
    cases he : sim.effectAt files i? with
    | abort fault => exact (he ▸ h).elim
    | _ => rfl
  have haffect : (sim.affect slot b (sim.effectAt files i?)).refit r = _ :=
    affect_refit hb (admits_effectAt sim files i?)
  unfold turnOutcome
  dsimp only
  rw [effectAt_refit h hlimit, ← haffect, numbersOf_refit, notesOf_refit, eventsAt_refit,
    turnReport_refit]
  cases i? with
  | some i =>
      dsimp only
      rw [hfault]
      dsimp only
      rw [mapResult_checked, mapResult_checked]
      rfl
  | none =>
      dsimp only
      rw [mapResult_checked, mapResult_checked]
      rfl

/-- The slot that gets the CPU is one of the old ones. -/
theorem switchEvents_refit (hc : sim.machine.Coherent) :
    (sim.refit r).switchEvents = sim.switchEvents := by
  obtain ⟨hnext, _⟩ | ⟨slot, b, rest, hnext, _, _, hb, _, _⟩ := hc.afterDispatch_cases
  · have hstay : (sim.refit r).machine.next? = none := hnext
    simp only [switchEvents, hnext, hstay]
  · have hat : (sim.refit r).machine.table.blockAt slot = some b :=
      ProcessTable.blockAt_widened hb r.slots
    have hswitch : (sim.refit r).machine.next? = some slot := hnext
    rw [switchEvents_eq hnext hb, switchEvents_eq hswitch hat]
    rfl

theorem wakeEvents_refit (hc : sim.machine.Coherent) :
    (sim.refit r).wakeEvents = sim.wakeEvents := by
  obtain ⟨hblocked, _⟩ | ⟨slot, b, rest, hblocked, hb, _, _⟩ := hc.afterUnblock_cases
  · have hstay : (sim.refit r).machine.scheduler.blocked = [] := hblocked
    simp only [wakeEvents, hblocked, hstay]
  · have hat : (sim.refit r).machine.table.blockAt slot = some b :=
      ProcessTable.blockAt_widened hb r.slots
    have hwake : (sim.refit r).machine.scheduler.blocked = slot :: rest := hblocked
    rw [wakeEvents_eq hblocked hb, wakeEvents_eq hwake hat]
    rfl

theorem dispatched_refit (hc : sim.machine.Coherent) :
    sim.dispatched.refit r = (sim.refit r).dispatched := by
  have hmachine : sim.machine.afterDispatch.widened r.slots = _ :=
    hc.afterDispatch_widened r.slots
  simp only [refit, dispatched, hmachine]

theorem unblocked_refit (hc : sim.machine.Coherent) :
    sim.unblocked.refit r = (sim.refit r).unblocked := by
  have hmachine : sim.machine.afterUnblock.widened r.slots = _ :=
    hc.afterUnblock_widened r.slots
  simp only [refit, unblocked, hmachine]

theorem dispatchOutcome_refit {α : Type} (hc : sim.machine.Coherent) (a : α) :
    (sim.refit r).dispatchOutcome a = Action.mapResult (·.refit r) id (sim.dispatchOutcome a) := by
  unfold dispatchOutcome
  rw [mapResult_checked, switchEvents_refit hc, ← dispatched_refit hc]
  rfl

theorem turning_refit (sim : Simulation) (r : Room) :
    (sim.refit r).turning = sim.turning.refit r := by
  have hnext : (sim.refit r).next? = sim.next? := rfl
  rw [turning, turning, hnext]
  cases sim.next? <;> rfl

theorem stepOutcome_refit (hc : sim.machine.Coherent) (hlimit : sim.loader.limit ≤ r.limit)
    (h : sim.machine.scheduler.running.isSome → (sim.nextEffect files).Unhindered) :
    (sim.refit r).stepOutcome files = Action.mapResult (·.refit r) id (sim.stepOutcome files) := by
  have hrunning : (sim.refit r).machine.scheduler.running = sim.machine.scheduler.running := rfl
  have hnext : (sim.refit r).next? = sim.next? := rfl
  unfold stepOutcome
  rw [hrunning, hnext, ← hnext, ← turning, turning_refit, hnext, ← turning]
  cases hrun : sim.machine.scheduler.running with
  | none => rfl
  | some slot =>
      obtain ⟨b, hb, _⟩ := hc.exists_running hrun
      have hat : (sim.refit r).machine.table.blockAt slot = some b :=
        ProcessTable.blockAt_widened hb r.slots
      have hmid : sim.turning.machine.table.blockAt slot = some b := by rwa [table_turning]
      have hturn : (sim.turning.refit r).turnOutcome files slot b sim.next? = _ :=
        turnOutcome_refit hmid (h (by rw [hrun]; rfl)) (by rwa [loader_turning])
      dsimp only
      rw [hat, hb, Option.getD_some, hturn]
      cases hx : sim.turning.turnOutcome files slot b sim.next? with
      | error fault s => rfl
      | ok report s =>
          have hs := coherent_of_turnOutcome hc hrun hb hx
          have helapsed : s.elapsed.machine.Coherent := hs
          exact dispatchOutcome_refit helapsed report

theorem unblockOutcome_refit (hc : sim.machine.Coherent) :
    (sim.refit r).unblockOutcome = Action.mapResult (·.refit r) id sim.unblockOutcome := by
  have hlogged : (sim.unblocked.logged sim.wakeEvents).machine.Coherent :=
    Machine.coherent_afterUnblock hc
  have hblocked : (sim.refit r).machine.scheduler.blocked = sim.machine.scheduler.blocked := rfl
  unfold unblockOutcome
  dsimp only
  rw [mapResult_checked, ← dispatchOutcome_refit hlogged, hblocked, wakeEvents_refit hc,
    ← unblocked_refit hc]
  rfl

/-- The moment as it is with more room. -/
def Moment.refit (x : Moment) (r : Room) : Moment :=
  { x with before := x.before.refit r, after := x.after.refit r }

/-- What the report says of the instruction is so of the one that is carried out. -/
theorem Happened.unhindered {x : Moment} (hx : Happened sim x) (h : x.Unhindered)
    (hcall : x.request.call = .step) (hrun : sim.machine.scheduler.running.isSome) :
    (sim.nextEffect x.request.files).Unhindered := by
  cases hx with
  | stopped =>
      cases h.returned
  | unblocked | stuck => cases hcall
  | stepped hstep =>
      -- an instruction is reported as it was fetched, so its conditions can be read off the report
      cases hstep with
      | idle hidle =>
          rw [hidle] at hrun
          cases hrun
      | done _ _ hturn =>
          cases hturn with
          | done hnext hmid he hdone =>
              subst hnext hmid he
              cases hi : sim.next? with
              | none =>
                  rw [nextEffect, hi]
                  trivial
              | some i =>
                  rw [nextEffect, hi]
                  apply unhindered_effectOf
                  · intro hop
                    rw [table_turning]
                    exact h.forked i hi hop
                  · intro hop
                    rw [loader_turning]
                    exact h.replaced i hi hop

theorem happen_refit {q : Request} (hu : sim.Underway) (hu' : (sim.refit r).Underway)
    (hlimit : sim.loader.limit ≤ r.limit) (h : (sim.happen q).Unhindered) :
    (sim.refit r).happen q = (sim.happen q).refit r := by
  have houtcome : q.outcome (sim.refit r) =
      Action.mapResult (·.refit r) id (q.outcome sim) := by
    unfold Request.outcome
    cases hcall : q.call with
    | step =>
        have hstep : (sim.refit r).stepOutcome q.files = _ :=
          stepOutcome_refit hu.coherent hlimit ((happened hu q).unhindered h hcall)
        simp only [hstep, Action.mapResult_mapResult]
        rfl
    | unblock =>
        simp only [unblockOutcome_refit hu.coherent, Action.mapResult_mapResult]
        rfl
  rw [happen_eq hu, happen_eq hu', houtcome]
  cases q.outcome sim <;> rfl

theorem history_refit (hu : sim.Underway) (hu' : (sim.refit r).Underway)
    (hlimit : sim.loader.limit ≤ r.limit) (requests : List Request)
    (h : ∀ x ∈ history sim requests, x.Unhindered) :
    history (sim.refit r) requests = (history sim requests).map (·.refit r) := by
  induction requests generalizing sim with
  | nil => rfl
  | cons q rest ih =>
      rw [history, List.forall_mem_cons] at h
      have hfirst := happen_refit hu hu' hlimit h.1
      have hmoves := (happened hu q).moves
      have hafter : (sim.happen q).after.loader.limit ≤ r.limit :=
        hmoves.keeps (P := fun s => s.loader.limit ≤ r.limit)
          (fun hle hmove => hmove.fixed.2.2 ▸ hle) hlimit
      have hunderway := (happened hu' q).underway hu'
      rw [hfirst] at hunderway
      rw [history, history, hfirst, List.map_cons]
      exact congrArg _ (ih ((happened hu q).underway hu) hunderway hafter h.2)

/-- Nothing is seen of the slots that have come. -/
theorem snapshot_refit (sim : Simulation) (r : Room) : (sim.refit r).snapshot = sim.snapshot := by
  have hfree : ((List.replicate r.slots ({} : ControlBlock)).zipIdx
      (0 + sim.machine.table.slots.length)).filterMap
        (fun x => if x.1.isFree then none else some (viewBlock x.2 x.1)) = [] := by
    rw [List.filterMap_eq_nil_iff]
    intro x hmem
    have hblank : x.1 = {} := List.eq_of_mem_replicate (List.fst_mem_of_mem_zipIdx hmem)
    rw [hblank]
    rfl
  have hprocesses : (sim.refit r).snapshot.processes = sim.snapshot.processes := by
    change ((sim.machine.table.slots ++
      List.replicate r.slots ({} : ControlBlock)).zipIdx).filterMap _ = _
    rw [List.zipIdx_append, List.filterMap_append]
    exact (congrArg _ hfree).trans (List.append_nil _)
  exact congrArg (fun processes => { sim.snapshot with processes }) hprocesses

theorem outlook_refit (sim : Simulation) (r : Room) : (sim.refit r).outlook = sim.outlook := by
  rw [outlook, snapshot_refit]
  rfl

/-- Where the larger simulation starts. -/
theorem launched_refit {settings larger : Settings} (h : 1 ≤ settings.tableCapacity)
    (hcapacity : settings.tableCapacity ≤ larger.tableCapacity) (base : Path) (limit limit' : Int)
    (program : Program) :
    (launched settings { base, limit } program).refit
      ⟨larger, limit', larger.tableCapacity.toNat - settings.tableCapacity.toNat⟩ =
      launched larger { base, limit := limit' } program := by
  have hfree : { slots := List.replicate settings.tableCapacity.toNat {} : ProcessTable }.blockAt
      initSlot = some {} := blockAt_initSlot (by omega)
  have hslots : settings.tableCapacity.toNat +
      (larger.tableCapacity.toNat - settings.tableCapacity.toNat) =
      larger.tableCapacity.toNat := by omega
  have htable := ProcessTable.put_widened hfree (initBlock program)
    (larger.tableCapacity.toNat - settings.tableCapacity.toNat)
  have hwidened : { slots := List.replicate settings.tableCapacity.toNat {} :
      ProcessTable }.widened (larger.tableCapacity.toNat - settings.tableCapacity.toNat) =
      { slots := List.replicate larger.tableCapacity.toNat {} } := by
    simp only [ProcessTable.widened, List.replicate_append_replicate, hslots]
  rw [hwidened] at htable
  simp only [launched, logged, refit, Machine.widened, htable]
  rfl

/-- As long as no limit is hit, greater limits make no difference to anything that is shown,
and neither does what is done where a program cannot be replaced. -/
theorem shown_eq_of_launch {settings larger : Settings} (h : 1 ≤ settings.tableCapacity)
    (hcapacity : settings.tableCapacity ≤ larger.tableCapacity)
    (hlength : settings.maxProgramLength ≤ larger.maxProgramLength) (base : Path)
    (program : Program) : ∃ sim sim',
    launch settings { base, limit := settings.maxProgramLength } program = .ok sim ∧
    launch larger { base, limit := larger.maxProgramLength } program = .ok sim' ∧
    sim'.outlook = sim.outlook ∧
    ∀ requests, (∀ x ∈ history sim requests, x.Unhindered) →
      (history sim' requests).map Moment.shown = (history sim requests).map Moment.shown := by
  have hlarger : 1 ≤ larger.tableCapacity := h.trans hcapacity
  refine ⟨_, _, launch_eq h _ program, launch_eq hlarger _ program, ?_, ?_⟩
  all_goals rw [← launched_refit h hcapacity base settings.maxProgramLength]
  · exact outlook_refit _ _
  · intro requests hunhindered
    have hunderway' := underway_launched hlarger { base, limit := larger.maxProgramLength } program
    rw [← launched_refit h hcapacity base settings.maxProgramLength] at hunderway'
    rw [history_refit (underway_launched h _ program) hunderway' hlength requests hunhindered,
      List.map_map]
    apply List.map_congr_left
    intro x _
    exact congrArg (Prod.mk x.response) (outlook_refit x.after _)

/-- A process that forks and takes the program of the file `a`, and its child. -/
def headroomDemo : Program where
  instructions := [⟨.fork, 1, ""⟩, ⟨.halt, 0, ""⟩, ⟨.replace, 0, "a"⟩]

/-- Every file has one instruction, which ends the process. -/
def headroomDemoCalls : List Request :=
  [.step, .step, .step, .unblock, .step].map fun call => ⟨call, fun _ => .ok [69]⟩

theorem shown_eq_of_launch_tight :
    (1 : Int) ≤ 2 ∧ (2 : Int) ≤ 3 ∧ (1 : Int) ≤ 5 ∧
    ∃ sim sim', launch { tableCapacity := 2, maxProgramLength := 1 } { base := .here, limit := 1 }
        headroomDemo = .ok sim ∧
      launch { tableCapacity := 3, maxProgramLength := 5, revert := true }
        { base := .here, limit := 5 } headroomDemo = .ok sim' ∧
      (∀ x ∈ history sim headroomDemoCalls, x.Unhindered) ∧
      (history sim' headroomDemoCalls).map Moment.shown =
        (history sim headroomDemoCalls).map Moment.shown := by
  obtain ⟨sim, sim', hsim, hsim', _, hshown⟩ := shown_eq_of_launch
    (by decide : 1 ≤ Settings.tableCapacity { tableCapacity := 2, maxProgramLength := 1 })
    (by decide : (2 : Int) ≤
      Settings.tableCapacity { tableCapacity := 3, maxProgramLength := 5, revert := true })
    (by decide) .here headroomDemo
  have hunhindered : ∀ x ∈ history sim headroomDemoCalls, x.Unhindered := by
    obtain ⟨_, rfl⟩ := launch_eq_ok_iff.mp hsim
    decide +kernel
  exact ⟨by decide, by decide, by decide, sim, sim', hsim, hsim', hunhindered,
    hshown headroomDemoCalls hunhindered⟩

end Simulation
end Uniproc
