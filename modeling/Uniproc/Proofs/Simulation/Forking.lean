import Uniproc.Proofs.Simulation.Lineage
import Uniproc.Proofs.Simulation.Retaining

/-!
Forks. A fork is refused if there is no free slot, and then it leaves no trace but in the log;
or else the child is there, in the lowest free slot, and nothing has changed for anybody but its
parent, which skips.
-/

namespace Uniproc

namespace ProcessTable

/-- Every slot has a process. -/
def Full (t : ProcessTable) : Prop :=
  ∀ slot b, t.blockAt slot = some b → b.isFree = false

variable {t : ProcessTable}

theorem full_of_allocate_error {fault : Fault} (h : t.allocate = .error fault) : t.Full :=
  fun _ _ hb => (live_of_allocate_error h hb).2

theorem not_full_of_allocate {child : Nat} (h : t.allocate = .ok child) : ¬ t.Full := by
  obtain ⟨old, hold, hfree⟩ := blockAt_of_allocate h
  intro hfull
  cases hfree.symm.trans (hfull child old hold)

end ProcessTable

namespace Simulation

/-- What the child of the process with control block `b` starts with, when its parent has
fetched the fork. -/
def offspring (sim : Simulation) (b : ControlBlock) : ControlBlock where
  pid := sim.machine.table.nextPid
  parent := some b.pid
  program := b.program
  programCounter := sim.machine.cpu.programCounter + 1
  value := sim.machine.cpu.value
  priority := b.priority
  state := .ready
  startTime := sim.tick
  timeUsed := 0

namespace Moment

/-- The fork has only taken its time. -/
structure Refused (x : Moment) : Prop where
  returned : ∃ answer, x.response = .ok answer
  after_eq : x.after =
    { x.before with
      machine.cpu.programCounter := x.before.machine.cpu.programCounter + 1
      tick := x.before.tick + 1
      log := x.after.log }
  logged : ∃ events, events ≠ [] ∧ x.after.log.toList = x.before.log.toList ++ events

/-- The process with control block `b` has a child in the slot `place`, whose number nobody has
had, and skips `offset` instructions. -/
structure Forked (past : List Moment) (x : Moment) (b : ControlBlock) (offset place : Int) :
    Prop where
  free : ∃ old, x.before.machine.table.blockAt place = some old ∧ old.isFree = true
  lowest {other : Int} : 0 ≤ other → other < place → ∃ c, x.before.machine.table.Live other c
  slots (other : Int) : x.after.machine.table.blockAt other =
    if other = place then some (x.before.offspring b) else x.before.machine.table.blockAt other
  fresh {j : Identity} : j ∈ processes past → j.pid ≠ (x.before.offspring b).pid
  nextPid : x.after.machine.table.nextPid = x.before.machine.table.nextPid + 1
  scheduler : x.after.machine.scheduler =
    { x.before.machine.scheduler with ready := x.before.machine.scheduler.ready ++ [place] }
  cpu : x.after.machine.cpu =
    { x.before.machine.cpu with
      programCounter := max 0 (x.before.machine.cpu.programCounter + 1 + offset) }
  turnaround : x.after.turnaround = x.before.turnaround
  returned : Numeral.isWritable x.before.machine.table.nextPid = true →
    (∃ answer, x.response = .ok answer) ∧ x.after.tick = x.before.tick + 1

end Moment

variable {sim : Simulation} {files : FileView} {slot : Int} {b : ControlBlock} {i : Instruction}

theorem numbers_of_fork (hop : i.opcode = .fork) : i.numbers = [i.number] := by
  rw [Instruction.numbers, hop]
  rfl

theorem writable_announcement (hs : sim.books.Sound) (hc : sim.machine.Coherent)
    (ht : sim.tick < Numeral.writingBound) (h : sim.AboutTo slot b i)
    (hi : Writable i.numbers) : Writable ([(sim.tick : Int), slot] ++ i.numbers) := by
  have htick : Numeral.isWritable (sim.tick : Int) = true :=
    Numeral.isWritable_of_bounds (by omega) (by omega)
  have hslot := writable_live hs (live_running hc.toScheduled h.running h.block) ht
  exact writable_append.mpr ⟨writable_cons.mpr ⟨htick, writable_cons.mpr ⟨hslot, writable_nil⟩⟩, hi⟩

theorem refused_happen (hu : sim.Underway) (h : sim.AboutTo slot b i) (hop : i.opcode = .fork)
    (hw : Writable ([(sim.tick : Int), slot] ++ i.numbers)) {fault : Fault}
    (ha : sim.machine.table.allocate = .error fault) (files : FileView) :
    (sim.happen ⟨.step, files⟩).Refused := by
  have ha' : sim.fetched.machine.table.allocate = .error fault := ha
  have heffect : sim.fetched.effectOf files i = .refuse := by simp only [effectOf, hop, ha']
  have hretains : Retains sim files slot b i .refuse := ⟨h, hu, hw, heffect, h.running⟩
  rw [hretains.happen_of_told rfl writable_nil]
  refine ⟨⟨_, rfl⟩, rfl, _, ?_, toList_logged sim.fetched _⟩
  exact List.append_ne_nil_of_right_ne_nil _ (List.cons_ne_nil _ _)

theorem forked_of_machine {past : List Moment} {x : Moment} {offset : Int} {child : Nat}
    (hlineage : Lineage past x.before) (ha : x.before.machine.table.allocate = .ok child)
    (hmachine : x.after.machine =
      x.before.fetched.machine.afterFork child b offset x.before.tick)
    (hturnaround : x.after.turnaround = x.before.turnaround)
    (hreturned : Numeral.isWritable x.before.machine.table.nextPid = true →
      (∃ answer, x.response = .ok answer) ∧ x.after.tick = x.before.tick + 1) :
    x.Forked past b offset child := by
  obtain ⟨old, hold, hfree⟩ := ProcessTable.blockAt_of_allocate ha
  constructor
  case free => exact ⟨old, hold, hfree⟩
  case lowest =>
    intro other hpos hlt
    exact ProcessTable.live_of_lt_allocate ha hpos hlt
  case slots =>
    intro other
    rw [hmachine]
    exact Machine.blockAt_afterFork (m := x.before.fetched.machine) hold b offset x.before.tick
      other
  case fresh =>
    intro j hj hpid
    have hlt := (hlineage.pid_bounds hj).2
    rw [hpid] at hlt
    exact absurd hlt (Int.lt_irrefl _)
  case nextPid =>
    rw [hmachine]
    exact ProcessTable.nextPid_put _ _ _
  case scheduler =>
    rw [hmachine]
    rfl
  case cpu =>
    rw [hmachine]
    rfl
  case turnaround => exact hturnaround
  case returned => exact hreturned

theorem forked_happen {past : List Moment} (hu : sim.Underway) (h : sim.AboutTo slot b i)
    (hop : i.opcode = .fork) (hw : Writable ([(sim.tick : Int), slot] ++ i.numbers))
    (hlineage : Lineage past sim) {child : Nat} (ha : sim.machine.table.allocate = .ok child)
    (files : FileView) : (sim.happen ⟨.step, files⟩).Forked past b i.number child := by
  have ha' : sim.fetched.machine.table.allocate = .ok child := ha
  have heffect : sim.fetched.effectOf files i = .spawn child i.number := by
    simp only [effectOf, hop, ha']
  have hretains : Retains sim files slot b i (.spawn child i.number) :=
    ⟨h, hu, hw, heffect, h.running⟩
  obtain ⟨hheading, _⟩ := writable_append.mp hw
  simp only [writable_cons] at hheading
  obtain ⟨htick, hslot, _⟩ := hheading
  have htold : Writable (sim.fetched.numbersOf slot b (.spawn child i.number)) ↔
      Numeral.isWritable sim.machine.table.nextPid = true := by
    change Writable [(sim.tick : Int), sim.machine.table.nextPid, slot] ↔ _
    simp only [writable_cons, htick, hslot, writable_nil, true_and, and_true]
  by_cases hpid : Numeral.isWritable sim.machine.table.nextPid = true
  · rw [hretains.happen_of_told rfl (htold.mpr hpid)]
    exact forked_of_machine hlineage ha rfl rfl fun _ => ⟨⟨_, rfl⟩, rfl⟩
  · rw [hretains.happen_of_untold rfl (mt htold.mp hpid)]
    exact forked_of_machine hlineage ha rfl rfl fun hwritable => absurd hwritable hpid

section Launch

variable {settings : Settings} {loader : Loader} {program : Program}

/-- After any calls, as long as ticks can be written, a fork is refused if the table is full, and
makes a child if it is not. -/
theorem forked_of_launch (h : 1 ≤ settings.tableCapacity) (loader : Loader) (program : Program) :
    ∃ sim, launch settings loader program = .ok sim ∧
    ∀ {requests slot b i}, requests.length < Numeral.writingBound →
      (run sim requests).AboutTo slot b i → i.opcode = .fork →
      Numeral.isWritable i.number = true → ∀ files,
      ((run sim requests).machine.table.Full →
        ((run sim requests).happen ⟨.step, files⟩).Refused) ∧
      (¬ (run sim requests).machine.table.Full → ∃ place,
        ((run sim requests).happen ⟨.step, files⟩).Forked (history sim requests) b i.number
          place) := by
  have hlaunched := underway_launched h loader program
  have hsound := sound_launched h loader program
  refine ⟨_, launch_eq h loader program, ?_⟩
  intro requests slot b i hlength habout hop hnumber files
  have hzero : (launched settings loader program).tick = 0 := rfl
  have hentered : ∀ x ∈ history (launched settings loader program) requests, x.Entered :=
    entered_of_mem_history hlaunched hsound (.inr (by omega))
  have htick := tick_run_le hentered
  have hu := underway_run hlaunched requests
  have hlineage := (lineage_run hlaunched hsound.numbered (lineage_launched h loader program)
    requests).1
  have hwritable : Writable i.numbers := by
    rw [numbers_of_fork hop]
    exact writable_cons.mpr ⟨hnumber, writable_nil⟩
  have hw := writable_announcement (sound_run hentered hsound) hu.coherent (by omega) habout
    hwritable
  cases ha : (run (launched settings loader program) requests).machine.table.allocate with
  | error fault =>
      refine ⟨fun _ => refused_happen hu habout hop hw ha files, fun hnot => ?_⟩
      exact absurd (ProcessTable.full_of_allocate_error ha) hnot
  | ok child =>
      refine ⟨fun hfull => ?_, fun _ => ⟨child, forked_happen hu habout hop hw hlineage ha files⟩⟩
      exact absurd hfull (ProcessTable.not_full_of_allocate ha)

end Launch

/-- In a table of one slot there is no room for a child; in a larger one the slot of a child that
has ended is used again. -/
theorem forked_of_launch_refill :
    ((1 : Int) ≤ ({ tableCapacity := 1 } : Settings).tableCapacity ∧
      ([] : List Request).length < Numeral.writingBound ∧
      ∃ sim, launch { tableCapacity := 1 } {} refillDemo = .ok sim ∧
        (run sim []).AboutTo 0 (initBlock refillDemo) ⟨.fork, 1, ""⟩ ∧
        ∀ files, ((run sim []).happen ⟨.step, files⟩).Refused) ∧
    (1 : Int) ≤ ({} : Settings).tableCapacity ∧
      (refillDemoCalls.take 4).length < Numeral.writingBound ∧
      ∃ sim, launch {} {} refillDemo = .ok sim ∧
        (run sim (refillDemoCalls.take 4)).AboutTo 0
          { initBlock refillDemo with programCounter := 3 } ⟨.fork, 1, ""⟩ ∧
        ∀ files, ∃ place, ((run sim (refillDemoCalls.take 4)).happen ⟨.step, files⟩).Forked
          (history sim (refillDemoCalls.take 4))
          { initBlock refillDemo with programCounter := 3 } 1 place := by
  have hsmall : (1 : Int) ≤ ({ tableCapacity := 1 } : Settings).tableCapacity := by decide
  have hlarge : (1 : Int) ≤ ({} : Settings).tableCapacity := by decide
  have hnone : ([] : List Request).length < Numeral.writingBound :=
    Numeral.lt_writingBound (by decide)
  have hfour : (refillDemoCalls.take 4).length < Numeral.writingBound :=
    Numeral.lt_writingBound (by decide)
  have hone : Numeral.isWritable 1 = true := by decide +kernel
  constructor
  · obtain ⟨sim, hsim, hall⟩ := forked_of_launch hsmall {} refillDemo
    obtain rfl : launched { tableCapacity := 1 } {} refillDemo = sim :=
      Except.ok.inj ((launch_eq hsmall {} refillDemo).symm.trans hsim)
    have habout : (run (launched { tableCapacity := 1 } {} refillDemo) []).AboutTo 0
        (initBlock refillDemo) ⟨.fork, 1, ""⟩ := ⟨rfl, by decide +kernel, by decide +kernel⟩
    have hnoRoom : (run (launched { tableCapacity := 1 } {} refillDemo) []).machine.table.allocate =
        .error .noFreeSlot := by decide +kernel
    have hfull := ProcessTable.full_of_allocate_error hnoRoom
    exact ⟨hsmall, hnone, _, hsim, habout, fun files => (hall hnone habout rfl hone files).1 hfull⟩
  · obtain ⟨sim, hsim, hall⟩ := forked_of_launch hlarge {} refillDemo
    obtain rfl : launched {} {} refillDemo = sim :=
      Except.ok.inj ((launch_eq hlarge {} refillDemo).symm.trans hsim)
    have habout : (run (launched {} {} refillDemo) (refillDemoCalls.take 4)).AboutTo 0
        { initBlock refillDemo with programCounter := 3 } ⟨.fork, 1, ""⟩ :=
      ⟨by decide +kernel, by decide +kernel, by decide +kernel⟩
    have hroom : (run (launched {} {} refillDemo) (refillDemoCalls.take 4)).machine.table.allocate =
        .ok 1 := by decide +kernel
    have hnot := ProcessTable.not_full_of_allocate hroom
    exact ⟨hlarge, hfour, _, hsim, habout, fun files => (hall hfour habout rfl hone files).2 hnot⟩

end Simulation
end Uniproc
