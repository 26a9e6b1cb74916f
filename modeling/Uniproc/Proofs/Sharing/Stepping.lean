import Uniproc.Proofs.Sharing.Mirroring

/-!
A step over a heap of programs is seen as the same step over programs that are values. The copies
that a fork and a replacement make are not seen; what a replacement does to the running program in
place is seen as another program in the CPU and in the slot of the process.
-/

namespace Uniproc
namespace Sharing

open Uniproc.Action

namespace Machine

variable {base? : Option Machine} {m : Machine} {h : Heap}

/-- Programs are never taken away. -/
theorem Kept.with_heap (hm : m.Kept base?) (hheap : h.Separate)
    (hle : m.heap.programs.length ≤ h.programs.length) :
    ({ m with heap := h } : Machine).Kept base? where
  heap := hheap
  nodup := hm.nodup
  known hp := Nat.lt_of_lt_of_le (hm.known hp) hle
  loaded hp := Nat.lt_of_lt_of_le (hm.loaded hp) hle
  pid_lt := hm.pid_lt
  succeeds hbase :=
    { hm.succeeds hbase with
      programs_le := Nat.le_trans (hm.succeeds hbase).programs_le hle }

theorem Kept.added (hm : m.Kept base?) (instructions : List Instruction) :
    ({ m with heap := m.heap.added instructions } : Machine).Kept base? :=
  hm.with_heap (hm.heap.added instructions) (by rw [Heap.length_added]; exact Nat.le_succ _)

end Machine

namespace Simulation

/-- What an action on simulations over a heap comes to is seen as what the other one comes to. -/
abbrev Mirrors {α : Type} (base? : Option Machine) (sim : Simulation) (x : Action Simulation α)
    (y : Action Uniproc.Simulation α) : Prop :=
  Refines view (fun s => s.machine.Kept base?) sim x y

variable {base? : Option Machine} {sim : Simulation} {slot : Int} {α : Type}

theorem mirrors_onMachine {x : Action Machine α} {y : Action Uniproc.Machine α}
    (h : Machine.Mirrors base? sim.machine x y) :
    Mirrors base? sim (onMachine x) (Uniproc.Simulation.onMachine y) := by
  intro hm
  obtain ⟨heq, hkept⟩ := h hm
  have heq' : y sim.view.machine = mapResult Machine.view id (x sim.machine) := heq.symm
  simp only [onMachine, Uniproc.Simulation.onMachine, onPart, heq']
  cases hx : x sim.machine with
  | ok a m | error fault m =>
      rw [hx] at hkept
      exact ⟨rfl, hkept⟩

theorem mirrors_lookUp_bind {f : ControlBlock → Action Simulation α}
    {g : Uniproc.ControlBlock → Action Uniproc.Simulation α}
    (h : ∀ b, sim.machine.table.get slot = .ok b →
      Mirrors base? sim (f b) (g (b.view sim.machine.heap))) :
    Mirrors base? sim (onMachine (Machine.lookUp slot) >>= f)
      (Uniproc.Simulation.onMachine (Uniproc.Machine.lookUp slot) >>= g) := by
  intro hm
  cases hb : sim.machine.table.get slot with
  | error fault =>
      have hx : onMachine (Machine.lookUp slot) sim = .error fault sim := by
        simp only [onMachine, onPart, Machine.lookUp_of_error hb]
      have hy : Uniproc.Simulation.onMachine (Uniproc.Machine.lookUp slot) sim.view =
          .error fault sim.view := by
        simp only [Uniproc.Simulation.onMachine, onPart, view, Machine.lookUp_view_of_error hb]
      rw [bind_of_error hx, bind_of_error hy]
      exact ⟨rfl, hm⟩
  | ok b =>
      have hx : onMachine (Machine.lookUp slot) sim = .ok b sim :=
        onPart_of_ok (Machine.lookUp_of_ok hb)
      have hy : Uniproc.Simulation.onMachine (Uniproc.Machine.lookUp slot) sim.view =
          .ok (b.view sim.machine.heap) sim.view := onPart_of_ok (Machine.lookUp_view_of_ok hb)
      rw [bind_of_ok hx, bind_of_ok hy]
      exact h b hb hm

theorem mirrors_record (e : Event) :
    Mirrors base? sim (record e) (Uniproc.Simulation.record e) :=
  Refines.modify rfl fun hm => hm

theorem mirrors_note (level : Level) (source message : String) :
    Mirrors base? sim (note level source message) (Uniproc.Simulation.note level source message) :=
  Refines.get_bind (mirrors_record _)

theorem mirrors_noteSlot (level : Level) (source message : String) (slot : Int) :
    Mirrors base? sim (noteSlot level source message slot)
      (Uniproc.Simulation.noteSlot level source message slot) :=
  mirrors_lookUp_bind fun _ _ => Refines.get_bind (mirrors_record _)

theorem mirrors_requireBooted :
    Mirrors base? sim requireBooted Uniproc.Simulation.requireBooted :=
  Refines.get_bind (Refines.ite (fun _ => .ok) fun _ => .fail)

theorem mirrors_advanceClock :
    Mirrors base? sim advanceClock Uniproc.Simulation.advanceClock :=
  Refines.modify rfl fun hm => hm

theorem mirrors_setProgramCounter (n : Int) :
    Mirrors base? sim (setProgramCounter n) (Uniproc.Simulation.setProgramCounter n) :=
  Refines.modify rfl fun hm => hm.of_eq rfl rfl fun _ hp => hm.loaded hp

theorem mirrors_setValue (f : Int → Int) :
    Mirrors base? sim (setValue f) (Uniproc.Simulation.setValue f) :=
  Refines.modify rfl fun hm => hm.of_eq rfl rfl fun _ hp => hm.loaded hp

theorem mirrors_discardCpu :
    Mirrors base? sim (modifyMachine .discardCpu)
      (Uniproc.Simulation.modifyMachine .discardCpu) :=
  Refines.modify rfl fun hm => hm.of_eq rfl rfl fun _ hp => nomatch hp

theorem mirrors_dispatch : Mirrors base? sim dispatch Uniproc.Simulation.dispatch := by
  refine (mirrors_onMachine Machine.mirrors_dispatch).bind fun slot? _ _ => ?_
  cases slot? with
  | none => exact .ok
  | some slot =>
      refine (mirrors_onMachine Machine.mirrors_loadCpu).bind fun _ _ _ => ?_
      exact (Refines.write _).bind fun _ _ _ => mirrors_noteSlot _ _ _ _

theorem mirrors_finish : Mirrors base? sim (finish slot) (Uniproc.Simulation.finish slot) := by
  refine mirrors_lookUp_bind fun b _ => Refines.get_bind ?_
  refine Refines.bind (Refines.modify rfl fun hm => hm) fun _ _ _ => ?_
  refine (mirrors_onMachine Machine.mirrors_terminateRunning).bind fun _ _ _ => ?_
  refine mirrors_discardCpu.bind fun _ _ _ => ?_
  refine (Refines.write _).bind fun number _ _ => ?_
  refine (Refines.write _).bind fun pid _ _ => ?_
  exact (Refines.write _).bind fun turnaround _ _ => mirrors_noteSlot _ _ _ _

theorem onHeap_of_ok {z : Action Heap α} {a : α} {h : Heap} (hz : z sim.machine.heap = .ok a h) :
    onHeap z sim = .ok a { sim with machine.heap := h } := by
  simp only [onHeap, onMachine, Machine.onHeap, onPart, hz]

theorem view_added (hm : sim.machine.Separate) (instructions : List Instruction) :
    ({ sim with machine.heap := sim.machine.heap.added instructions } : Simulation).view =
      sim.view := by
  simp only [view, Machine.view_added hm]

/-- Nobody has a new program yet, so that it is not seen. -/
theorem mirrors_new_bind {β : Type} {z : Action Heap β} {b : β} {instructions : List Instruction}
    {f : β → Action Simulation α} {y : Action Uniproc.Simulation α}
    (hz : z sim.machine.heap = .ok b (sim.machine.heap.added instructions))
    (hrest : sim.machine.Kept base? →
      Mirrors base? { sim with machine.heap := sim.machine.heap.added instructions } (f b) y) :
    Mirrors base? sim (onHeap z >>= f) y :=
  .of_holds fun hm => Refines.bind_unseen (onHeap_of_ok hz) (view_added hm.toSeparate _)
    (fun _ => hm.added _) (hrest hm)

/-- A copy is made, which is not seen, and a new process gets it, which is seen as a process with
what the copied program holds. -/
theorem mirrors_spawn_copy (p : Reference) (new : ControlBlock)
    {f : PUnit → Action Simulation α} {g : PUnit → Action Uniproc.Simulation α}
    (hpid : new.pid < sim.machine.table.nextPid)
    (hlater : ∀ {base}, base? = some base → base.table.nextPid ≤ new.pid)
    (hrest : ∀ t, Mirrors base? t (f ⟨⟩) (g ⟨⟩)) :
    Mirrors base? sim
      (onHeap (Heap.copy p) >>= fun program =>
        onMachine (Machine.spawn slot { new with program }) >>= f)
      (Uniproc.Simulation.onMachine (Uniproc.Machine.spawn slot
        { new.view sim.machine.heap with program := sim.machine.heap.program p }) >>= g) := by
  refine mirrors_new_bind rfl fun hm => ?_
  let heap : Heap := sim.machine.heap.added (sim.machine.heap.program p).instructions
  let copied : Simulation := { sim with machine.heap := heap }
  let child : ControlBlock := { new with program := sim.machine.heap.programs.length }
  have hchild : child.view heap =
      { new.view sim.machine.heap with program := sim.machine.heap.program p } := by
    simp only [ControlBlock.view, child, heap, Heap.program_added_self]
  have hlength : heap.programs.length = sim.machine.heap.programs.length + 1 :=
    Heap.length_added _ _
  have hspawn : Machine.Mirrors base? copied.machine (Machine.spawn slot child)
      (Uniproc.Machine.spawn slot (child.view heap)) := by
    refine Machine.mirrors_spawn ?_ ?_ ?_ hpid fun hbase => ⟨?_, hlater hbase⟩
    · exact hlength ▸ Nat.lt_succ_self _
    · exact fun hmem => absurd (hm.known hmem) (Nat.lt_irrefl _)
    · exact fun hp => absurd (hm.loaded hp) (Nat.lt_irrefl _)
    · exact (hm.succeeds hbase).programs_le
  rw [hchild] at hspawn
  exact (mirrors_onMachine hspawn).bind fun _ t _ => hrest t

/-- The child's program is a new one, with what the parent's holds. -/
theorem mirrors_fork (slot offset : Int) :
    Mirrors base? sim (fork slot offset) (Uniproc.Simulation.fork slot offset) := by
  refine Refines.get_bind (mirrors_lookUp_bind fun parent _ => .of_holds fun hm => ?_)
  have hallocate : sim.view.machine.table.allocate = sim.machine.table.allocate :=
    ProcessTable.allocate_view _ _
  rw [hallocate]
  cases sim.machine.table.allocate with
  | error fault =>
      exact (mirrors_noteSlot _ _ _ _).bind fun _ _ _ => (Refines.write _).bind fun _ _ _ => .ok
  | ok child =>
      refine (mirrors_onMachine Machine.mirrors_drawPid).bind fun pid t ht => ?_
      obtain ⟨rfl, rfl⟩ : sim.machine.table.nextPid = pid ∧
          { sim with machine.table.nextPid := sim.machine.table.nextPid + 1 } = t := by
        cases ht
        exact ⟨rfl, rfl⟩
      refine mirrors_spawn_copy parent.program
        { pid := sim.machine.table.nextPid, parent := some parent.pid, program := parent.program
          programCounter := sim.machine.cpu.programCounter, value := sim.machine.cpu.value
          priority := parent.priority, startTime := sim.tick, state := .ready }
        (Int.lt_succ _) (fun hbase => (hm.succeeds hbase).nextPid_le) fun t => ?_
      refine (mirrors_onMachine Machine.mirrors_enqueue).bind fun _ _ _ => ?_
      refine (mirrors_setProgramCounter _).bind fun _ _ _ => ?_
      refine (Refines.write _).bind fun tick _ _ => (Refines.write _).bind fun number _ _ => ?_
      exact (Refines.write _).bind fun _ _ _ => .ok

/-- Setting the program that the CPU runs, if there is one, is seen as replacing it. -/
theorem mirrors_setProgram {program? : Option Reference} {z : Reference → Action Heap Unit}
    {value : Program} (hprogram : sim.machine.cpu.program = program?)
    (hz : ∀ p, program? = some p → sim.machine.heap.Separate →
      p < sim.machine.heap.programs.length →
      ∃ h, z p sim.machine.heap = .ok () h ∧ sim.machine.heap.Sets p value h) :
    Mirrors base? sim (onHeap (program?.forM z))
      (Uniproc.Simulation.modifyMachine (.replaceProgram value)) := by
  intro hm
  cases program? with
  | none =>
      have hview : sim.view.machine.replaceProgram value = sim.view.machine := by
        have hidle : ¬ sim.view.machine.cpu.isLoaded = true := by
          simp [view, Machine.view, Uniproc.Cpu.isLoaded, hprogram]
        rw [Uniproc.Machine.replaceProgram, if_neg hidle]
      refine ⟨?_, hm⟩
      change EStateM.Result.ok () sim.view =
        .ok () { sim.view with machine := sim.view.machine.replaceProgram value }
      rw [hview]
  | some p =>
      obtain ⟨h, hset, hsets⟩ := hz p rfl hm.heap (hm.loaded hprogram)
      have hx : onHeap ((some p).forM z) sim = .ok () { sim with machine.heap := h } :=
        onHeap_of_ok hset
      rw [hx]
      refine ⟨?_, hm.with_heap hsets.separate (Nat.le_of_eq hsets.length_eq.symm)⟩
      change EStateM.Result.ok () (view { sim with machine.heap := h }) =
        .ok () { sim.view with machine := sim.machine.view.replaceProgram value }
      rw [← Machine.view_of_sets hm.toSeparate hprogram hsets]
      rfl

/-- Before a replacement the program that the CPU runs is copied. What it holds can be brought back
from there when it has been emptied. -/
theorem mirrors_clear_bind {program? : Option Reference}
    (hprogram : sim.machine.cpu.program = program?)
    {f : Option Reference → PUnit → Action Simulation α} {g : PUnit → Action Uniproc.Simulation α}
    (hrest : ∀ previous? t, t.machine.cpu.program = program? →
      Mirrors base? t (onHeap (program?.forM fun p => previous?.forM (Heap.replaceWith p)))
        (Uniproc.Simulation.modifyMachine
          (.replaceProgram (sim.view.machine.cpu.program.getD {}))) →
      Mirrors base? t (f previous? ⟨⟩) (g ⟨⟩)) :
    Mirrors base? sim
      (onHeap (program?.mapM Heap.copy) >>= fun previous? =>
        onHeap (program?.forM Heap.clear) >>= f previous?)
      (Uniproc.Simulation.modifyMachine (.replaceProgram {}) >>= g) := by
  cases program? with
  | none =>
      refine Refines.bind_unseen (t := sim) (b := none) rfl rfl (fun hm => hm) ?_
      refine (mirrors_setProgram hprogram nofun).bind fun _ u hu => ?_
      obtain rfl : sim = u := by
        cases hu
        rfl
      exact hrest none sim hprogram (mirrors_setProgram hprogram nofun)
  | some p =>
      refine mirrors_new_bind rfl fun hm => ?_
      have hp : p < sim.machine.heap.programs.length := hm.loaded hprogram
      let copy : Reference := sim.machine.heap.programs.length
      let heap : Heap := sim.machine.heap.added (sim.machine.heap.program p).instructions
      let copied : Simulation := { sim with machine.heap := heap }
      have hlt : copy < heap.programs.length := by
        rw [Heap.length_added]
        exact Nat.lt_succ_self _
      obtain ⟨h, hclear, hsets⟩ := Heap.sets_clear (hm.heap.added _) (Nat.lt_trans hp hlt)
      have hheap : h.program copy = sim.machine.heap.program p :=
        (hsets.program_of_ne (Nat.ne_of_gt hp) hlt).trans (Heap.program_added_self _ _)
      have hcopied : copied.machine.cpu.program = some p := hprogram
      refine (mirrors_setProgram hcopied fun _ hq _ _ => ?_).bind fun _ u hu => ?_
      · cases hq
        exact ⟨h, hclear, hsets⟩
      obtain rfl : { copied with machine.heap := h } = u := by
        cases (onHeap_of_ok hclear).symm.trans hu
        rfl
      refine hrest (some copy) _ hprogram (mirrors_setProgram hprogram fun q hq hs hlt => ?_)
      cases hq
      have hprevious : sim.view.machine.cpu.program.getD {} = h.program copy := by
        rw [hheap]
        simp [view, Machine.view, hprogram]
      rw [hprevious]
      exact Heap.sets_replaceWith hs hlt copy

/-- The running program is replaced where it is. -/
theorem mirrors_replace (files : FileView) (slot : Int) (path : String) :
    Mirrors base? sim (replace files slot path) (Uniproc.Simulation.replace files slot path) := by
  refine Refines.get_bind (mirrors_clear_bind rfl fun previous? t hprogram hrestore => ?_)
  have hload : sim.view.loader.load files path = sim.loader.load files path := rfl
  rw [hload]
  cases sim.loader.load files path with
  | error fault =>
      cases fault with
      | load cause =>
          have hrest (u : Simulation) : Mirrors base? u
              (do
                noteSlot .error "loader" s!"Replace failed: {cause.message}" slot
                let heading ← Action.write (Uniproc.Simulation.heading sim.tick slot)
                return s!"{heading} failed to replace program: {cause.message}")
              (do
                Uniproc.Simulation.noteSlot .error "loader" s!"Replace failed: {cause.message}" slot
                let heading ← Action.write (Uniproc.Simulation.heading sim.tick slot)
                return s!"{heading} failed to replace program: {cause.message}") :=
            (mirrors_noteSlot _ _ _ _).bind fun _ _ _ => (Refines.write _).bind fun _ _ _ => .ok
          refine Refines.ite (fun _ => ?_) fun _ => ?_
          · exact hrestore.bind fun _ u _ => hrest u
          · exact (mirrors_setProgramCounter _).bind fun _ u _ => hrest u
      | _ => exact .fail
  | ok loaded =>
      let made : Simulation :=
        { t with machine.heap := t.machine.heap.added loaded.instructions }
      have hmade : made.machine.cpu.program = sim.machine.cpu.program := hprogram
      refine mirrors_new_bind rfl fun _ => ?_
      refine (mirrors_setProgram hmade fun p _ hs hp => ?_).bind fun _ _ _ => ?_
      · have hsets := Heap.sets_replaceWith hs hp t.machine.heap.programs.length
        rwa [Heap.program_added_self] at hsets
      refine (mirrors_setProgramCounter _).bind fun _ _ _ => ?_
      exact (Refines.write _).bind fun _ _ _ => .ok

theorem mirrors_carryOut (files : FileView) (slot : Int) (i : Instruction) (plain : String) :
    Mirrors base? sim (carryOut files slot i plain)
      (Uniproc.Simulation.carryOut files slot i plain) := by
  unfold carryOut Uniproc.Simulation.carryOut
  cases i.opcode with
  | set | add | subtract => exact (mirrors_setValue _).bind fun _ _ _ => .ok
  | block =>
      refine Refines.get_bind ?_
      refine (mirrors_onMachine (Machine.mirrors_blockRunning _ _)).bind fun _ _ _ => ?_
      exact mirrors_discardCpu.bind fun _ _ _ => .ok
  | halt => exact mirrors_finish.bind fun _ _ _ => .ok
  | fork => exact mirrors_fork slot i.number
  | replace => exact mirrors_replace files slot i.path

theorem mirrors_execute (files : FileView) (slot : Int) (i : Instruction) :
    Mirrors base? sim (execute files slot i) (Uniproc.Simulation.execute files slot i) := by
  refine Refines.get_bind ((Refines.write _).bind fun heading _ _ => ?_)
  refine (Refines.write _).bind fun text _ _ => ?_
  refine (mirrors_carryOut files slot i _).bind fun message _ _ => ?_
  exact (mirrors_noteSlot _ _ _ _).bind fun _ _ _ => .ok

theorem mirrors_runSlot (files : FileView) (slot : Int) :
    Mirrors base? sim (runSlot files slot) (Uniproc.Simulation.runSlot files slot) := by
  refine Refines.get_bind (mirrors_lookUp_bind fun b _ => ?_)
  refine (Refines.ofExcept sim.fetch).bind fun i? _ _ => ?_
  cases i? with
  | some i =>
      refine (mirrors_setProgramCounter _).bind fun _ _ _ => ?_
      exact (mirrors_execute files slot i).bind fun _ _ _ => .ok
  | none =>
      refine mirrors_finish.bind fun _ _ _ => (Refines.write _).bind fun heading _ _ => ?_
      exact (mirrors_noteSlot _ _ _ _).bind fun _ _ _ => .ok

theorem mirrors_idle : Mirrors base? sim idle Uniproc.Simulation.idle := by
  refine Refines.get_bind ((mirrors_note _ _ _).bind fun _ _ _ => ?_)
  exact mirrors_advanceClock.bind fun _ _ _ => .ok

theorem mirrors_step (files : FileView) :
    Mirrors base? sim (step files) (Uniproc.Simulation.step files) := by
  refine mirrors_requireBooted.bind fun _ t _ => Refines.get_bind ?_
  have hscheduler : t.view.machine.scheduler = t.machine.scheduler := rfl
  rw [hscheduler]
  cases t.machine.scheduler.running with
  | none => exact mirrors_idle
  | some slot =>
      refine (mirrors_runSlot files slot).bind fun report _ _ => ?_
      exact mirrors_advanceClock.bind fun _ _ _ => mirrors_dispatch.bind fun _ _ _ => .ok

theorem mirrors_unblock : Mirrors base? sim unblock Uniproc.Simulation.unblock := by
  refine mirrors_requireBooted.bind fun _ _ _ => ?_
  refine (mirrors_onMachine Machine.mirrors_unblock).bind fun slot? _ _ => ?_
  cases slot? with
  | none => exact mirrors_dispatch.bind fun _ _ _ => .ok
  | some slot =>
      refine (Refines.write _).bind fun _ _ _ => ?_
      refine (mirrors_noteSlot _ _ _ _).bind fun _ _ _ => ?_
      exact mirrors_dispatch.bind fun _ _ _ => .ok

/-- The first process gets a program that nobody refers to. -/
theorem mirrors_boot {p : Reference} (hknown : p < sim.machine.heap.programs.length)
    (hfresh : p ∉ sim.machine.table.programs) (hcpu : sim.machine.cpu.program ≠ some p)
    (hpid : initPid < sim.machine.table.nextPid) :
    Mirrors none sim (boot p) (Uniproc.Simulation.boot (sim.machine.heap.program p)) := by
  have hspawn : Machine.Mirrors none sim.machine
      (Machine.spawn initSlot
        { pid := initPid, program := p, startTime := sim.tick, state := .running })
      (Uniproc.Machine.spawn initSlot
        { pid := initPid, program := sim.machine.heap.program p, startTime := sim.tick
          state := .running }) :=
    Machine.mirrors_spawn hknown hfresh hcpu hpid nofun
  refine Refines.get_bind (Refines.ite (fun _ => .fail) fun _ => ?_)
  refine Refines.get_bind ((mirrors_onMachine ?_).bind fun _ _ _ => ?_)
  · exact hspawn.bind fun _ _ _ =>
      Machine.mirrors_start.bind fun _ _ _ => Machine.mirrors_loadCpu
  · exact Refines.bind (Refines.modify rfl fun hm => hm) fun _ _ _ => mirrors_noteSlot _ _ _ _

end Simulation
end Sharing
end Uniproc
