import Mathlib.Data.List.Basic
import Uniproc.Proofs.Action
import Uniproc.Proofs.Machine.Table

/-!
What each operation of the machine gives where nothing is in its way. The state after an
operation is a function of the one before; the operations that the scheduler does in two
moves, such as putting a child into its slot and into the ready queue, are one here.
-/

namespace Uniproc
namespace Machine

/-- The process in `slot` has blocked. -/
def afterBlock (m : Machine) (slot : Int) (b : ControlBlock) : Machine where
  table := m.table.put slot
    { b with
      state := .blocked
      programCounter := m.cpu.programCounter
      value := m.cpu.value }
  scheduler :=
    { m.scheduler with blocked := m.scheduler.blocked ++ [slot], running := none }
  cpu := .discarded

/-- The process in `slot` has ended. -/
def afterEnd (m : Machine) (slot : Int) (b : ControlBlock) : Machine where
  table := m.table.put slot { b with state := .terminated }
  scheduler := { m.scheduler with running := none }
  cpu := .discarded

/-- The child that the running process makes: it goes on where its parent stands. -/
def newborn (m : Machine) (parent : ControlBlock) (tick : Nat) : ControlBlock where
  pid := m.table.nextPid
  parent := some parent.pid
  program := parent.program
  programCounter := m.cpu.programCounter
  value := m.cpu.value
  priority := parent.priority
  startTime := tick
  state := .ready

/-- A child is in slot `child`, and its parent has skipped `offset` instructions. -/
def afterFork (m : Machine) (child : Int) (parent : ControlBlock) (offset : Int) (tick : Nat) :
    Machine where
  table :=
    { m.table with nextPid := m.table.nextPid + 1 }.put child (m.newborn parent tick)
  scheduler := { m.scheduler with ready := m.scheduler.ready ++ [child] }
  cpu := { m.cpu with programCounter := max 0 (m.cpu.programCounter + offset) }

/-- The process in `slot` has another program. -/
def afterReplace (m : Machine) (slot : Int) (b : ControlBlock) (p : Program) : Machine :=
  { m with
    table := m.table.put slot { b with program := p }
    cpu.program := some p }

def withCounter (m : Machine) (n : Int) : Machine :=
  { m with cpu.programCounter := n }

def withValue (m : Machine) (v : Int) : Machine :=
  { m with cpu.value := v }

/-- The process in `slot`, which was at the front of the ready queue, has the CPU. -/
def afterSwitch (m : Machine) (slot : Int) (b : ControlBlock) (rest : List Int) : Machine where
  table := m.table.put slot { b with state := .running }
  scheduler :=
    { m.scheduler with
      running := some slot
      ready := rest
      switches := m.scheduler.switches + 1 }
  cpu := .ofBlock { b with state := .running } (some slot.toNat)

/-- The slot that gets the CPU if the CPU is given away. -/
def next? (m : Machine) : Option Int :=
  match m.scheduler.running, m.scheduler.ready with
  | none, slot :: _ => some slot
  | _, _ => none

/-- An idle CPU has been given to the front of the ready queue. -/
def afterDispatch (m : Machine) : Machine :=
  match m.scheduler.running, m.scheduler.ready with
  | none, slot :: rest =>
    match m.table.blockAt slot with
    | some b => m.afterSwitch slot b rest
    | none => m
  | _, _ => m

/-- The process in `slot`, which was at the front of the blocked queue, is ready. -/
def afterWake (m : Machine) (slot : Int) (b : ControlBlock) (rest : List Int) : Machine :=
  { m with
    table := m.table.put slot { b with state := .ready }
    scheduler.blocked := rest
    scheduler.ready := m.scheduler.ready ++ [slot] }

/-- The front of the blocked queue is at the end of the ready queue. -/
def afterUnblock (m : Machine) : Machine :=
  match m.scheduler.blocked with
  | slot :: rest =>
    match m.table.blockAt slot with
    | some b => m.afterWake slot b rest
    | none => m
  | [] => m

variable {m : Machine} {slot : Int} {b : ControlBlock}

theorem blockAt_afterBlock (hb : m.table.blockAt slot = some b) (other : Int) :
    (m.afterBlock slot b).table.blockAt other =
      if other = slot then
        some
          { b with
            state := .blocked
            programCounter := m.cpu.programCounter
            value := m.cpu.value }
      else m.table.blockAt other :=
  ProcessTable.blockAt_put hb _ other

theorem blockAt_afterEnd (hb : m.table.blockAt slot = some b) (other : Int) :
    (m.afterEnd slot b).table.blockAt other =
      if other = slot then some { b with state := .terminated } else m.table.blockAt other :=
  ProcessTable.blockAt_put hb _ other

theorem blockAt_afterFork {child : Int} {old : ControlBlock}
    (hold : m.table.blockAt child = some old) (parent : ControlBlock) (offset : Int) (tick : Nat)
    (other : Int) :
    (m.afterFork child parent offset tick).table.blockAt other =
      if other = child then some (m.newborn parent tick) else m.table.blockAt other :=
  ProcessTable.blockAt_put (t := { m.table with nextPid := m.table.nextPid + 1 }) hold _ other

theorem blockAt_afterReplace (hb : m.table.blockAt slot = some b) (p : Program) (other : Int) :
    (m.afterReplace slot b p).table.blockAt other =
      if other = slot then some { b with program := p } else m.table.blockAt other :=
  ProcessTable.blockAt_put hb _ other

theorem blockAt_afterSwitch (hb : m.table.blockAt slot = some b) (rest : List Int)
    (other : Int) :
    (m.afterSwitch slot b rest).table.blockAt other =
      if other = slot then some { b with state := .running } else m.table.blockAt other :=
  ProcessTable.blockAt_put hb _ other

theorem blockAt_afterWake (hb : m.table.blockAt slot = some b) (rest : List Int)
    (other : Int) :
    (m.afterWake slot b rest).table.blockAt other =
      if other = slot then some { b with state := .ready } else m.table.blockAt other :=
  ProcessTable.blockAt_put hb _ other

theorem blockAt_afterWake_self (hb : m.table.blockAt slot = some b) (rest : List Int) :
    (m.afterWake slot b rest).table.blockAt slot = some { b with state := .ready } :=
  (blockAt_afterWake hb rest slot).trans (if_pos rfl)

theorem lookUp_eq (h : m.table.blockAt slot = some b) : lookUp slot m = .ok b m := by
  change Action.ofExcept (m.table.get slot) m = _
  rw [ProcessTable.get_of_blockAt h]
  rfl

theorem update_eq {f : ControlBlock → Except Fault ControlBlock} {b' : ControlBlock}
    (h : m.table.blockAt slot = some b) (hf : f b = .ok b') :
    update slot f m = .ok () { m with table := m.table.put slot b' } := by
  unfold update
  rw [Action.bind_of_ok (lookUp_eq h), hf]
  rfl

theorem move_eq {t : Transition} (h : b.state = t.source) :
    b.move t = .ok { b with state := t.target } := by
  rw [ControlBlock.move, if_pos h]

theorem requireRunning_eq (h : m.scheduler.running = some slot) :
    requireRunning m = .ok slot m := by
  simp only [requireRunning, Action.bind_get, h]
  rfl

theorem blockRunning_eq (hrun : m.scheduler.running = some slot)
    (hb : m.table.blockAt slot = some b) (hstate : b.state = .running) (pc value : Int) :
    blockRunning pc value m = .ok slot
      { m with
        table := m.table.put slot { b with state := .blocked, programCounter := pc, value }
        scheduler :=
          { m.scheduler with blocked := m.scheduler.blocked ++ [slot], running := none } } := by
  have hblock : b.block pc value =
      .ok { b with state := .blocked, programCounter := pc, value } := by
    rw [ControlBlock.block, move_eq (t := .block) hstate]
    rfl
  unfold blockRunning
  rw [Action.bind_of_ok (requireRunning_eq hrun), Action.bind_of_ok (update_eq hb hblock)]
  rfl

theorem terminateRunning_eq (hrun : m.scheduler.running = some slot)
    (hb : m.table.blockAt slot = some b) (hstate : b.state = .running) :
    terminateRunning m = .ok slot
      { m with
        table := m.table.put slot { b with state := .terminated }
        scheduler := { m.scheduler with running := none } } := by
  unfold terminateRunning
  rw [Action.bind_of_ok (requireRunning_eq hrun),
    Action.bind_of_ok (update_eq hb (move_eq (t := .terminate) hstate))]
  rfl

theorem spawn_eq (hb : m.table.blockAt slot = some b) (hfree : b.isFree = true)
    (hhome : m.cpu.home ≠ some slot.toNat) (new : ControlBlock) :
    spawn slot new m = .ok () { m with table := m.table.put slot { new with timeUsed := 0 } } := by
  have hspawn : b.spawn new = .ok { new with timeUsed := 0 } := by
    rw [ControlBlock.spawn, if_pos hfree]
  have hindex : (m.table.put slot { new with timeUsed := 0 }).index? slot = some slot.toNat := by
    rw [ProcessTable.index?, ProcessTable.capacity_put]
    exact ProcessTable.index?_of_blockAt hb
  unfold spawn
  rw [Action.bind_of_ok (update_eq hb hspawn)]
  change EStateM.Result.ok () (if m.cpu.home = _ then _ else _) = _
  rw [if_neg (by rwa [hindex])]

theorem start_eq (hidle : m.scheduler.running = none) (hb : m.table.blockAt slot = some b)
    (hstate : b.state = .running) :
    start slot m = .ok () { m with scheduler.running := some slot } := by
  unfold start
  rw [Action.bind_get]
  simp only [hidle]
  rw [Action.bind_of_ok (lookUp_eq hb), if_neg (fun h => h hstate)]
  rfl

theorem enqueue_eq (hb : m.table.blockAt slot = some b) (hstate : b.state = .ready)
    (hnew : slot ∉ m.scheduler.ready) :
    enqueue slot m = .ok ()
      { m with scheduler := { m.scheduler with ready := m.scheduler.ready ++ [slot] } } := by
  unfold enqueue
  rw [Action.bind_of_ok (lookUp_eq hb), if_neg (fun h => h hstate)]
  change (if slot ∈ m.scheduler.ready then _ else _ : Action Machine Unit) m = _
  rw [if_neg hnew]
  rfl

theorem loadCpu_eq (hb : m.table.blockAt slot = some b) :
    loadCpu slot m = .ok () { m with cpu := .ofBlock b (some slot.toNat) } := by
  unfold loadCpu
  rw [Action.bind_of_ok (lookUp_eq hb), ← ProcessTable.index?_of_blockAt hb]
  rfl

theorem dispatch_switch {rest : List Int} (hidle : m.scheduler.running = none)
    (hready : m.scheduler.ready = slot :: rest) (hb : m.table.blockAt slot = some b)
    (hstate : b.state = .ready) :
    dispatch m = .ok (some slot) { m.afterSwitch slot b rest with cpu := m.cpu } := by
  change (match m.scheduler.running, m.scheduler.ready with
    | none, slot :: rest => _
    | _, _ => _ : Action Machine (Option Int)) m = _
  rw [hidle, hready]
  have hupdate := update_eq (m := { m with scheduler.ready := rest }) hb
    (move_eq (t := .dispatch) hstate)
  change ((update slot (·.move .dispatch)) >>= _ : Action Machine (Option Int))
    { m with scheduler.ready := rest } = _
  rw [Action.bind_of_ok hupdate]
  rfl

theorem next?_eq_none_iff :
    m.next? = none ↔ m.scheduler.running.isSome ∨ m.scheduler.ready = [] := by
  unfold next?
  cases m.scheduler.running <;> cases m.scheduler.ready <;> simp

theorem afterDispatch_of_stay (h : m.next? = none) : m.afterDispatch = m := by
  unfold next? at h
  unfold afterDispatch
  cases hrun : m.scheduler.running with
  | some _ => rfl
  | none =>
      cases hready : m.scheduler.ready with
      | nil => rfl
      | cons slot rest =>
          rw [hrun, hready] at h
          cases h

theorem dispatch_stay (h : m.next? = none) : dispatch m = .ok none m := by
  rw [next?_eq_none_iff] at h
  change (match m.scheduler.running, m.scheduler.ready with
    | none, slot :: rest => _
    | _, _ => _ : Action Machine (Option Int)) m = _
  rcases h with h | h
  · obtain ⟨slot, hrun⟩ := Option.isSome_iff_exists.mp h
    rw [hrun]
    rfl
  · rw [h]
    cases m.scheduler.running <;> rfl

theorem unblock_wake {rest : List Int} (hblocked : m.scheduler.blocked = slot :: rest)
    (hb : m.table.blockAt slot = some b) (hstate : b.state = .blocked) :
    unblock m = .ok (some slot) (m.afterWake slot b rest) := by
  unfold unblock
  rw [Action.bind_get]
  simp only [hblocked]
  have hupdate := update_eq (m := { m with scheduler.blocked := rest }) hb
    (move_eq (t := .unblock) hstate)
  change ((update slot (·.move .unblock)) >>= _ : Action Machine (Option Int))
    { m with scheduler.blocked := rest } = _
  rw [Action.bind_of_ok hupdate]
  rfl

theorem unblock_stay (h : m.scheduler.blocked = []) : unblock m = .ok none m := by
  simp only [unblock, Action.bind_get, h]
  rfl

/-- The CPU's program is changed in the slot it came from too. -/
theorem replaceProgram_eq (hb : m.table.blockAt slot = some b)
    (hprogram : m.cpu.program = some b.program) (hhome : m.cpu.home = some slot.toNat)
    (p : Program) : m.replaceProgram p = m.afterReplace slot b p := by
  have hloaded : m.cpu.isLoaded = true := by rw [Cpu.isLoaded, hprogram]; rfl
  have hmodify : m.table.slots.modify slot.toNat ({ · with program := p }) =
      m.table.slots.set slot.toNat { b with program := p } := by
    rw [List.modify_eq_set_getElem?, ProcessTable.getElem?_of_blockAt hb]
    rfl
  have hput : { m.table with slots := m.table.slots.set slot.toNat { b with program := p } } =
      m.table.put slot { b with program := p } := by
    simp only [ProcessTable.put, ProcessTable.index?_of_blockAt hb]
  simp only [replaceProgram, hloaded, if_true, hhome, hmodify, hput, afterReplace]

/-- The second of two replacements is the one that counts. -/
theorem replaceProgram_afterReplace (hb : m.table.blockAt slot = some b)
    (hhome : m.cpu.home = some slot.toNat) (p q : Program) :
    (m.afterReplace slot b p).replaceProgram q = m.afterReplace slot b q := by
  have hp : (m.afterReplace slot b p).table.blockAt slot = some { b with program := p } := by
    rw [blockAt_afterReplace hb, if_pos rfl]
  rw [replaceProgram_eq hp rfl hhome]
  simp only [afterReplace, ProcessTable.put_put hb]

theorem afterReplace_self (hb : m.table.blockAt slot = some b)
    (hprogram : m.cpu.program = some b.program) : m.afterReplace slot b b.program = m := by
  simp only [afterReplace, ProcessTable.put_self hb, ← hprogram]

end Machine
end Uniproc
