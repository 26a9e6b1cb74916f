import Uniproc.Proofs.Sharing.Heap
import Uniproc.Simulation.Step
import Uniproc.Sharing.Simulation

/-!
What is seen of programs in a heap: at each place that refers to a program, what the program holds.
A machine is separate if no two of its slots refer to one program and no two programs have one
list; then a change of the running program is seen in its own slot and in the CPU alone.
-/

namespace Uniproc
namespace Sharing

def ControlBlock.view (h : Heap) (b : ControlBlock) : Uniproc.ControlBlock where
  pid := b.pid
  parent := b.parent
  program := h.program b.program
  programCounter := b.programCounter
  value := b.value
  priority := b.priority
  state := b.state
  startTime := b.startTime
  timeUsed := b.timeUsed

/-- The programs that the slots refer to. -/
def ProcessTable.programs (t : ProcessTable) : List Reference :=
  t.slots.map (·.program)

def ProcessTable.view (h : Heap) (t : ProcessTable) : Uniproc.ProcessTable where
  slots := t.slots.map (·.view h)
  nextPid := t.nextPid

namespace Machine

/-- The slot that refers to the program which the CPU runs. -/
def home (m : Machine) : Option Nat :=
  m.cpu.program.bind fun p => m.table.programs.idxOf? p

def view (m : Machine) : Uniproc.Machine where
  table := m.table.view m.heap
  scheduler := m.scheduler
  cpu :=
    { program := m.cpu.program.map m.heap.program
      programCounter := m.cpu.programCounter
      value := m.cpu.value
      home := m.home }

/-- No program is shared, and there is none outside the heap. -/
structure Separate (m : Machine) : Prop where
  heap : m.heap.Separate
  nodup : m.table.programs.Nodup
  known {p : Reference} : p ∈ m.table.programs → p < m.heap.programs.length
  loaded {p : Reference} : m.cpu.program = some p → p < m.heap.programs.length

/-- A later state: a slot has kept its process and its program, or has got a new process with a
new program. -/
structure Succeeds (m base : Machine) : Prop where
  programs_le : base.heap.programs.length ≤ m.heap.programs.length
  nextPid_le : base.table.nextPid ≤ m.table.nextPid
  slots {i : Nat} {b : ControlBlock} : m.table.slots[i]? = some b →
    ∃ old, base.table.slots[i]? = some old ∧
      (b.program = old.program ∧ b.pid = old.pid ∨
        base.heap.programs.length ≤ b.program ∧ base.table.nextPid ≤ b.pid)

end Machine

def Simulation.view (sim : Simulation) : Uniproc.Simulation where
  settings := sim.settings
  loader := sim.loader
  machine := sim.machine.view
  log := sim.log
  turnaround := sim.turnaround
  tick := sim.tick
  booted := sim.booted

namespace ProcessTable

variable {t : ProcessTable} {slot : Int} {b c : ControlBlock} {h h' : Heap}

theorem index?_view (h : Heap) (t : ProcessTable) (slot : Int) :
    (t.view h).index? slot = t.index? slot := by
  rw [Uniproc.ProcessTable.index?, index?, Uniproc.ProcessTable.capacity, view, List.length_map]

theorem get_view (h : Heap) (t : ProcessTable) (slot : Int) :
    (t.view h).get slot = (t.get slot).map (·.view h) := by
  rw [Uniproc.ProcessTable.get, index?_view, get]
  cases t.index? slot with
  | none => rfl
  | some i =>
      rw [Option.bind_some, Option.bind_some, view, List.getElem?_map]
      cases t.slots[i]? <;> rfl

theorem allocate_view (h : Heap) (t : ProcessTable) : (t.view h).allocate = t.allocate := by
  have hfind : (t.view h).slots.findIdx? Uniproc.ControlBlock.isFree =
      t.slots.findIdx? ControlBlock.isFree := by
    rw [view, List.findIdx?_map]
    rfl
  unfold Uniproc.ProcessTable.allocate allocate
  cases hfree : t.slots.findIdx? ControlBlock.isFree with
  | none => simp only [hfind, hfree]
  | some i => simp only [hfind, hfree]

theorem view_put (h : Heap) (t : ProcessTable) (slot : Int) (b : ControlBlock) :
    (t.put slot b).view h = (t.view h).put slot (b.view h) := by
  rw [Uniproc.ProcessTable.put, index?_view, put]
  cases t.index? slot with
  | none => rfl
  | some i =>
      rw [view, view, List.map_set]

/-- A heap in which the programs of all slots hold the same is seen as the same table. -/
theorem view_congr (hprograms : ∀ p ∈ t.programs, h'.program p = h.program p) :
    t.view h' = t.view h := by
  have hslots : t.slots.map (·.view h') = t.slots.map (·.view h) := by
    refine List.map_congr_left fun b hb => ?_
    rw [ControlBlock.view, ControlBlock.view, hprograms _ (List.mem_map_of_mem hb)]
  rw [view, view, hslots]

theorem exists_index_of_get (hb : t.get slot = .ok b) :
    ∃ i, t.index? slot = some i ∧ t.slots[i]? = some b := by
  unfold get at hb
  cases hindex : t.index? slot with
  | none =>
      rw [hindex] at hb
      cases hb
  | some i =>
      rw [hindex, Option.bind_some] at hb
      cases hslot : t.slots[i]? with
      | none =>
          rw [hslot] at hb
          cases hb
      | some c =>
          rw [hslot] at hb
          cases hb
          exact ⟨i, rfl, hslot⟩

theorem put_of_index? {i : Nat} (hi : t.index? slot = some i) (b : ControlBlock) :
    t.put slot b = { t with slots := t.slots.set i b } := by
  rw [put, hi]

theorem index?_put (t : ProcessTable) (slot : Int) (b : ControlBlock) (other : Int) :
    (t.put slot b).index? other = t.index? other := by
  unfold put
  split
  · rw [index?, index?, List.length_set]
  · rfl

theorem getElem?_programs {i : Nat} (hb : t.slots[i]? = some b) :
    t.programs[i]? = some b.program := by
  rw [programs, List.getElem?_map, hb, Option.map_some]

theorem programs_put {i : Nat} (hi : t.index? slot = some i) (c : ControlBlock) :
    (t.put slot c).programs = t.programs.set i c.program := by
  rw [put_of_index? hi, programs, programs, List.map_set]

/-- Putting back a control block with the program of the old one moves no program. -/
theorem programs_put_of_eq (hb : t.get slot = .ok b) (hc : c.program = b.program) :
    (t.put slot c).programs = t.programs := by
  obtain ⟨i, hi, hslot⟩ := exists_index_of_get hb
  obtain ⟨hlt, hself⟩ := List.getElem?_eq_some_iff.mp (getElem?_programs hslot)
  rw [programs_put hi, hc, ← hself, List.set_getElem_self]

theorem idxOf?_eq_some_iff {l : List Reference} (hnodup : l.Nodup) {p : Reference} {i : Nat} :
    l.idxOf? p = some i ↔ l[i]? = some p := by
  constructor
  · intro hi
    obtain ⟨hlt, hself, _⟩ := List.findIdx?_eq_some_iff_getElem.mp hi
    exact List.getElem?_eq_some_iff.mpr ⟨hlt, eq_of_beq hself⟩
  · intro hi
    obtain ⟨hlt, rfl⟩ := List.getElem?_eq_some_iff.mp hi
    refine List.findIdx?_eq_some_iff_getElem.mpr ⟨hlt, BEq.rfl, fun j hj hsame => ?_⟩
    exact absurd (hnodup.getElem_inj_iff.mp (eq_of_beq hsame)) (Nat.ne_of_lt hj)

/-- Only the slot that refers to a program sees what is set there. -/
theorem slots_view_of_sets (hnodup : t.programs.Nodup)
    (hknown : ∀ p ∈ t.programs, p < h.programs.length) {p : Reference} {value : Program}
    (hset : h.Sets p value h') {i : Nat} (hi : t.programs.idxOf? p = some i) :
    t.slots.map (·.view h') =
      (t.slots.map (·.view h)).modify i ({ · with program := value }) := by
  have hself : t.programs[i]? = some p := (idxOf?_eq_some_iff hnodup).mp hi
  have hlt : i < t.programs.length := (List.getElem?_eq_some_iff.mp hself).1
  refine List.ext_getElem? fun j => ?_
  rw [List.getElem?_modify, List.getElem?_map, List.getElem?_map]
  cases hslot : t.slots[j]? with
  | none => rfl
  | some b =>
      have hj : t.programs[j]? = some b.program := getElem?_programs hslot
      by_cases hij : i = j
      · subst hij
        obtain rfl : p = b.program := Option.some.inj (hself.symm.trans hj)
        simp [ControlBlock.view, hset.program_self]
      · have hne : b.program ≠ p := fun heq => hij <|
          (List.getElem?_inj hlt hnodup).mp (hself.trans (heq ▸ hj.symm))
        have hother : h'.program b.program = h.program b.program :=
          hset.program_of_ne hne (hknown _ (List.mem_of_getElem? hj))
        simp [ControlBlock.view, hother, hij]

end ProcessTable

namespace Machine

variable {m base : Machine} {h : Heap}

@[simp] theorem scheduler_view (m : Machine) : m.view.scheduler = m.scheduler := rfl

theorem Succeeds.refl (m : Machine) : m.Succeeds m where
  programs_le := Nat.le_refl _
  nextPid_le := Int.le_refl _
  slots hb := ⟨_, hb, .inl ⟨rfl, rfl⟩⟩

/-- A heap that has grown is seen as before. -/
theorem view_added (hm : m.Separate) (instructions : List Instruction) :
    ({ m with heap := m.heap.added instructions } : Machine).view = m.view := by
  have htable : m.table.view (m.heap.added instructions) = m.table.view m.heap :=
    ProcessTable.view_congr fun p hp => Heap.program_added hm.heap (hm.known hp) instructions
  have hcpu : m.cpu.program.map (m.heap.added instructions).program =
      m.cpu.program.map m.heap.program := by
    cases hp : m.cpu.program with
    | none => rfl
    | some p =>
        rw [Option.map_some, Option.map_some, Heap.program_added hm.heap (hm.loaded hp)]
  simp only [view, htable, hcpu, home]

/-- Setting the program that the CPU runs is seen as replacing it. -/
theorem view_of_sets (hm : m.Separate) {p : Reference} (hp : m.cpu.program = some p)
    {value : Program} (hset : m.heap.Sets p value h) :
    ({ m with heap := h } : Machine).view = m.view.replaceProgram value := by
  have hloaded : m.view.cpu.isLoaded = true := by
    rw [view, hp]
    rfl
  rw [Uniproc.Machine.replaceProgram, if_pos hloaded]
  cases hi : m.table.programs.idxOf? p with
  | none =>
      have htable : m.table.view h = m.table.view m.heap :=
        ProcessTable.view_congr fun q hq => hset.program_of_ne
          (fun heq => List.idxOf?_eq_none_iff.mp hi (heq ▸ hq)) (hm.known hq)
      simp only [view, home, hp, Option.bind_some, hi, htable, Option.map_some,
        hset.program_self]
  | some i =>
      have hslots := ProcessTable.slots_view_of_sets hm.nodup (fun _ => hm.known) hset hi
      simp only [view, home, hp, Option.bind_some, hi, ProcessTable.view, hslots,
        Option.map_some, hset.program_self]

end Machine
end Sharing
end Uniproc
