import Mathlib.Data.List.Nodup
import Uniproc.Proofs.Machine.Operations

/-!
Coherence of a machine: the running slot, the two queues and the CPU agree with the
states in the process table. Every operation keeps it, as one move; inside an operation
a slot can be in the queue of one state and have another one.
-/

namespace Uniproc

/-- The slots that have the CPU or wait, as often as they do. -/
def Scheduler.places (s : Scheduler) : List Int :=
  s.running.toList ++ s.ready ++ s.blocked

/-- The slots that a scheduler keeps for a state. -/
def Scheduler.slotsIn (s : Scheduler) : ProcessState → List Int
  | .running => s.running.toList
  | .ready => s.ready
  | .blocked => s.blocked
  | .terminated => []

namespace Machine

/-- Where the scheduler has a slot, it has it once and the slot is in that state. There can be
slots besides that it knows nothing of. -/
structure Consistent (m : Machine) : Prop where
  stateAt_eq (state : ProcessState) {slot : Int} :
    slot ∈ m.scheduler.slotsIn state → m.table.stateAt slot = some state
  nodup (state : ProcessState) : (m.scheduler.slotsIn state).Nodup

/-- Each slot is where the state of its process says, and nowhere else; the CPU holds the
program of the running slot. -/
structure Scheduled (m : Machine) : Prop where
  running_iff (slot : Int) :
    m.scheduler.running = some slot ↔ m.table.stateAt slot = some .running
  ready_iff (slot : Int) : slot ∈ m.scheduler.ready ↔ m.table.stateAt slot = some .ready
  blocked_iff (slot : Int) : slot ∈ m.scheduler.blocked ↔ m.table.stateAt slot = some .blocked
  ready_nodup : m.scheduler.ready.Nodup
  blocked_nodup : m.scheduler.blocked.Nodup
  isLoaded_eq : m.cpu.isLoaded = m.scheduler.running.isSome
  program_eq {slot : Int} {b : ControlBlock} : m.scheduler.running = some slot →
    m.table.blockAt slot = some b → m.cpu.program = some b.program

/-- What the operations rely on besides. -/
structure Coherent (m : Machine) : Prop extends Scheduled m where
  cpu_of_idle : m.scheduler.running = none → m.cpu = .discarded
  home_eq {slot : Int} : m.scheduler.running = some slot → m.cpu.home = some slot.toNat
  counter_nonneg : 0 ≤ m.cpu.programCounter
  counters_nonneg {slot : Int} {b : ControlBlock} :
    m.table.blockAt slot = some b → 0 ≤ b.programCounter

variable {m : Machine} {slot : Int} {b : ControlBlock}

theorem Scheduled.exists_running (h : m.Scheduled) (hrun : m.scheduler.running = some slot) :
    ∃ b, m.table.blockAt slot = some b ∧ b.state = .running :=
  ProcessTable.exists_blockAt_of_stateAt ((h.running_iff slot).mp hrun)

theorem Scheduled.exists_ready (h : m.Scheduled) (hmem : slot ∈ m.scheduler.ready) :
    ∃ b, m.table.blockAt slot = some b ∧ b.state = .ready :=
  ProcessTable.exists_blockAt_of_stateAt ((h.ready_iff slot).mp hmem)

theorem Scheduled.exists_blocked (h : m.Scheduled) (hmem : slot ∈ m.scheduler.blocked) :
    ∃ b, m.table.blockAt slot = some b ∧ b.state = .blocked :=
  ProcessTable.exists_blockAt_of_stateAt ((h.blocked_iff slot).mp hmem)

theorem Scheduled.state_eq_running (h : m.Scheduled) (hrun : m.scheduler.running = some slot)
    (hb : m.table.blockAt slot = some b) : b.state = .running := by
  obtain ⟨c, hc, hstate⟩ := h.exists_running hrun
  rw [hb] at hc
  cases hc
  exact hstate

/-- A free slot is nowhere. -/
theorem Scheduled.not_mem_of_free (h : m.Scheduled) (hb : m.table.blockAt slot = some b)
    (hfree : b.isFree = true) : m.scheduler.running ≠ some slot ∧
      slot ∉ m.scheduler.ready ∧ slot ∉ m.scheduler.blocked := by
  have hstate : m.table.stateAt slot = some .terminated := by
    rw [ProcessTable.stateAt_of_blockAt hb, (ProcessTable.isFree_eq_true_iff b).mp hfree]
  refine ⟨?_, ?_, ?_⟩
  · rw [ne_eq, h.running_iff, hstate]
    decide
  · rw [h.ready_iff, hstate]
    decide
  · rw [h.blocked_iff, hstate]
    decide

/-- The slots with a process are the ones that have a place. -/
theorem Scheduled.mem_places_iff (h : m.Scheduled) (slot : Int) :
    slot ∈ m.scheduler.places ↔ ∃ b, m.table.Live slot b := by
  have hplaces : slot ∈ m.scheduler.places ↔ m.table.stateAt slot = some .running ∨
      m.table.stateAt slot = some .ready ∨ m.table.stateAt slot = some .blocked := by
    rw [← h.running_iff, ← h.ready_iff, ← h.blocked_iff]
    simp only [Scheduler.places, List.mem_append, Option.mem_toList, or_assoc]
  rw [hplaces]
  constructor
  · intro hstate
    have hlive {state : ProcessState} (hat : m.table.stateAt slot = some state)
        (hne : state ≠ .terminated) : ∃ b, m.table.Live slot b := by
      obtain ⟨b, hb, rfl⟩ := ProcessTable.exists_blockAt_of_stateAt hat
      exact ⟨b, hb, (ProcessTable.isFree_eq_false_iff b).mpr hne⟩
    rcases hstate with hat | hat | hat <;> exact hlive hat (by simp)
  · rintro ⟨b, hb, hfree⟩
    have hne := (ProcessTable.isFree_eq_false_iff b).mp hfree
    rw [ProcessTable.stateAt_of_blockAt hb]
    cases hs : b.state with
    | ready | running | blocked => decide
    | terminated => exact absurd hs hne

/-- A slot in two places would have two states. -/
theorem Consistent.nodup_places (h : m.Consistent) : m.scheduler.places.Nodup := by
  have hdisjoint {s t : ProcessState} (hne : s ≠ t) :
      (m.scheduler.slotsIn s).Disjoint (m.scheduler.slotsIn t) := by
    intro slot hs ht
    exact hne (Option.some.inj ((h.stateAt_eq s hs).symm.trans (h.stateAt_eq t ht)))
  have hrunning := (h.nodup .running).append (h.nodup .ready) (hdisjoint (by decide))
  refine hrunning.append (h.nodup .blocked) (List.disjoint_append_left.mpr ⟨?_, ?_⟩)
  · exact hdisjoint (s := .running) (t := .blocked) (by decide)
  · exact hdisjoint (s := .ready) (t := .blocked) (by decide)

theorem Scheduled.consistent (h : m.Scheduled) : m.Consistent where
  stateAt_eq state {slot} hmem := by
    cases state with
    | running => exact (h.running_iff slot).mp (Option.mem_toList.mp hmem)
    | ready => exact (h.ready_iff slot).mp hmem
    | blocked => exact (h.blocked_iff slot).mp hmem
    | terminated => cases hmem
  nodup state := by
    cases state with
    | running => exact m.scheduler.running.toList_nodup
    | ready => exact h.ready_nodup
    | blocked => exact h.blocked_nodup
    | terminated => exact List.nodup_nil

theorem Scheduled.nodup_places (h : m.Scheduled) : m.scheduler.places.Nodup :=
  h.consistent.nodup_places

theorem coherent_withCounter (h : m.Coherent) (hrun : m.scheduler.running = some slot) {n : Int}
    (hn : 0 ≤ n) : (m.withCounter n).Coherent :=
  { h with
    cpu_of_idle := fun hidle => absurd (hrun.symm.trans hidle) (by simp)
    counter_nonneg := hn }

theorem coherent_withValue (h : m.Coherent) (hrun : m.scheduler.running = some slot) (v : Int) :
    (m.withValue v).Coherent :=
  { h with
    cpu_of_idle := fun hidle => absurd (hrun.symm.trans hidle) (by simp) }

/-- The counters stay in order if the one control block that differs has a counter in order. -/
theorem Coherent.counters_of_update (h : m.Coherent) {u : ProcessTable}
    (hu : ∀ other, u.blockAt other = if other = slot then some b else m.table.blockAt other)
    (hb : 0 ≤ b.programCounter) {other : Int} {c : ControlBlock} (hc : u.blockAt other = some c) :
    0 ≤ c.programCounter :=
  ProcessTable.forall_of_update (P := fun b => 0 ≤ b.programCounter) hu hb h.counters_nonneg hc

theorem coherent_afterBlock (h : m.Coherent) (hrun : m.scheduler.running = some slot)
    (hb : m.table.blockAt slot = some b) : (m.afterBlock slot b).Coherent where
  running_iff other := by
    rw [ProcessTable.stateAt_of_update (blockAt_afterBlock hb)]
    by_cases ho : other = slot
    · simp [ho, afterBlock]
    · simp [ho, Ne.symm ho, afterBlock, ← h.running_iff, hrun]
  ready_iff other := by
    rw [ProcessTable.stateAt_of_update (blockAt_afterBlock hb)]
    by_cases ho : other = slot
    · simp [ho, afterBlock, h.ready_iff, (h.running_iff slot).mp hrun]
    · simp [ho, afterBlock, h.ready_iff]
  blocked_iff other := by
    rw [ProcessTable.stateAt_of_update (blockAt_afterBlock hb)]
    by_cases ho : other = slot
    · simp [ho, afterBlock]
    · simp [ho, afterBlock, h.blocked_iff]
  ready_nodup := h.ready_nodup
  blocked_nodup := by
    refine h.blocked_nodup.append (List.nodup_singleton slot) ?_
    simp [h.blocked_iff, (h.running_iff slot).mp hrun]
  isLoaded_eq := rfl
  program_eq hnone := by cases hnone
  cpu_of_idle _ := rfl
  home_eq hnone := by cases hnone
  counter_nonneg := Int.le_refl 0
  counters_nonneg hc := h.counters_of_update (blockAt_afterBlock hb) h.counter_nonneg hc

theorem coherent_afterEnd (h : m.Coherent) (hrun : m.scheduler.running = some slot)
    (hb : m.table.blockAt slot = some b) : (m.afterEnd slot b).Coherent where
  running_iff other := by
    rw [ProcessTable.stateAt_of_update (blockAt_afterEnd hb)]
    by_cases ho : other = slot
    · simp [ho, afterEnd]
    · simp [ho, Ne.symm ho, afterEnd, ← h.running_iff, hrun]
  ready_iff other := by
    rw [ProcessTable.stateAt_of_update (blockAt_afterEnd hb)]
    by_cases ho : other = slot
    · simp [ho, afterEnd, h.ready_iff, (h.running_iff slot).mp hrun]
    · simp [ho, afterEnd, h.ready_iff]
  blocked_iff other := by
    rw [ProcessTable.stateAt_of_update (blockAt_afterEnd hb)]
    by_cases ho : other = slot
    · simp [ho, afterEnd, h.blocked_iff, (h.running_iff slot).mp hrun]
    · simp [ho, afterEnd, h.blocked_iff]
  ready_nodup := h.ready_nodup
  blocked_nodup := h.blocked_nodup
  isLoaded_eq := rfl
  program_eq hnone := by cases hnone
  cpu_of_idle _ := rfl
  home_eq hnone := by cases hnone
  counter_nonneg := Int.le_refl 0
  counters_nonneg hc := by
    have hcounter : 0 ≤ b.programCounter := h.counters_nonneg hb
    exact h.counters_of_update (blockAt_afterEnd hb) hcounter hc

/-- The child's slot has been free, so it was nowhere before. -/
theorem coherent_afterFork (h : m.Coherent) {child : Int} {old : ControlBlock}
    (hrun : m.scheduler.running = some slot) (hold : m.table.blockAt child = some old)
    (hfree : old.isFree = true) (parent : ControlBlock) (offset : Int) (tick : Nat) :
    (m.afterFork child parent offset tick).Coherent where
  running_iff other := by
    have hplaces := h.not_mem_of_free hold hfree
    rw [ProcessTable.stateAt_of_update (blockAt_afterFork hold parent offset tick)]
    by_cases ho : other = child
    · simpa [ho, afterFork, newborn] using hplaces.1
    · simp [ho, afterFork, h.running_iff]
  ready_iff other := by
    rw [ProcessTable.stateAt_of_update (blockAt_afterFork hold parent offset tick)]
    by_cases ho : other = child
    · simp [ho, afterFork, newborn]
    · simp [ho, afterFork, h.ready_iff]
  blocked_iff other := by
    have hplaces := h.not_mem_of_free hold hfree
    rw [ProcessTable.stateAt_of_update (blockAt_afterFork hold parent offset tick)]
    by_cases ho : other = child
    · simpa [ho, afterFork, newborn] using hplaces.2.2
    · simp [ho, afterFork, h.blocked_iff]
  ready_nodup := by
    refine h.ready_nodup.append (List.nodup_singleton child) ?_
    simpa using (h.not_mem_of_free hold hfree).2.1
  blocked_nodup := h.blocked_nodup
  isLoaded_eq := h.isLoaded_eq
  program_eq hslot hc := by
    rw [blockAt_afterFork hold] at hc
    split at hc
    · next heq =>
      subst heq
      exact absurd hslot (h.not_mem_of_free hold hfree).1
    · exact h.program_eq hslot hc
  cpu_of_idle hidle := absurd (hrun.symm.trans hidle) (by simp)
  home_eq := h.home_eq
  counter_nonneg := Int.le_max_left _ _
  counters_nonneg hc :=
    h.counters_of_update (blockAt_afterFork hold parent offset tick) h.counter_nonneg hc

theorem coherent_afterReplace (h : m.Coherent) (hrun : m.scheduler.running = some slot)
    (hb : m.table.blockAt slot = some b) (p : Program) : (m.afterReplace slot b p).Coherent := by
  have hstates (other : Int) :
      (m.afterReplace slot b p).table.stateAt other = m.table.stateAt other :=
    ProcessTable.stateAt_put_of_eq (b := { b with program := p }) hb rfl other
  exact
    { running_iff := fun other => by rw [hstates]; exact h.running_iff other
      ready_iff := fun other => by rw [hstates]; exact h.ready_iff other
      blocked_iff := fun other => by rw [hstates]; exact h.blocked_iff other
      ready_nodup := h.ready_nodup
      blocked_nodup := h.blocked_nodup
      isLoaded_eq := by
        change true = m.scheduler.running.isSome
        rw [hrun]
        rfl
      program_eq := by
        intro other c hother hc
        rw [blockAt_afterReplace hb] at hc
        obtain rfl : slot = other := Option.some.inj (hrun.symm.trans hother)
        rw [if_pos rfl] at hc
        cases hc
        rfl
      cpu_of_idle := fun hidle => absurd (hrun.symm.trans hidle) (by simp)
      home_eq := h.home_eq
      counter_nonneg := h.counter_nonneg
      counters_nonneg := fun hc => by
        have hcounter : 0 ≤ b.programCounter := h.counters_nonneg hb
        exact h.counters_of_update (blockAt_afterReplace hb p) hcounter hc }

/-- A control block may differ in what the scheduler does not look at. -/
theorem coherent_put_of_eq (h : m.Coherent) (hb : m.table.blockAt slot = some b)
    {c : ControlBlock} (hstate : c.state = b.state) (hprogram : c.program = b.program)
    (hcounter : c.programCounter = b.programCounter) :
    { m with table := m.table.put slot c }.Coherent := by
  have hstates := ProcessTable.stateAt_put_of_eq hb hstate
  exact
    { h with
      running_iff := fun other => by rw [hstates]; exact h.running_iff other
      ready_iff := fun other => by rw [hstates]; exact h.ready_iff other
      blocked_iff := fun other => by rw [hstates]; exact h.blocked_iff other
      program_eq := by
        intro other d hother hd
        rw [ProcessTable.blockAt_put hb] at hd
        split at hd
        · next heq =>
          cases hd
          rw [hprogram]
          exact h.program_eq hother (heq ▸ hb)
        · exact h.program_eq hother hd
      counters_nonneg := fun hd =>
        h.counters_of_update (ProcessTable.blockAt_put hb c) (hcounter ▸ h.counters_nonneg hb) hd }

theorem coherent_afterSwitch (h : m.Coherent) {rest : List Int}
    (hidle : m.scheduler.running = none) (hready : m.scheduler.ready = slot :: rest)
    (hb : m.table.blockAt slot = some b) : (m.afterSwitch slot b rest).Coherent where
  running_iff other := by
    rw [ProcessTable.stateAt_of_update (blockAt_afterSwitch hb rest)]
    by_cases ho : other = slot
    · simp [ho, afterSwitch]
    · simp [ho, Ne.symm ho, afterSwitch, ← h.running_iff, hidle]
  ready_iff other := by
    have hnodup := h.ready_nodup
    rw [hready, List.nodup_cons] at hnodup
    rw [ProcessTable.stateAt_of_update (blockAt_afterSwitch hb rest)]
    by_cases ho : other = slot
    · simpa [ho, afterSwitch] using hnodup.1
    · simp [ho, afterSwitch, ← h.ready_iff, hready]
  blocked_iff other := by
    have hat : m.table.stateAt slot = some .ready := by
      rw [← h.ready_iff, hready]
      exact List.mem_cons_self
    rw [ProcessTable.stateAt_of_update (blockAt_afterSwitch hb rest)]
    by_cases ho : other = slot
    · simp [ho, afterSwitch, h.blocked_iff, hat]
    · simp [ho, afterSwitch, h.blocked_iff]
  ready_nodup := by
    have hnodup := h.ready_nodup
    rw [hready] at hnodup
    exact hnodup.of_cons
  blocked_nodup := h.blocked_nodup
  isLoaded_eq := rfl
  program_eq hother hc := by
    cases hother
    rw [blockAt_afterSwitch hb, if_pos rfl] at hc
    cases hc
    rfl
  cpu_of_idle hnone := by cases hnone
  home_eq hother := by
    cases hother
    rfl
  counter_nonneg := h.counters_nonneg hb
  counters_nonneg hc := by
    have hcounter : 0 ≤ b.programCounter := h.counters_nonneg hb
    exact h.counters_of_update (blockAt_afterSwitch hb rest) hcounter hc

theorem coherent_afterWake (h : m.Coherent) {rest : List Int}
    (hblocked : m.scheduler.blocked = slot :: rest) (hb : m.table.blockAt slot = some b) :
    (m.afterWake slot b rest).Coherent := by
  have hat : m.table.stateAt slot = some .blocked := by
    rw [← h.blocked_iff, hblocked]
    exact List.mem_cons_self
  have hnodup := h.blocked_nodup
  rw [hblocked, List.nodup_cons] at hnodup
  exact
    { running_iff := fun other => by
        rw [ProcessTable.stateAt_of_update (blockAt_afterWake hb rest)]
        by_cases ho : other = slot
        · simp [ho, afterWake, h.running_iff, hat]
        · simp [ho, afterWake, h.running_iff]
      ready_iff := fun other => by
        rw [ProcessTable.stateAt_of_update (blockAt_afterWake hb rest)]
        by_cases ho : other = slot
        · simp [ho, afterWake]
        · simp [ho, afterWake, h.ready_iff]
      blocked_iff := fun other => by
        rw [ProcessTable.stateAt_of_update (blockAt_afterWake hb rest)]
        by_cases ho : other = slot
        · simpa [ho, afterWake] using hnodup.1
        · simp [ho, afterWake, ← h.blocked_iff, hblocked]
      ready_nodup := by
        refine h.ready_nodup.append (List.nodup_singleton slot) ?_
        simp [h.ready_iff, hat]
      blocked_nodup := hnodup.2
      isLoaded_eq := h.isLoaded_eq
      program_eq := by
        intro other c hother hc
        rw [blockAt_afterWake hb] at hc
        split at hc
        · next heq =>
          have hprogram := h.program_eq hother (heq ▸ hb)
          cases hc
          exact hprogram
        · exact h.program_eq hother hc
      cpu_of_idle := h.cpu_of_idle
      home_eq := h.home_eq
      counter_nonneg := h.counter_nonneg
      counters_nonneg := fun hc => by
        have hcounter : 0 ≤ b.programCounter := h.counters_nonneg hb
        exact h.counters_of_update (blockAt_afterWake hb rest) hcounter hc }

/-- What giving the CPU away comes to: nothing, or a switch to the front of the ready queue. -/
theorem Scheduled.afterDispatch_cases (h : m.Scheduled) :
    (m.next? = none ∧ m.afterDispatch = m) ∨
    ∃ slot b rest, m.next? = some slot ∧ m.scheduler.running = none ∧
      m.scheduler.ready = slot :: rest ∧ m.table.blockAt slot = some b ∧ b.state = .ready ∧
      m.afterDispatch = m.afterSwitch slot b rest := by
  unfold next? afterDispatch
  cases hrun : m.scheduler.running with
  | some slot => exact .inl ⟨rfl, rfl⟩
  | none =>
      cases hready : m.scheduler.ready with
      | nil => exact .inl ⟨rfl, rfl⟩
      | cons slot rest =>
          obtain ⟨b, hb, hstate⟩ := h.exists_ready (hready ▸ List.mem_cons_self)
          exact .inr ⟨slot, b, rest, rfl, rfl, rfl, hb, hstate, by simp only [hb]⟩

theorem Scheduled.afterUnblock_cases (h : m.Scheduled) :
    (m.scheduler.blocked = [] ∧ m.afterUnblock = m) ∨
    ∃ slot b rest, m.scheduler.blocked = slot :: rest ∧ m.table.blockAt slot = some b ∧
      b.state = .blocked ∧ m.afterUnblock = m.afterWake slot b rest := by
  cases hblocked : m.scheduler.blocked with
  | nil => exact .inl ⟨rfl, by simp only [afterUnblock, hblocked]⟩
  | cons slot rest =>
      obtain ⟨b, hb, hstate⟩ := h.exists_blocked (hblocked ▸ List.mem_cons_self)
      refine .inr ⟨slot, b, rest, rfl, hb, hstate, ?_⟩
      simp only [afterUnblock, hblocked, hb]

theorem coherent_afterDispatch (h : m.Coherent) : m.afterDispatch.Coherent := by
  obtain ⟨_, heq⟩ | ⟨slot, b, rest, _, hidle, hready, hb, _, heq⟩ := h.afterDispatch_cases
  · rwa [heq]
  · rw [heq]
    exact coherent_afterSwitch h hidle hready hb

theorem coherent_afterUnblock (h : m.Coherent) : m.afterUnblock.Coherent := by
  obtain ⟨_, heq⟩ | ⟨slot, b, rest, hblocked, hb, _, heq⟩ := h.afterUnblock_cases
  · rwa [heq]
  · rw [heq]
    exact coherent_afterWake h hblocked hb

end Machine
end Uniproc
