import Uniproc.Proofs.Machine.Effect

/-!
A process on its own. `Solo` is a machine with one program, one counter and one register,
which nobody else uses; a process of the real machine is carried by the CPU while it runs
and by its control block while it waits. Only its own effects change what it is.
-/

namespace Uniproc

structure Solo where
  program : Program
  programCounter : Nat := 0
  value : Int := 0

/-- What a step takes from outside: whether a fork makes a child, what is loaded from a
path, and whether a program that cannot be replaced is kept. -/
structure Surroundings where
  forks : Bool
  load : String → Except Fault Program
  revert : Bool

namespace Solo

def fetch (s : Solo) : Option Instruction :=
  s.program.instructions[s.programCounter]?

def advanced (s : Solo) : Solo :=
  { s with programCounter := s.programCounter + 1 }

/-- The next state, unless the process ends. -/
def next (s : Solo) (w : Surroundings) : Option Solo :=
  match s.fetch with
  | none => none
  | some i =>
    let t := s.advanced
    match i.opcode with
    | .set => some { t with value := i.number }
    | .add => some { t with value := t.value + i.number }
    | .subtract => some { t with value := t.value - i.number }
    | .block => some t
    | .halt => none
    | .fork =>
      if w.forks then some { t with programCounter := (t.programCounter + i.number).toNat }
      else some t
    | .replace => match w.load i.path with
      | .ok p => some { t with program := p, programCounter := 0 }
      | .error _ =>
        if w.revert then some t
        else some { t with program := {}, programCounter := t.programCounter + 1 }

/-- What an effect of its own makes of a process. -/
def affected (s : Solo) : Effect → Option Solo
  | .compute v => some { s with value := v }
  | .block | .refuse | .keep _ => some s
  | .finish => none
  | .spawn _ offset => some { s with programCounter := (s.programCounter + offset).toNat }
  | .install p => some { s with program := p, programCounter := 0 }
  | .lose _ => some { s with program := {}, programCounter := s.programCounter + 1 }
  | .abort _ => some { s with program := {} }

end Solo

/-- The CPU has these registers. -/
structure Cpu.Holds (c : Cpu) (s : Solo) : Prop where
  program : c.program = some s.program
  programCounter : c.programCounter = s.programCounter
  value : c.value = s.value

namespace Machine

/-- The process with control block `b` in `slot`. While it runs, its registers are in the
CPU and those in the control block are out of date. -/
def soloAt (m : Machine) (slot : Int) (b : ControlBlock) : Solo :=
  if m.scheduler.running = some slot then ⟨b.program, m.cpu.programCounter.toNat, m.cpu.value⟩
  else ⟨b.program, b.programCounter.toNat, b.value⟩

/-- Process `p` is there, and this is its state. -/
def Carries (m : Machine) (p : Int) (s : Solo) : Prop :=
  ∃ slot b, m.table.Live slot b ∧ b.pid = p ∧ m.soloAt slot b = s

variable {m : Machine} {slot : Int} {b : ControlBlock} {p : Int} {s : Solo}

theorem soloAt_running (hrun : m.scheduler.running = some slot) :
    m.soloAt slot b = ⟨b.program, m.cpu.programCounter.toNat, m.cpu.value⟩ :=
  if_pos hrun

theorem soloAt_waiting (h : m.scheduler.running ≠ some slot) :
    m.soloAt slot b = ⟨b.program, b.programCounter.toNat, b.value⟩ :=
  if_neg h

theorem holds_soloAt (h : m.Coherent) (hrun : m.scheduler.running = some slot)
    (hb : m.table.blockAt slot = some b) : m.cpu.Holds (m.soloAt slot b) := by
  rw [soloAt_running hrun]
  exact ⟨h.program_eq hrun hb, (Int.toNat_of_nonneg h.counter_nonneg).symm, rfl⟩

/-- Giving the CPU away changes no process, the one that gets it included. -/
theorem Carries.afterDispatch (hp : m.Carries p s) (h : m.Scheduled) :
    m.afterDispatch.Carries p s := by
  obtain ⟨other, c, ⟨hc, hfree⟩, hpid, hsolo⟩ := hp
  obtain ⟨_, heq⟩ | ⟨slot, b, rest, _, hidle, _, hb, hstate, heq⟩ := h.afterDispatch_cases
  · rw [heq]
    exact ⟨other, c, ⟨hc, hfree⟩, hpid, hsolo⟩
  · rw [heq]
    rw [soloAt_waiting (by simp [hidle])] at hsolo
    have hat := blockAt_afterSwitch hb rest other
    by_cases hslot : other = slot
    · subst hslot
      obtain rfl : b = c := Option.some.inj (hb.symm.trans hc)
      rw [if_pos rfl] at hat
      refine ⟨other, _, ⟨hat, rfl⟩, hpid, ?_⟩
      rw [soloAt_running rfl]
      exact hsolo
    · rw [if_neg hslot, hc] at hat
      refine ⟨other, c, ⟨hat, hfree⟩, hpid, ?_⟩
      rw [soloAt_waiting (by simpa [afterSwitch] using Ne.symm hslot)]
      exact hsolo

theorem Carries.afterUnblock (hp : m.Carries p s) (h : m.Scheduled) :
    m.afterUnblock.Carries p s := by
  obtain ⟨other, c, ⟨hc, hfree⟩, hpid, hsolo⟩ := hp
  obtain ⟨_, heq⟩ | ⟨slot, b, rest, hblocked, hb, hstate, heq⟩ := h.afterUnblock_cases
  · rw [heq]
    exact ⟨other, c, ⟨hc, hfree⟩, hpid, hsolo⟩
  · rw [heq]
    have hat := blockAt_afterWake hb rest other
    by_cases hslot : other = slot
    · subst hslot
      obtain rfl : b = c := Option.some.inj (hb.symm.trans hc)
      rw [if_pos rfl] at hat
      exact ⟨other, _, ⟨hat, rfl⟩, hpid, hsolo⟩
    · rw [if_neg hslot, hc] at hat
      exact ⟨other, c, ⟨hat, hfree⟩, hpid, hsolo⟩

/-- The counter of the CPU is one of the running process only. -/
theorem Carries.withCounter_of_ne (hp : m.Carries p s)
    (hrun : m.scheduler.running = some slot) (hb : m.table.blockAt slot = some b)
    (hne : p ≠ b.pid) (n : Int) : (m.withCounter n).Carries p s := by
  obtain ⟨other, c, ⟨hc, hfree⟩, hpid, hsolo⟩ := hp
  have hwaits : m.scheduler.running ≠ some other := by
    intro hother
    obtain rfl : slot = other := Option.some.inj (hrun.symm.trans hother)
    obtain rfl : b = c := Option.some.inj (hb.symm.trans hc)
    exact hne hpid.symm
  rw [soloAt_waiting hwaits] at hsolo
  exact ⟨other, c, ⟨hc, hfree⟩, hpid, (soloAt_waiting (m := m.withCounter n) hwaits).trans hsolo⟩

/-- An effect of the running process changes no other one. -/
theorem Carries.affect_of_ne (hp : m.Carries p s)
    (hrun : m.scheduler.running = some slot) (hb : m.table.blockAt slot = some b)
    (hne : p ≠ b.pid) {e : Effect} (he : m.Admits e) (tick : Nat) :
    (m.affect slot b tick e).Carries p s := by
  obtain ⟨other, c, ⟨hc, hfree⟩, hpid, hsolo⟩ := hp
  have hslot : other ≠ slot := by
    rintro rfl
    obtain rfl : b = c := Option.some.inj (hb.symm.trans hc)
    exact hne hpid.symm
  have hwaits : m.scheduler.running ≠ some other := by
    rw [hrun]
    simpa using Ne.symm hslot
  rw [soloAt_waiting hwaits] at hsolo
  have hkeep {m' : Machine} (hat : m'.table.blockAt other = some c)
      (hrunning : m'.scheduler.running ≠ some other) : m'.Carries p s :=
    ⟨other, c, ⟨hat, hfree⟩, hpid, (soloAt_waiting hrunning).trans hsolo⟩
  cases e with
  | compute _ | refuse | keep _ => exact hkeep hc hwaits
  | block =>
      refine hkeep ?_ (by simp [affect, afterBlock])
      rw [affect, blockAt_afterBlock hb, if_neg hslot, hc]
  | finish =>
      refine hkeep ?_ (by simp [affect, afterEnd])
      rw [affect, blockAt_afterEnd hb, if_neg hslot, hc]
  | spawn child offset =>
      obtain ⟨old, hold, hnone⟩ := ProcessTable.blockAt_of_allocate he
      have hchild : other ≠ child := by
        rintro rfl
        obtain rfl : old = c := Option.some.inj (hold.symm.trans hc)
        cases hnone.symm.trans hfree
      refine hkeep ?_ hwaits
      rw [affect, blockAt_afterFork hold, if_neg hchild, hc]
  | install p =>
      refine hkeep ?_ hwaits
      exact (blockAt_afterReplace hb p other).trans ((if_neg hslot).trans hc)
  | lose _ | abort _ =>
      refine hkeep ?_ hwaits
      exact (blockAt_afterReplace hb {} other).trans ((if_neg hslot).trans hc)

/-- An effect of the running process is to it what it is to the process on its own. -/
theorem carries_affect (h : m.Coherent) (hrun : m.scheduler.running = some slot)
    (hb : m.table.blockAt slot = some b) {e : Effect} (he : m.Admits e) (tick : Nat)
    (hs : (m.soloAt slot b).affected e = some s) : (m.affect slot b tick e).Carries b.pid s := by
  have hcounter := h.counter_nonneg
  have hfree : b.isFree = false := by
    rw [ProcessTable.isFree_eq_false_iff, h.state_eq_running hrun hb]
    decide
  rw [soloAt_running hrun] at hs
  cases e with
  | finish => cases hs
  | compute _ | refuse | keep _ =>
      cases hs
      exact ⟨slot, b, ⟨hb, hfree⟩, rfl, soloAt_running hrun⟩
  | block =>
      cases hs
      have hat := (blockAt_afterBlock hb slot).trans (if_pos rfl)
      exact ⟨slot, _, ⟨hat, rfl⟩, rfl, soloAt_waiting (by simp [affect, afterBlock])⟩
  | spawn child offset =>
      cases hs
      obtain ⟨old, hold, hnone⟩ := ProcessTable.blockAt_of_allocate he
      have hslot : slot ≠ child := by
        rintro rfl
        exact (h.not_mem_of_free hold hnone).1 hrun
      have hat := (blockAt_afterFork hold b offset tick slot).trans ((if_neg hslot).trans hb)
      refine ⟨slot, b, ⟨hat, hfree⟩, rfl, ?_⟩
      rw [soloAt_running (m := m.affect slot b tick (.spawn child offset)) hrun]
      simp only [affect, afterFork, Int.toNat_of_nonneg hcounter, Solo.mk.injEq, true_and, and_true]
      omega
  | install p =>
      cases hs
      have hat := (blockAt_afterReplace hb p slot).trans (if_pos rfl)
      exact ⟨slot, _, ⟨hat, hfree⟩, rfl, soloAt_running hrun⟩
  | lose cause =>
      cases hs
      have hat := (blockAt_afterReplace hb {} slot).trans (if_pos rfl)
      refine ⟨slot, _, ⟨hat, hfree⟩, rfl, ?_⟩
      rw [soloAt_running (m := m.affect slot b tick (.lose cause)) hrun]
      simp only [affect, afterReplace, withCounter, Solo.mk.injEq, true_and, and_true]
      omega
  | abort _ =>
      cases hs
      have hat := (blockAt_afterReplace hb {} slot).trans (if_pos rfl)
      exact ⟨slot, _, ⟨hat, hfree⟩, rfl, soloAt_running hrun⟩

/-- A child starts with the registers of the CPU. -/
theorem carries_newborn (h : m.Coherent) {child : Nat} (he : m.table.allocate = .ok child)
    (slot : Int) (b : ControlBlock) (offset : Int) (tick : Nat) :
    (m.affect slot b tick (.spawn child offset)).Carries m.table.nextPid
      ⟨b.program, m.cpu.programCounter.toNat, m.cpu.value⟩ := by
  obtain ⟨old, hold, hnone⟩ := ProcessTable.blockAt_of_allocate he
  have hat := (blockAt_afterFork hold b offset tick child).trans (if_pos rfl)
  refine ⟨child, _, ⟨hat, rfl⟩, rfl, soloAt_waiting ?_⟩
  exact (h.not_mem_of_free hold hnone).1

end Machine
end Uniproc
