import Mathlib.Tactic.Linarith
import Uniproc.Proofs.Machine.Roster
import Uniproc.Proofs.Simulation.Run

/-!
The books of a simulation: its roster, its clock and the turnarounds so far. A call makes
one entry in them or none, which is why the facts about numbers and times are proved of the
books alone.
-/

namespace Uniproc

structure Books where
  roster : Roster
  tick : Nat
  turnaround : Turnaround

namespace Books

/-- What a call can do to the books. -/
inductive Booked (k : Books) : Books → Prop
  | same : Booked k k
  | pass : Booked k { k with tick := k.tick + 1 }
  | finish {slot : Nat} {i : Identity} (h : k.roster.slots[slot]? = some (some i)) :
      Booked k
        { roster := k.roster.leave slot
          tick := k.tick + 1
          turnaround := k.turnaround.record i.startTime k.tick }
  | fork {slot child : Nat} {i : Identity} (h : k.roster.slots[slot]? = some (some i))
      (hfree : k.roster.slots[child]? = some none)
      (hbelow : ∀ l < child, ∃ j, k.roster.slots[l]? = some (some j)) :
      Booked k
        { k with
          roster := k.roster.enter child ⟨k.roster.nextPid, some i.pid, i.priority, k.tick, 0⟩
          tick := k.tick + 1 }

/-- What is so of all books: nobody is made after now, no more processes are made than ticks
have passed, and each process that has ended had a turnaround from 1 up to now. -/
structure Sound (k : Books) : Prop where
  numbered : k.roster.Numbered
  nextPid_le : k.roster.nextPid ≤ k.tick + 1
  started {slot : Nat} {i : Identity} :
    k.roster.slots[slot]? = some (some i) → 0 ≤ i.startTime ∧ i.startTime ≤ k.tick
  parents {slot : Nat} {i : Identity} {p : Int} : k.roster.slots[slot]? = some (some i) →
    i.parent = some p → 0 ≤ p ∧ p < k.roster.nextPid
  unused {slot : Nat} {i : Identity} :
    k.roster.slots[slot]? = some (some i) → i.priority = 0 ∧ i.timeUsed = 0
  terminated_nonneg : 0 ≤ k.turnaround.terminated
  terminated_le : k.turnaround.terminated ≤ k.turnaround.total
  total_le : k.turnaround.total ≤ k.turnaround.terminated * k.tick
  balance : k.turnaround.terminated + k.roster.processes.length = k.roster.nextPid

/-- The turnarounds so far, those of the processes that have not ended included. -/
def served (k : Books) : Int :=
  k.turnaround.total + (k.roster.processes.map fun i => (k.tick : Int) - i.startTime).sum

variable {k k' : Books}

theorem Sound.pass (h : k.Sound) : { k with tick := k.tick + 1 : Books }.Sound := by
  have hnext := h.nextPid_le
  have htotal := h.total_le
  have hterminated := h.terminated_nonneg
  refine { h with nextPid_le := ?_, started := fun hi => ?_, total_le := ?_ }
  · dsimp only
    omega
  · have hstarted := h.started hi
    dsimp only
    omega
  · dsimp only
    push_cast
    nlinarith

theorem Sound.finish (h : k.Sound) {slot : Nat} {i : Identity}
    (hi : k.roster.slots[slot]? = some (some i)) :
    { roster := k.roster.leave slot
      tick := k.tick + 1
      turnaround := k.turnaround.record i.startTime k.tick : Books }.Sound := by
  have hstarted := h.started hi
  have hnext := h.nextPid_le
  have htotal := h.total_le
  have hterminated := h.terminated_nonneg
  have hle := h.terminated_le
  have hbefore {other : Nat} {j : Identity}
      (hj : (k.roster.leave slot).slots[other]? = some (some j)) :
      k.roster.slots[other]? = some (some j) := by
    obtain ⟨_, hnone⟩ | ⟨_, hold⟩ := Roster.getElem?_set_cases hj
    · cases hnone
    · exact hold
  constructor
  case numbered => exact h.numbered.leave slot
  case nextPid_le =>
    change k.roster.nextPid ≤ _
    dsimp only
    omega
  case started =>
    intro other j hj
    have hstarted' := h.started (hbefore hj)
    dsimp only
    omega
  case parents =>
    intro other j p hj hp
    exact h.parents (hbefore hj) hp
  case unused =>
    intro other j hj
    exact h.unused (hbefore hj)
  case terminated_nonneg =>
    simp only [Turnaround.record]
    omega
  case terminated_le =>
    simp only [Turnaround.record, Turnaround.ofTicks]
    omega
  case total_le =>
    simp only [Turnaround.record, Turnaround.ofTicks]
    push_cast
    nlinarith
  case balance =>
    have hlength := Roster.sum_leave (fun _ => 1) hi
    rw [← Roster.length_processes, ← Roster.length_processes] at hlength
    have hbalance := h.balance
    change k.turnaround.terminated + 1 + ((k.roster.leave slot).processes.length : Int) =
      k.roster.nextPid
    omega

theorem Sound.fork (h : k.Sound) {slot child : Nat} {i : Identity}
    (hi : k.roster.slots[slot]? = some (some i)) (hfree : k.roster.slots[child]? = some none)
    (hbelow : ∀ l < child, ∃ j, k.roster.slots[l]? = some (some j)) :
    { k with
      roster := k.roster.enter child ⟨k.roster.nextPid, some i.pid, i.priority, k.tick, 0⟩
      tick := k.tick + 1 : Books }.Sound := by
  have hpos := h.numbered.nextPid_pos
  have hnext := h.nextPid_le
  have htotal := h.total_le
  have hterminated := h.terminated_nonneg
  constructor
  case numbered => exact h.numbered.enter hbelow rfl
  case nextPid_le =>
    change k.roster.nextPid + 1 ≤ _
    dsimp only
    omega
  case started =>
    intro other j hj
    dsimp only
    obtain ⟨_, hnew⟩ | ⟨_, hold⟩ := Roster.getElem?_set_cases hj
    · cases hnew
      dsimp only
      omega
    · have hstarted := h.started hold
      omega
  case parents =>
    intro other j p hj hp
    change 0 ≤ p ∧ p < k.roster.nextPid + 1
    obtain ⟨_, hnew⟩ | ⟨_, hold⟩ := Roster.getElem?_set_cases hj
    · cases hnew
      cases hp
      have hbounds := h.numbered.pid_bounds hi
      omega
    · have hbounds := h.parents hold hp
      omega
  case unused =>
    intro other j hj
    obtain ⟨_, hnew⟩ | ⟨_, hold⟩ := Roster.getElem?_set_cases hj
    · cases hnew
      exact ⟨(h.unused hi).1, rfl⟩
    · exact h.unused hold
  case terminated_nonneg => exact hterminated
  case terminated_le => exact h.terminated_le
  case total_le =>
    dsimp only
    push_cast
    nlinarith
  case balance =>
    have hlength := Roster.sum_enter (fun _ => 1) hfree
      ⟨k.roster.nextPid, some i.pid, i.priority, k.tick, 0⟩
    rw [← Roster.length_processes, ← Roster.length_processes] at hlength
    have hbalance := h.balance
    change k.turnaround.terminated + _ = k.roster.nextPid + 1
    dsimp only
    omega

theorem Booked.sound (h : Booked k k') (hs : k.Sound) : k'.Sound := by
  cases h with
  | same => exact hs
  | pass => exact hs.pass
  | finish hi => exact hs.finish hi
  | fork hi hfree hbelow => exact hs.fork hi hfree hbelow

theorem sum_later (k : Books) :
    (k.roster.processes.map fun i => ((k.tick + 1 : Nat) : Int) - i.startTime).sum =
      (k.roster.processes.map fun i => (k.tick : Int) - i.startTime).sum +
        k.roster.processes.length := by
  induction k.roster.processes with
  | nil => rfl
  | cons i rest ih =>
    simp only [List.map_cons, List.sum_cons, List.length_cons, ih]
    push_cast
    omega

/-- Where a tick passes, it is served to each process that there is or that is made. -/
theorem Booked.served (h : Booked k k') : k' = k ∨
    (k'.tick = k.tick + 1 ∧ k'.served =
      k.served + k.roster.processes.length + (k'.roster.nextPid - k.roster.nextPid)) := by
  have hlater := k.sum_later
  cases h with
  | same => exact .inl rfl
  | pass =>
      refine .inr ⟨rfl, ?_⟩
      simp only [Books.served]
      omega
  | finish hi =>
      have hleave := Roster.sum_leave (fun i => ((k.tick + 1 : Nat) : Int) - i.startTime) hi
      refine .inr ⟨rfl, ?_⟩
      simp only [Books.served, Turnaround.record, Turnaround.ofTicks, hleave]
      simp only [Roster.leave]
      push_cast at hlater ⊢
      omega
  | @fork slot child i hi hfree hbelow =>
      have henter := Roster.sum_enter (fun i => ((k.tick + 1 : Nat) : Int) - i.startTime) hfree
        ⟨k.roster.nextPid, some i.pid, i.priority, k.tick, 0⟩
      refine .inr ⟨rfl, ?_⟩
      simp only [Books.served, henter]
      simp only [Roster.enter]
      push_cast at hlater ⊢
      omega

end Books

namespace Simulation

def books (sim : Simulation) : Books where
  roster := sim.machine.table.roster
  tick := sim.tick
  turnaround := sim.turnaround

variable {sim : Simulation} {slot : Int} {b : ControlBlock}

theorem live_running (hc : sim.machine.Scheduled)
    (hrun : sim.machine.scheduler.running = some slot)
    (hb : sim.machine.table.blockAt slot = some b) : sim.machine.table.Live slot b := by
  refine ⟨hb, (ProcessTable.isFree_eq_false_iff b).mpr ?_⟩
  simp [hc.state_eq_running hrun hb]

/-- The books after the turn of the process in `slot`, before the clock's advance. -/
theorem booked_affect (hc : sim.machine.Coherent)
    (hrun : sim.machine.scheduler.running = some slot)
    (hb : sim.machine.table.blockAt slot = some b) {e : Effect} (he : sim.machine.Admits e) :
    sim.books.Booked (sim.affect slot b e).elapsed.books := by
  have hroster := Machine.roster_affect hc.toScheduled hrun hb he sim.tick
  have hlive := live_running hc.toScheduled hrun hb
  have hentry := ProcessTable.getElem?_roster_of_live hlive
  have hbooks : (sim.affect slot b e).elapsed.books =
      ⟨(sim.machine.affect slot b sim.tick e).table.roster, sim.tick + 1,
        (sim.affect slot b e).turnaround⟩ := rfl
  rw [hbooks, hroster]
  cases e with
  | finish => exact .finish (k := sim.books) hentry
  | spawn child offset =>
      have hnone : sim.books.roster.slots[child]? = some none :=
        ProcessTable.getElem?_roster_of_allocate he
      refine .fork (k := sim.books) hentry hnone fun l hl => ?_
      have hbelow : ∃ c, sim.machine.table.Live l c :=
        ProcessTable.live_of_lt_allocate he (by omega) (by omega)
      obtain ⟨c, hlive⟩ := hbelow
      exact ⟨_, ProcessTable.getElem?_roster_of_live hlive⟩
  | _ => exact .pass

theorem slot_bounds (hs : sim.books.Sound) (hlive : sim.machine.table.Live slot b) :
    0 ≤ slot ∧ slot ≤ sim.tick := by
  have hslot := (ProcessTable.bounds_of_blockAt hlive.1).1
  have hlt := hs.numbered.slot_lt (ProcessTable.getElem?_roster_of_live hlive)
  have hnext := hs.nextPid_le
  rw [Int.toNat_of_nonneg hslot] at hlt
  change sim.books.roster.nextPid ≤ (sim.tick : Int) + 1 at hnext
  change slot < sim.books.roster.nextPid at hlt
  omega

/-- As long as ticks can be written, so can the numbers that a step reports. -/
theorem writable_numbersOf (hs : sim.books.Sound) (hlive : sim.machine.table.Live slot b)
    (ht : sim.tick + 1 < Numeral.writingBound) (e : Effect) :
    Writable ([(sim.tick : Int), slot] ++ sim.numbersOf slot b e) := by
  have hentry := ProcessTable.getElem?_roster_of_live hlive
  have hslot := slot_bounds hs hlive
  have hnext : 0 < sim.machine.table.nextPid ∧ sim.machine.table.nextPid ≤ (sim.tick : Int) + 1 :=
    ⟨hs.numbered.nextPid_pos, hs.nextPid_le⟩
  have hpid : 0 ≤ b.pid ∧ b.pid < sim.machine.table.nextPid := hs.numbered.pid_bounds hentry
  have hstart : 0 ≤ b.startTime ∧ b.startTime ≤ sim.tick := hs.started hentry
  have hwritable {n : Int} (h0 : 0 ≤ n) (hle : n ≤ (sim.tick : Int) + 1) :
      Numeral.isWritable n = true := Numeral.isWritable_of_bounds h0 (by omega)
  have htick : Numeral.isWritable (sim.tick : Int) = true := hwritable (by omega) (by omega)
  have hat : Numeral.isWritable slot = true := hwritable hslot.1 (by omega)
  refine writable_append.mpr ⟨?_, ?_⟩
  · simp only [writable_cons, htick, hat, writable_nil, and_self]
  · cases e with
    | finish =>
        have hnumber : Numeral.isWritable b.pid = true := hwritable hpid.1 (by omega)
        have hturnaround : Numeral.isWritable (Turnaround.ofTicks b.startTime sim.tick) = true := by
          rw [Turnaround.ofTicks]
          exact hwritable (by omega) (by omega)
        simp only [numbersOf, writable_cons, hat, hnumber, hturnaround, writable_nil, and_self]
    | spawn _ _ =>
        have hnumber : Numeral.isWritable sim.machine.table.nextPid = true :=
          hwritable (by omega) hnext.2
        simp only [numbersOf, writable_cons, htick, hnumber, hat, writable_nil, and_self]
    | _ => exact writable_nil

theorem writable_live (hs : sim.books.Sound) (hlive : sim.machine.table.Live slot b)
    (ht : sim.tick < Numeral.writingBound) : Numeral.isWritable slot = true := by
  have hslot := slot_bounds hs hlive
  exact Numeral.isWritable_of_bounds hslot.1 (by omega)

theorem writable_next? (hs : sim.books.Sound) (hc : sim.machine.Scheduled)
    (ht : sim.tick < Numeral.writingBound) : Writable sim.machine.next?.toList := by
  obtain ⟨hnone, _⟩ | ⟨slot, b, rest, hnext, _, _, hb, hstate, _⟩ := hc.afterDispatch_cases
  · rw [hnone]
    exact writable_nil
  · have hlive : sim.machine.table.Live slot b :=
      ⟨hb, (ProcessTable.isFree_eq_false_iff b).mpr (by simp [hstate])⟩
    rw [hnext]
    exact writable_cons.mpr ⟨writable_live hs hlive ht, writable_nil⟩

theorem writable_blocked (hs : sim.books.Sound) (hc : sim.machine.Scheduled)
    (ht : sim.tick < Numeral.writingBound) :
    Writable sim.machine.scheduler.blocked.head?.toList := by
  obtain ⟨hnil, _⟩ | ⟨slot, b, rest, hblocked, hb, hstate, _⟩ := hc.afterUnblock_cases
  · rw [hnil]
    exact writable_nil
  · have hlive : sim.machine.table.Live slot b :=
      ⟨hb, (ProcessTable.isFree_eq_false_iff b).mpr (by simp [hstate])⟩
    rw [hblocked]
    exact writable_cons.mpr ⟨writable_live hs hlive ht, writable_nil⟩

theorem books_dispatched (hc : sim.machine.Scheduled) : sim.dispatched.books = sim.books := by
  simp only [books, dispatched, Machine.roster_afterDispatch hc]

theorem books_unblocked (hc : sim.machine.Scheduled) : sim.unblocked.books = sim.books := by
  simp only [books, unblocked, Machine.roster_afterUnblock hc]

theorem books_fetchedBy (sim : Simulation) (i? : Option Instruction) :
    (sim.fetchedBy i?).books = sim.books := by
  cases i? <;> rfl

theorem Turned.booked {files : FileView} {report : StepReport} {s : Simulation}
    (h : Turned files slot b sim (.ok report s)) (hc : sim.machine.Coherent)
    (hrun : sim.machine.scheduler.running = some slot)
    (hb : sim.machine.table.blockAt slot = some b) : sim.books.Booked s.elapsed.books := by
  cases h with
  | @done i? mid e hnext hmid he hdone =>
      subst hmid he
      have haffect := booked_affect (coherent_fetchedBy hc hrun i?)
        (by rwa [scheduler_fetchedBy]) (by rwa [table_fetchedBy])
        (admits_effectAt (sim.fetchedBy i?) files i?)
      rwa [books_fetchedBy] at haffect

/-- As long as ticks can be written, a turn is stopped before its effect, by the number of
the instruction, or by a replacement. -/
theorem Turned.error_cases {files : FileView} {fault : Fault} {s : Simulation}
    (h : Turned files slot b sim (.error fault s)) (hc : sim.machine.Coherent)
    (hrun : sim.machine.scheduler.running = some slot)
    (hb : sim.machine.table.blockAt slot = some b) (hs : sim.books.Sound)
    (ht : sim.tick + 1 < Numeral.writingBound) : ∃ i, sim.next? = some i ∧
      ((¬ Writable i.numbers ∧ s = sim.fetched) ∨
        (sim.fetched.effectOf files i = .abort fault ∧
          s = sim.fetched.affect slot b (.abort fault))) := by
  have hlive := live_running hc.toScheduled hrun hb
  cases h with
  | @unbegun i hnext hw =>
      have hheading := (writable_append.mp (writable_numbersOf hs hlive ht .block)).1
      exact ⟨i, hnext, .inl ⟨fun hnumbers => hw (writable_append.mpr ⟨hheading, hnumbers⟩), rfl⟩⟩
  | @aborted i _ hnext he => exact ⟨i, hnext, .inr ⟨he, rfl⟩⟩
  | @untold i? mid e events hnext hmid he hw =>
      subst hmid
      rw [← books_fetchedBy sim i?] at hs
      rw [← table_fetchedBy sim i?] at hlive
      rw [← tick_fetchedBy sim i?] at ht hw
      exact absurd (writable_numbersOf hs hlive ht e) hw

/-- A turn that is stopped leaves the books as they are. -/
theorem Turned.books_eq {files : FileView} {fault : Fault} {s : Simulation}
    (h : Turned files slot b sim (.error fault s)) (hc : sim.machine.Coherent)
    (hrun : sim.machine.scheduler.running = some slot)
    (hb : sim.machine.table.blockAt slot = some b) (hs : sim.books.Sound)
    (ht : sim.tick + 1 < Numeral.writingBound) : s.books = sim.books := by
  obtain ⟨i, _, ⟨_, rfl⟩ | ⟨_, rfl⟩⟩ := h.error_cases hc hrun hb hs ht
  · exact books_fetchedBy sim (some i)
  · have hroster := Machine.roster_affect (coherent_fetchedBy hc hrun (some i)).toScheduled
      hrun hb (e := .abort fault) trivial sim.tick
    exact congrArg (Books.mk · sim.tick sim.turnaround) hroster

/-- After a turn, the slot that gets the CPU can be written. -/
theorem Turned.writable_next? {files : FileView} {report : StepReport} {s : Simulation}
    (h : Turned files slot b sim (.ok report s)) (hc : sim.machine.Coherent)
    (hrun : sim.machine.scheduler.running = some slot)
    (hb : sim.machine.table.blockAt slot = some b) (hs : sim.books.Sound)
    (ht : sim.tick + 1 < Numeral.writingBound) : Writable s.machine.next?.toList := by
  have hs' : s.elapsed.books.Sound := (h.booked hc hrun hb).sound hs
  have hc' : s.elapsed.machine.Coherent := (h.moves hrun hb).coherent hc
  have ht' : s.elapsed.tick < Numeral.writingBound := by
    cases h with
    | done _ hmid _ _ =>
        subst hmid
        simpa [elapsed, affect] using ht
  have hnext : Writable s.elapsed.machine.next?.toList :=
    Simulation.writable_next? hs' hc'.toScheduled ht'
  exact hnext

theorem Unblocked.books_eq {slot? : Option Int} {s : Simulation}
    (h : Unblocked sim (.ok slot? s)) (hc : sim.machine.Coherent) : s.books = sim.books := by
  cases h with
  | done =>
      have hunblocked : (sim.unblocked.logged sim.wakeEvents).machine.Scheduled :=
        (Machine.coherent_afterUnblock hc).toScheduled
      exact (books_dispatched hunblocked).trans (books_unblocked hc.toScheduled)

theorem Unblocked.not_error {fault : Fault} {s : Simulation} (hc : sim.machine.Coherent)
    (hs : sim.books.Sound) (ht : sim.tick < Numeral.writingBound) :
    ¬ Unblocked sim (.error fault s) := by
  intro h
  cases h with
  | untold hw => exact hw (writable_blocked hs hc.toScheduled ht)
  | undispatched hw =>
      have hunblocked : sim.unblocked.machine.Scheduled :=
        (Machine.coherent_afterUnblock hc).toScheduled
      rw [← books_unblocked hc.toScheduled] at hs
      exact hw (writable_next? hs hunblocked ht)

/-- A call that returns makes one entry in the books or none. -/
theorem Happened.booked {x : Moment} {answer : Answer} (h : Happened sim x) (hu : sim.Underway)
    (hok : x.response = .ok answer) : sim.books.Booked x.after.books := by
  have hc := hu.coherent
  cases h with
  | stepped h =>
      cases h with
      | idle _ => exact .pass
      | @done slot b report s hrun hb h =>
          have hc' : s.elapsed.machine.Coherent := (h.moves hrun hb).coherent hc
          have hbooked := h.booked hc hrun hb
          rwa [← books_dispatched hc'.toScheduled] at hbooked
  | unblocked h =>
      have heq := h.books_eq hc
      rw [heq]
      exact .same
  | stopped | stuck => cases hok

/-- A call that stops makes none, as long as ticks can be written. -/
theorem Happened.books_eq {x : Moment} {fault : Fault} (h : Happened sim x) (hu : sim.Underway)
    (hs : sim.books.Sound) (ht : sim.tick + 1 < Numeral.writingBound)
    (hfault : x.response = .error fault) : x.after.books = sim.books := by
  have hc := hu.coherent
  cases h with
  | stepped | unblocked => cases hfault
  | stopped h =>
      cases h with
      | stopped hrun hb h => exact h.books_eq hc hrun hb hs ht
      | untold hrun hb h hw => exact absurd (h.writable_next? hc hrun hb hs ht) hw
  | stuck h => exact absurd h (Unblocked.not_error hc hs (by omega))

end Simulation
end Uniproc
