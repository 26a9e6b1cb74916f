import Mathlib.Algebra.BigOperators.Group.List.Basic
import Uniproc.Proofs.Simulation.History

/-!
Turnaround accounting. Every tick is served to each process that there is, whether it runs
or waits, and the turnarounds account for just that: as processes end, nothing of their
time is lost or counted twice.
-/

namespace Uniproc

/-- At most one process ends in a call, and its turnaround is at least one tick. -/
theorem Books.Booked.turnaround_cases {k k' : Books} (h : k.Booked k') (hs : k.Sound) :
    k'.turnaround = k.turnaround ∨ k'.turnaround.terminated = k.turnaround.terminated + 1 ∧
      k.turnaround.total + 1 ≤ k'.turnaround.total := by
  cases h with
  | same | pass | fork => exact .inl rfl
  | finish hi =>
      have hstarted := hs.started hi
      refine .inr ⟨rfl, ?_⟩
      simp only [Turnaround.record, Turnaround.ofTicks]
      omega

namespace Simulation

/-- The turnarounds account for all the time of all processes of a run: `now` is the state
that the calls in `past` have led to. -/
structure Accounted (past : List Moment) (now : Simulation) : Prop where
  /-- Whoever was made has ended or is there. -/
  population : now.turnaround.terminated + (now.snapshot.processes.length : Int) =
    1 + (past.countP (·.forked) : Int)
  /-- A tick counts once for each process that is there when it begins or made in it. -/
  served : now.turnaround.total +
      (now.snapshot.processes.map fun v => (now.tick : Int) - v.startTime).sum =
    ((past.filter (·.advances)).map fun x =>
      (x.before.snapshot.processes.length : Int) + if x.forked then 1 else 0).sum
  /-- One call has advanced the clock from each tick. -/
  ticks : (past.filter (·.advances)).map (·.before.tick) = List.range now.tick
  started : ∀ v ∈ now.snapshot.processes, v.startTime ≤ now.tick
  recorded : ∀ x ∈ past, x.after.turnaround = x.before.turnaround ∨
    x.after.turnaround.terminated = x.before.turnaround.terminated + 1 ∧
    x.before.turnaround.total + 1 ≤ x.after.turnaround.total
  terminated_le : now.turnaround.terminated ≤ now.turnaround.total
  total_le : now.turnaround.total ≤ now.turnaround.terminated * now.tick

variable {sim : Simulation} {requests : List Request}

theorem served_eq (sim : Simulation) : sim.books.served = sim.turnaround.total +
    (sim.snapshot.processes.map fun v => (sim.tick : Int) - v.startTime).sum := by
  rw [Books.served, ← map_identity_snapshot, List.map_map]
  rfl

theorem Moment.Entered.served_eq {x : Moment} (hx : x.Entered) : x.after.books.served =
    x.before.books.served + if x.advances then
      (x.before.snapshot.processes.length : Int) + if x.forked then 1 else 0 else 0 := by
  have hnext := hx.nextPid_eq
  obtain heq | ⟨htick, hserved⟩ := hx.booked.served
  · have htick : x.after.tick = x.before.tick := congrArg (·.tick) heq
    rw [heq, Moment.advances, htick]
    simp
  · have hadvances : x.advances = true := by
      have htick' : x.after.tick = x.before.tick + 1 := htick
      simp [Moment.advances, htick']
    rw [hserved, hadvances, if_pos rfl, length_snapshot]
    change x.after.books.roster.nextPid = x.before.books.roster.nextPid + _ at hnext
    omega

/-- Numbers are drawn for the children of forks only. -/
theorem nextPid_run (h : ∀ x ∈ history sim requests, x.Entered) :
    (run sim requests).machine.table.nextPid =
      sim.machine.table.nextPid + ((history sim requests).countP (·.forked) : Int) := by
  have hcount : ((history sim requests).map fun x => if x.forked then (1 : Int) else 0).sum =
      (history sim requests).countP (·.forked) := by
    rw [List.sum_map_ite]
    simp [List.countP_eq_length_filter]
  rw [← hcount]
  exact run_eq_add_sum (f := fun s => s.machine.table.nextPid) fun x hx => (h x hx).nextPid_eq

/-- What a run serves it serves tick by tick. -/
theorem served_run (h : ∀ x ∈ history sim requests, x.Entered) :
    (run sim requests).books.served = sim.books.served +
      (((history sim requests).filter (·.advances)).map fun x =>
        (x.before.snapshot.processes.length : Int) + if x.forked then 1 else 0).sum := by
  have hserved := run_eq_add_sum (f := fun s => s.books.served) fun x hx => (h x hx).served_eq
  rw [List.sum_map_ite] at hserved
  simpa using hserved

/-- The calls that advance the clock take the ticks one after the other. -/
theorem ticks_history
    (h : ∀ x ∈ history sim requests, x.before.tick ≤ x.after.tick ∧
      x.after.tick ≤ x.before.tick + 1) :
    ((history sim requests).filter (·.advances)).map (·.before.tick) =
      List.range' sim.tick ((run sim requests).tick - sim.tick) := by
  induction requests generalizing sim with
  | nil => simp [history, run]
  | cons q rest ih =>
      have hrun : run sim (q :: rest) = run (sim.happen q).after rest := rfl
      rw [history, List.forall_mem_cons] at h
      obtain ⟨⟨hle, hlt⟩, hrest⟩ := h
      have hlater : (sim.happen q).after.tick ≤ (run (sim.happen q).after rest).tick :=
        run_of_history (P := fun s => (sim.happen q).after.tick ≤ s.tick)
          (fun x hx hp => hp.trans (hrest x hx).1) (Nat.le_refl _)
      have hbefore : (sim.happen q).before.tick = sim.tick := rfl
      rw [hbefore] at hle hlt
      rw [history, hrun, List.filter_cons]
      by_cases hadvances : (sim.happen q).advances = true
      · have htick : (sim.happen q).after.tick = sim.tick + 1 := by
          rw [Moment.advances, decide_eq_true_eq, hbefore] at hadvances
          omega
        have hlength : (run (sim.happen q).after rest).tick - sim.tick =
            (run (sim.happen q).after rest).tick - (sim.tick + 1) + 1 := by omega
        rw [if_pos hadvances, List.map_cons, ih hrest, hlength, List.range'_succ, htick]
        rfl
      · have htick : (sim.happen q).after.tick = sim.tick := by
          rw [Moment.advances, decide_eq_true_eq, hbefore] at hadvances
          omega
        rw [if_neg hadvances, ih hrest, htick]

variable {settings : Settings}

theorem accounted_of_launch (h : 1 ≤ settings.tableCapacity) (loader : Loader)
    (program : Program) (requests : List Request)
    (hlength : requests.length < Numeral.writingBound) :
    ∃ sim, launch settings loader program = .ok sim ∧
      Accounted (history sim requests) (run sim requests) := by
  refine ⟨_, launch_eq h loader program, ?_⟩
  generalize hsim : launched settings loader program = sim
  have hunderway : sim.Underway := hsim ▸ underway_launched h loader program
  have hsound : sim.books.Sound := hsim ▸ sound_launched h loader program
  have htick : sim.tick = 0 := by rw [← hsim]; rfl
  have hentered : ∀ x ∈ history sim requests, x.Entered :=
    entered_of_mem_history hunderway hsound (.inr (by omega))
  have hnow : (run sim requests).books.Sound :=
    run_of_history (P := fun s => s.books.Sound) (fun x hx _ => (hentered x hx).booked.sound
      (hentered x hx).sound) hsound
  constructor
  case population =>
    have hnext := nextPid_run hentered
    have hfirst : sim.machine.table.nextPid = 1 := by
      rw [← hsim]
      exact congrArg (·.nextPid) (roster_launched h)
    have hbalance := hnow.balance
    rw [length_snapshot]
    change _ = (run sim requests).machine.table.nextPid at hbalance
    rw [hfirst] at hnext
    exact hbalance.trans hnext
  case served =>
    have hserved := served_run hentered
    have hfirst : sim.books.served = 0 := by
      rw [← hsim, Books.served, sum_launched h]
      rfl
    rw [hfirst, served_eq, Int.zero_add] at hserved
    exact hserved
  case ticks =>
    have hticks := ticks_history fun x hx => (hentered x hx).booked.tick_bounds
    rwa [htick, Nat.sub_zero, ← List.range_eq_range'] at hticks
  case started =>
    intro v hv
    have hmem : v.identity ∈ (run sim requests).books.roster.processes := by
      rw [← map_identity_snapshot]
      exact List.mem_map_of_mem hv
    obtain ⟨slot, hslot⟩ := Roster.mem_processes_iff.mp hmem
    exact (hnow.started hslot).2
  case recorded =>
    intro x hx
    exact (hentered x hx).booked.turnaround_cases (hentered x hx).sound
  case terminated_le => exact hnow.terminated_le
  case total_le => exact hnow.total_le

/-- The first child has ended after three ticks, and another process has its slot. -/
theorem accounted_of_launch_refillDemo : (1 : Int) ≤ ({} : Settings).tableCapacity ∧
    refillDemoCalls.length < Numeral.writingBound ∧
    (run (launched {} {} refillDemo) refillDemoCalls).turnaround = ⟨3, 1⟩ ∧
    (run (launched {} {} refillDemo) refillDemoCalls).snapshot.processes.map (·.pid) = [0, 2] ∧
    ∃ sim, launch {} {} refillDemo = .ok sim ∧
      Accounted (history sim refillDemoCalls) (run sim refillDemoCalls) :=
  ⟨by decide, Numeral.lt_writingBound (by decide), by decide +kernel, by decide +kernel,
    accounted_of_launch (by decide) {} refillDemo _ (Numeral.lt_writingBound (by decide))⟩

end Simulation
end Uniproc
