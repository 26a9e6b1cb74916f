import Uniproc.Proofs.Simulation.Telling

/-!
Windows of the log. The log of a simulation is ordered by ticks, whatever has been done with it:
what a call tells is of the tick at which it comes, or of the next one once the clock has advanced.
So the log can be read window by window.
-/

namespace Uniproc
namespace EventLog

/-- No event is of an earlier tick than one before it. -/
def Ordered (log : EventLog) : Prop :=
  log.toList.Pairwise fun d e => d.tick ≤ e.tick

/-- The same events, but only from the tick `a` up to the tick `b`. -/
def Query.within (q : Query) (a b : Int) : Query :=
  { q with notBefore := some a, notAfter := some b }

/-- What is read in windows of these lengths, the first of which starts at the tick `a` and each
other one where the one before it ends. -/
def readings (log : EventLog) (q : Query) : Int → List Nat → List Event
  | _, [] => []
  | a, n :: rest => log.query (q.within a (a + n - 1)) ++ readings log q (a + n) rest

variable {log : EventLog} {l : List Event} {a b c : Int}

theorem Query.accepts_within (q : Query) (a b : Int) (e : Event) :
    (q.within a b).accepts e = true ↔
      { q with notBefore := none, notAfter := none }.accepts e = true ∧ a ≤ e.tick ∧ e.tick ≤ b := by
  unfold accepts within
  dsimp only
  simp only [Option.all_some, Option.all_none, Bool.and_true, Bool.and_eq_true, decide_eq_true_eq,
    and_assoc]

/-- A window in which all events are leaves out none of them. -/
theorem query_within_eq (h : ∀ e ∈ log.toList, a ≤ e.tick ∧ e.tick ≤ b) (q : Query) :
    log.query (q.within a b) = log.toList.filter fun e =>
      q.minLevel.severity ≤ e.level.severity && q.source.all (e.source = ·) &&
        q.slot.all (e.slot = some ·) := by
  refine List.filter_congr fun e he => Bool.eq_iff_iff.mpr ?_
  rw [Query.accepts_within, Query.accepts, Option.all_none, Option.all_none, Bool.and_true,
    Bool.and_true, and_iff_left (h e he)]

/-- Events that are ordered can be cut behind any tick. -/
theorem filter_append_filter (h : l.Pairwise fun d e => d.tick ≤ e.tick) (b : Int) :
    l.filter (·.tick ≤ b) ++ l.filter (b < ·.tick) = l := by
  induction l with
  | nil => rfl
  | cons e rest ih =>
      rw [List.pairwise_cons] at h
      by_cases he : e.tick ≤ b
      · rw [List.filter_cons_of_pos (by simpa using he), List.filter_cons_of_neg (by simpa using he),
          List.cons_append, ih h.2]
      · have hrest : rest.filter (·.tick ≤ b) = [] := by
          rw [List.filter_eq_nil_iff]
          intro d hd
          have hle := h.1 d hd
          rw [decide_eq_true_eq]
          omega
        have hall := ih h.2
        rw [hrest, List.nil_append] at hall
        rw [List.filter_cons_of_neg (by simpa using he), hrest, List.nil_append,
          List.filter_cons_of_pos (by simpa using he), hall]

/-- Two windows of which the second starts where the first ends are one window. -/
theorem query_append_query (h : log.Ordered) (q : Query) (hab : a ≤ b + 1) (hbc : b ≤ c) :
    log.query (q.within a b) ++ log.query (q.within (b + 1) c) = log.query (q.within a c) := by
  have hfirst : log.query (q.within a b) =
      (log.toList.filter (·.tick ≤ b)).filter (q.within a c).accepts := by
    rw [query, List.filter_filter]
    refine List.filter_congr fun e _ => Bool.eq_iff_iff.mpr ?_
    rw [Bool.and_eq_true, Query.accepts_within, Query.accepts_within, decide_eq_true_eq]
    constructor
    · rintro ⟨hq, ha, hb⟩
      exact ⟨⟨hq, ha, hb.trans hbc⟩, hb⟩
    · rintro ⟨⟨hq, ha, _⟩, hb⟩
      exact ⟨hq, ha, hb⟩
  have hsecond : log.query (q.within (b + 1) c) =
      (log.toList.filter (b < ·.tick)).filter (q.within a c).accepts := by
    rw [query, List.filter_filter]
    refine List.filter_congr fun e _ => Bool.eq_iff_iff.mpr ?_
    rw [Bool.and_eq_true, Query.accepts_within, Query.accepts_within, decide_eq_true_eq]
    constructor
    · rintro ⟨hq, hb, hc⟩
      exact ⟨⟨hq, hab.trans hb, hc⟩, hb⟩
    · rintro ⟨⟨hq, _, hc⟩, hb⟩
      exact ⟨hq, hb, hc⟩
  rw [hfirst, hsecond, ← List.filter_append, filter_append_filter h]
  rfl

/-- Any number of consecutive windows are one. -/
theorem readings_eq (h : log.Ordered) (q : Query) (a : Int) (lengths : List Nat) :
    log.readings q a lengths = log.query (q.within a (a + lengths.sum - 1)) := by
  induction lengths generalizing a with
  | nil =>
      rw [readings, query, eq_comm, List.filter_eq_nil_iff]
      intro e _ haccepted
      rw [Query.accepts_within, List.sum_nil] at haccepted
      omega
  | cons n rest ih =>
      have hnext : a + n - 1 + 1 = a + (n : Int) := by omega
      have hsum : a + n + rest.sum - 1 = a + ((n :: rest).sum : Nat) - 1 := by
        rw [List.sum_cons]
        push_cast
        omega
      have hab : a ≤ a + n - 1 + 1 := by omega
      have hbc : a + n - 1 ≤ a + n + rest.sum - 1 := by omega
      rw [readings, ih, ← hsum, ← query_append_query h q hab hbc, hnext]

end EventLog

namespace Simulation

/-- The states that a simulation can come to: it can be called before it has been booted, and it can
be booted again, which fails. -/
inductive Reachable : Simulation → Prop
  | made {settings : Settings} {loader : Loader} {sim : Simulation}
      (h : ofLoader settings loader = .ok sim) : Reachable sim
  | booted {sim : Simulation} (h : Reachable sim) (program : Program) :
      Reachable (Action.stateOf (boot program sim))
  | called {sim : Simulation} (h : Reachable sim) (q : Request) : Reachable (sim.happen q).after

/-- The log is ordered, and about what has been since the first tick. -/
structure Timely (sim : Simulation) : Prop where
  ordered : sim.log.Ordered
  past : ∀ e ∈ sim.log.toList, 0 ≤ e.tick ∧ e.tick ≤ sim.tick

variable {sim : Simulation} {slot : Int} {b : ControlBlock} {d : Event} {files : FileView}
  {i? : Option Instruction}

section Outcome

theorem tick_of_mem_switchEvents (h : d ∈ sim.switchEvents) : d.tick = sim.tick := by
  unfold switchEvents at h
  split at h
  · obtain ⟨_, _, rfl⟩ := List.mem_map.mp h
    rfl
  · cases h

theorem tick_of_mem_wakeEvents (h : d ∈ sim.wakeEvents) : d.tick = sim.tick := by
  unfold wakeEvents at h
  split at h
  · obtain ⟨_, _, rfl⟩ := List.mem_map.mp h
    rfl
  · cases h

theorem Timely.logged (h : sim.Timely) (events : List Event)
    (hevents : ∀ e ∈ events, e.tick = sim.tick) : (sim.logged events).Timely where
  ordered := by
    rw [EventLog.Ordered, toList_logged, List.pairwise_append]
    refine ⟨h.ordered, List.pairwise_of_forall_mem_list fun d hd e he => ?_, fun d hd e he => ?_⟩
    · exact Int.le_of_eq ((hevents d hd).trans (hevents e he).symm)
    · exact (h.past d hd).2.trans (Int.le_of_eq (hevents e he).symm)
  past := by
    rw [toList_logged, List.forall_mem_append]
    refine ⟨h.past, fun e he => ?_⟩
    have htick : e.tick = sim.tick := hevents e he
    exact ⟨by omega, Int.le_of_eq htick⟩

theorem Timely.elapsed (h : sim.Timely) : sim.elapsed.Timely where
  ordered := h.ordered
  past e he := ⟨(h.past e he).1, (h.past e he).2.trans (by simp [Simulation.elapsed])⟩

/-- Where an outcome depends on numbers, both the state that is left and the other one are so. -/
theorem stateOf_checked {α : Type} {P : Simulation → Prop} {numbers : List Int} {stop : Simulation}
    {r : EStateM.Result Fault Simulation α} (hstop : P stop) (hr : P (Action.stateOf r)) :
    P (Action.stateOf (checked numbers stop r)) := by
  by_cases hw : Writable numbers
  · rwa [checked_of_writable hw]
  · rwa [checked_of_not_writable hw]

theorem Timely.turnOutcome (h : sim.Timely) (files : FileView) (slot : Int) (b : ControlBlock)
    (i? : Option Instruction) : (Action.stateOf (sim.turnOutcome files slot b i?)).Timely := by
  have haffect : (sim.affect slot b (sim.effectAt files i?)).Timely := ⟨h.ordered, h.past⟩
  have hnotes := haffect.logged (sim.notesOf slot b (sim.effectAt files i?)) fun e he => by
    obtain ⟨_, _, _, rfl⟩ := mem_notesOf he
    rfl
  have hevents := haffect.logged (sim.eventsAt slot b (sim.effectAt files i?) i?) fun e he => by
    obtain ⟨_, _, _, rfl⟩ := mem_eventsAt he
    rfl
  unfold Simulation.turnOutcome
  cases i? with
  | some i =>
      refine stateOf_checked h ?_
      split
      · exact haffect
      · exact stateOf_checked haffect hevents
  | none => exact stateOf_checked haffect (stateOf_checked hnotes hevents)

theorem Timely.dispatchOutcome {α : Type} (h : sim.Timely) (a : α) :
    (Action.stateOf (sim.dispatchOutcome a)).Timely := by
  have hdispatched : sim.dispatched.Timely := ⟨h.ordered, h.past⟩
  have hlogged := hdispatched.logged sim.switchEvents fun e he =>
    show e.tick = sim.tick from tick_of_mem_switchEvents he
  exact stateOf_checked hdispatched hlogged

theorem Timely.stepOutcome (h : sim.Timely) (files : FileView) :
    (Action.stateOf (sim.stepOutcome files)).Timely := by
  unfold Simulation.stepOutcome
  split
  · have hidle := h.logged sim.idleEvents fun e he => by rw [List.mem_singleton.mp he]
    exact hidle.elapsed
  · next slot _ =>
    have hfetched : (sim.fetchedBy sim.next?).Timely := by
      cases sim.next? with
      | none => exact h
      | some i => exact ⟨h.ordered, h.past⟩
    have hturn := hfetched.turnOutcome files slot ((sim.machine.table.blockAt slot).getD {})
      sim.next?
    dsimp only
    split
    · next hreport =>
      rw [hreport] at hturn
      exact hturn.elapsed.dispatchOutcome _
    · next hfault =>
      rwa [hfault] at hturn

theorem Timely.unblockOutcome (h : sim.Timely) : (Action.stateOf sim.unblockOutcome).Timely := by
  have hunblocked : sim.unblocked.Timely := ⟨h.ordered, h.past⟩
  have hwoken := hunblocked.logged sim.wakeEvents fun e he =>
    show e.tick = sim.tick from tick_of_mem_wakeEvents he
  exact stateOf_checked hunblocked (hwoken.dispatchOutcome _)

end Outcome

/-- A call keeps the log ordered, whether it returns or stops. -/
theorem Timely.happen (h : sim.Timely) (hu : sim.Underway) (q : Request) :
    (sim.happen q).after.Timely := by
  obtain ⟨call, files⟩ := q
  cases call with
  | step =>
      rw [after_step, step_eq hu.booted hu.coherent]
      exact h.stepOutcome files
  | unblock =>
      rw [after_unblock, unblock_eq hu.booted hu.coherent]
      exact h.unblockOutcome

section Reach

variable {settings : Settings} {loader : Loader}

/-- Nothing can be done with a simulation before it has been booted. -/
theorem after_of_unbooted (h : sim.booted = false) (q : Request) : (sim.happen q).after = sim := by
  have hrequire : requireBooted sim = .error (.ofRefusal .notBooted) sim := by
    simp only [requireBooted, Action.bind_get, h]
    rfl
  obtain ⟨call, files⟩ := q
  cases call with
  | step =>
      rw [after_step, step, Action.bind_of_error hrequire]
      rfl
  | unblock =>
      rw [after_unblock, unblock, Action.bind_of_error hrequire]
      rfl

theorem stateOf_boot_of_booted (h : sim.booted = true) (program : Program) :
    Action.stateOf (boot program sim) = sim := by
  unfold boot
  rw [Action.bind_get, h]
  rfl

/-- The state that booting leads to is that of a launch. -/
theorem stateOf_boot_of_made (h : ofLoader settings loader = .ok sim) (program : Program) :
    1 ≤ settings.tableCapacity ∧
      Action.stateOf (boot program sim) = launched settings loader program := by
  have hcapacity : 1 ≤ settings.tableCapacity := by
    by_contra hless
    cases h.symm.trans (ofLoader_eq_error hless loader)
  refine ⟨hcapacity, ?_⟩
  have hlaunch := launch_eq hcapacity loader program
  simp only [launch, h, bind, Except.bind] at hlaunch
  cases hboot : boot program sim with
  | ok _ s =>
      rw [hboot] at hlaunch
      exact Except.ok.inj hlaunch
  | error fault s =>
      rw [hboot] at hlaunch
      cases hlaunch

theorem timely_of_made (h : ofLoader settings loader = .ok sim) :
    sim.Timely ∧ sim.booted = false := by
  unfold ofLoader at h
  cases hmachine : Machine.ofCapacity settings.tableCapacity with
  | error fault =>
      rw [hmachine] at h
      cases h
  | ok machine =>
      rw [hmachine] at h
      cases h
      exact ⟨⟨List.Pairwise.nil, List.forall_mem_nil _⟩, rfl⟩

theorem timely_launched (settings : Settings) (loader : Loader) (program : Program) :
    (launched settings loader program).Timely := by
  constructor
  case ordered => exact List.pairwise_singleton _ _
  case past =>
    intro e he
    rw [List.mem_singleton.mp he]
    exact ⟨Int.le_refl 0, Int.le_refl 0⟩

theorem Reachable.timely (h : sim.Reachable) :
    sim.Timely ∧ (sim.Underway ∨ ∃ settings loader, ofLoader settings loader = .ok sim) := by
  induction h with
  | made h => exact ⟨(timely_of_made h).1, .inr ⟨_, _, h⟩⟩
  | @booted sim _ program ih =>
      obtain ⟨htimely, hu | ⟨settings, loader, hmade⟩⟩ := ih
      · rw [stateOf_boot_of_booted hu.booted]
        exact ⟨htimely, .inl hu⟩
      · obtain ⟨hcapacity, hboot⟩ := stateOf_boot_of_made hmade program
        rw [hboot]
        exact ⟨timely_launched settings loader program,
          .inl (underway_launched hcapacity loader program)⟩
  | @called sim _ q ih =>
      obtain ⟨htimely, hu | ⟨settings, loader, hmade⟩⟩ := ih
      · exact ⟨htimely.happen hu q, .inl ((happened hu q).underway hu)⟩
      · rw [after_of_unbooted (timely_of_made hmade).2]
        exact ⟨htimely, .inr ⟨settings, loader, hmade⟩⟩

theorem Reachable.run (h : sim.Reachable) (requests : List Request) :
    (run sim requests).Reachable := by
  induction requests generalizing sim with
  | nil => exact h
  | cons q rest ih => exact ih (h.called q)

theorem reachable_launched (h : 1 ≤ settings.tableCapacity) (loader : Loader) (program : Program) :
    (launched settings loader program).Reachable := by
  cases hmade : ofLoader settings loader with
  | error fault =>
      have hlaunch := launch_eq h loader program
      rw [launch, hmade] at hlaunch
      cases hlaunch
  | ok sim =>
      rw [← (stateOf_boot_of_made hmade program).2]
      exact (Reachable.made hmade).booted program

end Reach

/-- In every state that a simulation can come to, what is read of the log in one window and then in
the one that starts where it ends, is what is read in both of them as one. So it is with any number
of windows. A window that reaches from the first tick to this one has all events of the log that
are of the level, the source and the slot asked for. -/
theorem query_windows_of_reachable (h : sim.Reachable) (q : EventLog.Query) :
    (∀ {a b c : Int}, a ≤ b + 1 → b ≤ c →
      sim.log.query (q.within a b) ++ sim.log.query (q.within (b + 1) c) =
        sim.log.query (q.within a c)) ∧
    (∀ (a : Int) (lengths : List Nat),
      sim.log.readings q a lengths = sim.log.query (q.within a (a + lengths.sum - 1))) ∧
    ∀ {a c : Int}, a ≤ 0 → sim.tick ≤ c →
      sim.log.query (q.within a c) = sim.log.toList.filter fun e =>
        q.minLevel.severity ≤ e.level.severity && q.source.all (e.source = ·) &&
          q.slot.all (e.slot = some ·) := by
  have hordered := h.timely.1.ordered
  refine ⟨fun hab hbc => EventLog.query_append_query hordered q hab hbc,
    fun a lengths => EventLog.readings_eq hordered q a lengths, fun {a c} ha hc => ?_⟩
  refine EventLog.query_within_eq (fun e he => ?_) q
  obtain ⟨hstart, hend⟩ := h.timely.1.past e he
  exact ⟨ha.trans hstart, hend.trans hc⟩

/-- Of nine events two are told by the scheduler while a child ends. -/
theorem query_windows_of_reachable_refill :
    (run (launched {} {} refillDemo) refillDemoCalls).Reachable ∧
    (run (launched {} {} refillDemo) refillDemoCalls).log.toList.map (·.tick) =
      [0, 0, 1, 2, 2, 2, 3, 3, 3] ∧
    ((run (launched {} {} refillDemo) refillDemoCalls).log.query
      (.within { source := some "scheduler" } 2 2)).map (·.message) =
        ["Process 1 dispatched", "Process 1 (pid 1) terminated, turnaround 3"] ∧
    (∀ {a b c : Int}, a ≤ b + 1 → b ≤ c →
      (run (launched {} {} refillDemo) refillDemoCalls).log.query (.within {} a b) ++
        (run (launched {} {} refillDemo) refillDemoCalls).log.query (.within {} (b + 1) c) =
      (run (launched {} {} refillDemo) refillDemoCalls).log.query (.within {} a c)) ∧
    (∀ (a : Int) (lengths : List Nat),
      (run (launched {} {} refillDemo) refillDemoCalls).log.readings {} a lengths =
        (run (launched {} {} refillDemo) refillDemoCalls).log.query
          (.within {} a (a + lengths.sum - 1))) ∧
    ∀ {a c : Int}, a ≤ 0 → (run (launched {} {} refillDemo) refillDemoCalls).tick ≤ c →
      (run (launched {} {} refillDemo) refillDemoCalls).log.query (.within {} a c) =
        (run (launched {} {} refillDemo) refillDemoCalls).log.toList.filter fun e =>
          ({} : EventLog.Query).minLevel.severity ≤ e.level.severity &&
            ({} : EventLog.Query).source.all (e.source = ·) &&
            ({} : EventLog.Query).slot.all (e.slot = some ·) := by
  have hcapacity : (1 : Int) ≤ ({} : Settings).tableCapacity := by decide
  have hreachable := (reachable_launched hcapacity {} refillDemo).run refillDemoCalls
  exact ⟨hreachable, by decide +kernel, by decide +kernel,
    query_windows_of_reachable hreachable {}⟩

end Simulation
end Uniproc
