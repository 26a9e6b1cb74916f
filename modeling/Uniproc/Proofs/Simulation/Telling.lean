import Uniproc.Proofs.Simulation.Isolation
import Uniproc.Proofs.Simulation.Lineage

/-!
What one call tells the log. It tells of the state that it finds, and of that only processes
that are there; then, when the clock has advanced, of the process that has got the CPU. A step
tells once what it reports, and before that if the process ends.
-/

namespace Uniproc

/-- The event tells what the step has reported. -/
def Event.Reports (e : Event) (r : StepReport) : Prop :=
  e.source = "cpu" ∧ e.tick = r.tick ∧ e.message = r.message

instance (e : Event) (r : StepReport) : Decidable (e.Reports r) :=
  inferInstanceAs (Decidable (_ ∧ _ ∧ _))

theorem Event.filter_reports_eq_nil {l : List Event} {r : StepReport}
    (h : ∀ d ∈ l, ¬ d.Reports r) : l.filter (fun d => d.Reports r) = [] := by
  rw [List.filter_eq_nil_iff]
  intro d hd
  rw [decide_eq_true_eq]
  exact h d hd

/-- The event tells that process `p` has ended. -/
def Event.Ends (e : Event) (p : Int) : Prop :=
  e.source = "scheduler" ∧ e.pid = some p ∧ ∃ slot turnaround : Int, e.slot = some slot ∧
    e.message = s!"Process {slot} (pid {p}) terminated, turnaround {turnaround}"

namespace Simulation

/-- The event is of this tick, and about nobody or about a process that is there. -/
def Current (sim : Simulation) (e : Event) : Prop :=
  e.tick = sim.tick ∧ ((e.slot = none ∧ e.pid = none) ∨
    ∃ slot b, sim.machine.table.Live slot b ∧ e.slot = some slot ∧ e.pid = some b.pid)

/-- The scheduler tells of a process that is there and goes on. -/
structure GoesOn (sim : Simulation) (e : Event) : Prop where
  current : sim.Current e
  source_eq : e.source = "scheduler"
  not_ends (p : Int) : ¬ e.Ends p

def Moment.report? (x : Moment) : Option StepReport :=
  match x.response with
  | .ok (.report r) => some r
  | _ => none

/-- What a call has told: `first` of the state that it found and `last` of the one that it has
left. -/
structure Told (x : Moment) (first last : List Event) : Prop where
  log_eq : x.after.log.toList = x.before.log.toList ++ (first ++ last)
  first_current : ∀ d ∈ first, x.before.Current d
  first_ends {p : Int} : ∀ d ∈ first, d.Ends p → p ∉ x.after.livePids
  last_goesOn : ∀ d ∈ last, x.after.GoesOn d
  ended {p : Int} : p ∈ x.before.livePids → p ∉ x.after.livePids →
    ∃ r d c, x.report? = some r ∧ first = [d, c] ∧ d.Ends p ∧ c.pid = some p ∧ c.Reports r
  reported {r : StepReport} : x.report? = some r →
    r.tick = x.before.tick ∧ x.after.tick = x.before.tick + 1 ∧
      ∃ c, first.filter (fun d => d.Reports r) = [c] ∧ c.slot = r.slot ∧ c.pid = r.pid
  unreported : x.report? = none →
    x.after.tick = x.before.tick ∧ ∀ d ∈ first, x.before.GoesOn d

variable {sim : Simulation} {slot : Int} {b : ControlBlock} {e : Effect}
  {i? : Option Instruction} {d : Event} {p : Int}

theorem current_entry (hlive : sim.machine.table.Live slot b) (level : Level)
    (source message : String) : sim.Current (sim.entry level source message slot b) :=
  ⟨rfl, .inr ⟨slot, b, hlive, rfl, rfl⟩⟩

theorem GoesOn.logged (h : sim.GoesOn d) (events : List Event) : (sim.logged events).GoesOn d :=
  ⟨h.current, h.source_eq, h.not_ends⟩

theorem GoesOn.source_ne (h : sim.GoesOn d) : d.source ≠ "cpu" := by
  rw [h.source_eq]
  decide

theorem mem_livePids_of_current (h : sim.Current d) (hp : d.pid = some p) :
    p ∈ sim.livePids := by
  obtain ⟨_, ⟨_, hnone⟩ | ⟨slot, b, hlive, _, hpid⟩⟩ := h
  · cases hnone.symm.trans hp
  · exact mem_livePids_iff.mpr ⟨slot, b, hlive, Option.some.inj (hpid.symm.trans hp)⟩

theorem not_ends_of_cpu (h : d.source = "cpu") : ¬ d.Ends p := by
  intro hends
  have hsource := hends.1
  rw [h] at hsource
  exact absurd hsource (by decide)

/-- What else is told of a process does not read as if it had ended. -/
theorem not_ends_entry {what : String} (hwhat : what.toList[1]? ≠ some '(') (level : Level)
    (source : String) :
    ¬ (sim.entry level source ("Process " ++ toString slot ++ what) slot b).Ends p := by
  intro hends
  obtain ⟨_, _, other, turnaround, hslot, hmessage⟩ := hends
  have hother : slot = other := Option.some.inj hslot
  subst hother
  change "Process " ++ toString slot ++ what = "Process " ++ toString slot ++ " (pid " ++
    toString p ++ ") terminated, turnaround " ++ toString turnaround at hmessage
  have hchars := congrArg String.toList hmessage
  simp only [String.toList_append, List.append_assoc, List.append_cancel_left_eq] at hchars
  rw [hchars] at hwhat
  exact hwhat rfl

/-- The process that gets the CPU is there. -/
theorem goesOn_of_mem_switchEvents (hc : sim.machine.Coherent) (hd : d ∈ sim.switchEvents) :
    sim.dispatched.GoesOn d := by
  obtain ⟨hnext, _⟩ | ⟨slot, b, rest, hnext, _, _, hb, _, heq⟩ := hc.afterDispatch_cases
  · rw [switchEvents, hnext] at hd
    cases hd
  · rw [switchEvents_eq hnext hb, List.mem_singleton] at hd
    have hlive : sim.dispatched.machine.table.Live slot { b with state := .running } := by
      refine ⟨?_, rfl⟩
      rw [dispatched, heq]
      exact blockAt_switched hb rest
    have hcurrent := current_entry hlive .debug "scheduler" s!"Process {slot} dispatched"
    rw [hd]
    have hwhat : " dispatched".toList[1]? ≠ some '(' := by decide
    exact ⟨hcurrent, rfl, fun p => not_ends_entry hwhat .debug "scheduler"⟩

theorem goesOn_of_mem_wakeEvents (hc : sim.machine.Coherent) (hd : d ∈ sim.wakeEvents) :
    sim.GoesOn d := by
  obtain ⟨hblocked, _⟩ | ⟨slot, b, rest, hblocked, hb, hstate, _⟩ := hc.afterUnblock_cases
  · rw [wakeEvents, hblocked] at hd
    cases hd
  · rw [wakeEvents_eq hblocked hb, List.mem_singleton] at hd
    have hlive : sim.machine.table.Live slot b :=
      ⟨hb, (ProcessTable.isFree_eq_false_iff b).mpr (by simp [hstate])⟩
    rw [hd]
    have hwhat : " unblocked".toList[1]? ≠ some '(' := by decide
    exact ⟨current_entry hlive _ _ _, rfl, fun p => not_ends_entry hwhat .debug "scheduler"⟩

section Turn

theorem mem_notesOf (h : d ∈ sim.notesOf slot b e) :
    ∃ level source message, d = sim.entry level source message slot b := by
  cases e with
  | finish | refuse | keep _ | lose _ => exact ⟨_, _, _, List.mem_singleton.mp h⟩
  | _ => cases h

/-- A turn tells of nobody but the process that has it. -/
theorem mem_eventsAt (h : d ∈ sim.eventsAt slot b e i?) :
    ∃ level source message, d = sim.entry level source message slot b := by
  rw [eventsAt, List.mem_append, List.mem_singleton] at h
  obtain h | h := h
  · exact mem_notesOf h
  · exact ⟨_, _, _, h⟩

theorem effect_of_ends (h : d ∈ sim.eventsAt slot b e i?) (hends : d.Ends p) :
    e = .finish ∧ p = b.pid := by
  obtain ⟨level, source, message, hentry⟩ := mem_eventsAt h
  have hpid : some b.pid = some p := by
    have hat := hends.2.1
    rwa [hentry] at hat
  refine ⟨?_, (Option.some.inj hpid).symm⟩
  rw [eventsAt, List.mem_append, List.mem_singleton] at h
  obtain h | h := h
  · have hsource := hends.1
    cases e with
    | finish => rfl
    | refuse | keep _ | lose _ =>
        rw [List.mem_singleton.mp h] at hsource
        exact absurd hsource (by simp [entry])
    | _ => cases h
  · exact absurd hends (not_ends_of_cpu (by rw [h]; rfl))

/-- Every report begins with the time. -/
theorem head?_messageAt (sim : Simulation) (slot : Int) (e : Effect) (i? : Option Instruction) :
    (sim.messageAt slot e i?).toList.head? = some 'T' := by
  have hheading : (sim.headingOf slot).toList.head? = some 'T' := by
    change ("Time: " ++ toString sim.tick ++ ", Process " ++ toString slot).toList.head? = _
    simp
  cases i? with
  | none => simp [messageAt, hheading, toString]
  | some i => cases e <;> simp [messageAt, messageOf, plainOf, hheading, toString]

/-- A report is told once: that there is no slot for a child does not read like one. -/
theorem filter_reports_eventsAt (sim : Simulation) (slot : Int) (b : ControlBlock) (e : Effect)
    (i? : Option Instruction) :
    ((sim.eventsAt slot b e i?).filter fun d => d.Reports (sim.turnReport slot b e i?)) =
      [sim.entry (if i?.isSome then .info else .warning) "cpu" (sim.messageAt slot e i?) slot b] := by
  have hnotes : (sim.notesOf slot b e).filter
      (fun d => d.Reports (sim.turnReport slot b e i?)) = [] := by
    apply Event.filter_reports_eq_nil
    intro d hd hreports
    obtain ⟨hsource, _, hmessage⟩ := hreports
    cases e with
    | finish | keep _ | lose _ =>
        rw [List.mem_singleton.mp hd] at hsource
        exact absurd hsource (by simp [entry])
    | refuse =>
        -- the only note that the CPU itself makes
        have hhead : d.message.toList.head? = some 'T' := by
          rw [hmessage]
          exact head?_messageAt sim slot .refuse i?
        rw [List.mem_singleton.mp hd] at hhead
        have hmessage : Fault.noFreeSlot.message.toString.toList.head? = some 'N' := rfl
        cases hmessage.symm.trans hhead
    | _ => cases hd
  rw [eventsAt, List.filter_append, hnotes, List.nil_append]
  exact List.filter_cons_of_pos (decide_eq_true ⟨rfl, rfl, rfl⟩)

theorem Turn.told {x : Moment} {mid : Simulation} {last : List Event} (h : Turn x slot b mid e)
    (hx : x.Entered) (hreport : x.report? = some (mid.turnReport slot b e i?))
    (htick : x.after.tick = x.before.tick + 1)
    (hlog : x.after.log.toList = x.before.log.toList ++ (mid.eventsAt slot b e i? ++ last))
    (hlast : ∀ d ∈ last, x.after.GoesOn d) :
    Told x (mid.eventsAt slot b e i?) last := by
  have hlive := live_running hx.underway.coherent.toScheduled h.running h.block
  have hmid : mid.tick = x.before.tick := by rw [h.mid_eq, tick_fetchedBy]
  constructor
  case log_eq => exact hlog
  case first_current =>
    intro d hd
    obtain ⟨level, source, message, rfl⟩ := mem_eventsAt hd
    exact ⟨congrArg Int.ofNat hmid, .inr ⟨slot, b, hlive, rfl, rfl⟩⟩
  case first_ends =>
    intro p d hd hends
    obtain ⟨hfinish, rfl⟩ := effect_of_ends hd hends
    exact (h.ended_iff hx (mem_livePids_iff.mpr ⟨slot, b, hlive, rfl⟩)).mpr ⟨hfinish, rfl⟩
  case last_goesOn => exact hlast
  case ended =>
    intro p hp hnot
    obtain ⟨rfl, rfl⟩ := (h.ended_iff hx hp).mp hnot
    exact ⟨_, _, _, hreport, rfl, ⟨rfl, rfl, slot, _, rfl, rfl⟩, rfl, rfl, rfl, rfl⟩
  case reported =>
    intro r hr
    obtain rfl := Option.some.inj (hreport.symm.trans hr)
    exact ⟨hmid, htick, _, filter_reports_eventsAt mid slot b e i?, rfl, rfl⟩
  case unreported =>
    intro hnone
    cases hnone.symm.trans hreport

end Turn

theorem told_idle (sim : Simulation) (files : FileView) :
    Told ⟨sim, ⟨.step, files⟩, .ok (.report ⟨sim.tick, none, none, none, noProcessRunning⟩),
      (sim.logged sim.idleEvents).elapsed⟩ sim.idleEvents [] := by
  constructor
  case log_eq =>
    rw [List.append_nil]
    exact toList_logged sim sim.idleEvents
  case first_current =>
    intro d hd
    rw [List.mem_singleton.mp hd]
    exact ⟨rfl, .inl ⟨rfl, rfl⟩⟩
  case first_ends =>
    intro p d hd hends
    exact absurd hends (not_ends_of_cpu (by rw [List.mem_singleton.mp hd]))
  case ended => exact fun hp hnot => absurd hp hnot
  case reported =>
    intro r hr
    cases hr
    refine ⟨rfl, rfl, _, List.filter_cons_of_pos (decide_eq_true ⟨rfl, rfl, rfl⟩), rfl, rfl⟩
  case unreported =>
    intro hnone
    cases hnone
  case last_goesOn => simp

theorem told_wake {x : Moment} {first last : List Event} (hreport : x.report? = none)
    (htick : x.after.tick = x.before.tick) (hlive : x.after.livePids = x.before.livePids)
    (hlog : x.after.log.toList = x.before.log.toList ++ (first ++ last))
    (hfirst : ∀ d ∈ first, x.before.GoesOn d)
    (hlast : ∀ d ∈ last, x.after.GoesOn d) : Told x first last := by
  constructor
  case log_eq => exact hlog
  case first_current => exact fun d hd => (hfirst d hd).current
  case first_ends => exact fun d hd hends => absurd hends ((hfirst d hd).not_ends _)
  case last_goesOn => exact hlast
  case ended => exact fun hp hnot => absurd (hlive ▸ hp) hnot
  case reported =>
    intro r hr
    cases hreport.symm.trans hr
  case unreported => exact fun _ => ⟨htick, hfirst⟩

/-- Every call that returns tells its part. -/
theorem Moment.Entered.told {x : Moment} {answer : Answer} (hx : x.Entered)
    (hok : x.response = .ok answer) : ∃ first last, Told x first last := by
  obtain ⟨before, request, response, after⟩ := x
  have hc : before.machine.Coherent := hx.underway.coherent
  have hhappened : Happened before ⟨before, request, response, after⟩ := hx.happened
  cases hhappened with
  | @stepped files report s h =>
      cases h with
      | idle => exact ⟨_, _, told_idle before _⟩
      | @done slot b report s hrun hb h =>
          have hs : s.elapsed.machine.Coherent := (h.moves hrun hb).coherent hc
          cases h with
          | @done i? mid e hnext hmid he hdone =>
              subst hnext
              have hreport : ⟨before.tick, some slot, some b.pid, before.next?,
                  mid.messageAt slot e before.next?⟩ = mid.turnReport slot b e before.next? := by
                rw [turnReport, ← hmid, tick_fetchedBy]
              have hlog := toList_logged mid (mid.eventsAt slot b e before.next?)
              have hmidlog : mid.log = before.log := by
                rw [← hmid]
                cases before.next? <;> rfl
              refine ⟨_, _, Turn.told ⟨hrun, hb, rfl, rfl, hmid.symm, he.symm, hdone, rfl⟩ hx
                (congrArg some hreport) (congrArg (· + 1) (hmid ▸ tick_fetchedBy before _)) ?_
                fun d hd => (goesOn_of_mem_switchEvents hs hd).logged _⟩
              rw [← List.append_assoc, ← hmidlog, ← hlog]
              exact toList_logged _ _
  | unblocked h =>
      cases h with
      | done =>
          have hunblocked := Machine.coherent_afterUnblock hc
          have hdispatched : before.unblocked.dispatched.books = before.unblocked.books :=
            books_dispatched hunblocked.toScheduled
          have hbooks := hdispatched.trans (books_unblocked hc.toScheduled)
          refine ⟨before.wakeEvents, _, told_wake rfl rfl ?_ ?_
            (fun d hd => goesOn_of_mem_wakeEvents hc hd)
            fun d hd => ((goesOn_of_mem_switchEvents hunblocked hd).logged _).logged _⟩
          · rw [livePids_eq, livePids_eq]
            exact congrArg (·.roster.pids) hbooks
          · rw [← List.append_assoc, ← toList_logged before before.wakeEvents]
            exact toList_logged (before.unblocked.logged before.wakeEvents).dispatched _
  | stopped | stuck => cases hok

end Simulation
end Uniproc
