import Uniproc.Proofs.Simulation.Telling

/-!
The log as a trace of a whole run. Ticks do not go back in it, and neither do the processes of
a slot; an end is told once, with nothing of that process after the report of the same step;
every report is told once; and what has been told stays.
-/

namespace Uniproc

/-- In the order of a trace: not later and, if it is of the same slot, not about a process that
was made later. -/
structure Event.Precedes (d e : Event) : Prop where
  tick_le : d.tick ≤ e.tick
  pid_le {slot p q : Int} : d.slot = some slot → e.slot = some slot → d.pid = some p →
    e.pid = some q → p ≤ q

namespace Simulation

/-- The event is not of a later tick, and about nobody or about a process that has been made,
which is in its slot now or was there before the one that is or was last. -/
def Recalls (sim : Simulation) (e : Event) : Prop :=
  e.tick ≤ sim.tick ∧ ((e.slot = none ∧ e.pid = none) ∨
    ∃ slot p b, sim.machine.table.blockAt slot = some b ∧ p ≤ b.pid ∧
      p < sim.machine.table.nextPid ∧ e.slot = some slot ∧ e.pid = some p)

/-- Call `x` is the one in which process `p` has ended. In the log stand that, then the report
`r` of the call, then `later`; nothing else tells the end, and `later` does not tell of the
process. -/
structure Closing (x : Moment) (p : Int) (log : List Event) (r : StepReport) (d c : Event)
    (later : List Event) : Prop where
  before : p ∈ x.before.livePids
  after : p ∉ x.after.livePids
  report?_eq : x.report? = some r
  log_eq : log = x.before.log.toList ++ d :: c :: later
  ends : d.Ends p
  tick_eq : d.tick = r.tick
  reports : c.Reports r
  pid_eq : c.pid = some p
  once : ∀ e ∈ x.before.log.toList ++ c :: later, ¬ e.Ends p
  silent : ∀ e ∈ later, e.pid ≠ some p

/-- The log of the state `now`, over the moments so far. -/
structure Chronicle (past : List Moment) (now : Simulation) : Prop where
  ordered : now.log.toList.Pairwise Event.Precedes
  recalled : ∀ d ∈ now.log.toList, now.Recalls d
  elapsed : ∀ d ∈ now.log.toList, d.source = "cpu" → d.tick < now.tick
  ended {p : Int} : ∀ d ∈ now.log.toList, d.Ends p → p ∉ now.livePids
  closed {p : Int} : 0 ≤ p → p < now.machine.table.nextPid → p ∉ now.livePids →
    ∃ x ∈ past, ∃ r d c later, Closing x p now.log.toList r d c later
  reported {x : Moment} {r : StepReport} : x ∈ past → x.report? = some r → r.tick < now.tick ∧
    ∃ c, now.log.toList.filter (fun d => d.Reports r) = [c] ∧ c.slot = r.slot ∧ c.pid = r.pid

variable {sim : Simulation} {x : Moment} {past : List Moment} {d e : Event} {p : Int}

theorem Current.recalls (h : sim.Current d) (hs : sim.books.Sound) : sim.Recalls d := by
  obtain ⟨htick, hnobody | ⟨slot, b, hlive, hslot, hpid⟩⟩ := h
  · exact ⟨Int.le_of_eq htick, .inl hnobody⟩
  · have hlt := lt_nextPid_of_live hs (mem_livePids_iff.mpr ⟨slot, b, hlive, rfl⟩)
    exact ⟨Int.le_of_eq htick, .inr ⟨slot, b.pid, b, hlive.1, Int.le_refl _, hlt, hslot, hpid⟩⟩

theorem Recalls.precedes (hd : sim.Recalls d) (he : sim.Current e) : d.Precedes e := by
  obtain ⟨htick, hd⟩ := hd
  obtain ⟨hnow, he⟩ := he
  refine ⟨hnow ▸ htick, fun {slot p q} hslot hother hp hq => ?_⟩
  obtain ⟨hnone, _⟩ | ⟨place, p', b, hb, hle, _, hplace, hp'⟩ := hd
  · cases hnone.symm.trans hslot
  · obtain ⟨hnone, _⟩ | ⟨place', c, hlive, hplace', hq'⟩ := he
    · cases hnone.symm.trans hother
    · obtain rfl : place = slot := Option.some.inj (hplace.symm.trans hslot)
      obtain rfl : place' = place := Option.some.inj (hplace'.symm.trans hother)
      obtain rfl : b = c := Option.some.inj (hb.symm.trans hlive.1)
      obtain rfl : p' = p := Option.some.inj (hp'.symm.trans hp)
      obtain rfl : b.pid = q := Option.some.inj (hq'.symm.trans hq)
      exact hle

/-- A number that comes to a slot is higher than the one that was there. -/
theorem Recalls.next (hd : x.before.Recalls d) (hx : x.Entered) : x.after.Recalls d := by
  obtain ⟨htick, hd⟩ := hd
  have hticks : x.before.tick ≤ x.after.tick := hx.booked.tick_bounds.1
  refine ⟨by omega, hd.imp_right ?_⟩
  intro hd
  obtain ⟨slot, p, b, hb, hle, hlt, hslot, hpid⟩ := hd
  have hat : x.before.machine.identityAt slot = some b.identity := by
    rw [Machine.identityAt, hb, Option.map_some]
  cases hx.happened.course.birth hx.underway.coherent with
  | nobody _ hidentity hnext =>
      have hafter := (hidentity slot).trans hat
      obtain ⟨c, hc, hsame⟩ := Option.map_eq_some_iff.mp hafter
      have hpids : c.pid = b.pid := congrArg Identity.pid hsame
      exact ⟨slot, p, c, hc, by omega, by omega, hslot, hpid⟩
  | @child _ place _ _ i _ _ _ _ hborn _ _ hidentity hnext =>
      have hafter := hidentity slot
      split at hafter
      · -- the child has the next number, which is above all that have been told of
        obtain ⟨c, hc, hsame⟩ := Option.map_eq_some_iff.mp hafter
        have hpids : c.pid = i.pid := congrArg Identity.pid hsame
        exact ⟨slot, p, c, hc, by omega, by omega, hslot, hpid⟩
      · obtain ⟨c, hc, hsame⟩ := Option.map_eq_some_iff.mp (hafter.trans hat)
        have hpids : c.pid = b.pid := congrArg Identity.pid hsame
        exact ⟨slot, p, c, hc, by omega, by omega, hslot, hpid⟩

theorem pairwise_append_current {old new : List Event} (hs : sim.books.Sound)
    (h : old.Pairwise Event.Precedes) (hold : ∀ d ∈ old, sim.Recalls d)
    (hnew : ∀ d ∈ new, sim.Current d) : (old ++ new).Pairwise Event.Precedes := by
  refine List.pairwise_append.mpr ⟨h, ?_, ?_⟩
  · refine List.pairwise_of_forall_mem_list fun d hd e he => ?_
    exact ((hnew d hd).recalls hs).precedes (hnew e he)
  · intro d hd e he
    exact (hold d hd).precedes (hnew e he)

theorem Recalls.lt_nextPid (h : sim.Recalls d) (hp : d.pid = some p) :
    p < sim.machine.table.nextPid := by
  obtain ⟨_, ⟨_, hnone⟩ | ⟨_, q, _, _, _, hlt, _, hq⟩⟩ := h
  · cases hnone.symm.trans hp
  · obtain rfl : q = p := Option.some.inj (hq.symm.trans hp)
    exact hlt

/-- A number that has just been drawn is that of a process that is there. -/
theorem Moment.Entered.lt_of_not_mem (hx : x.Entered) (hlt : p < x.after.machine.table.nextPid)
    (hnot : p ∉ x.after.livePids) : p < x.before.machine.table.nextPid := by
  have hnext := hx.nextPid_eq
  by_cases hforked : x.forked = true
  · have hchild := hx.child?_eq_forked
    rw [if_pos hforked] at hchild hnext
    have hborn : x.before.machine.table.nextPid ∈ x.after.livePids :=
      List.mem_of_find?_eq_some hchild
    have hne : p ≠ x.before.machine.table.nextPid := by
      rintro rfl
      exact hnot hborn
    omega
  · rw [if_neg hforked] at hnext
    omega

theorem Closing.append {log later new : List Event} {r : StepReport} {d c : Event}
    (h : Closing x p log r d c later) (hnew : ∀ e ∈ new, e.pid ≠ some p) :
    Closing x p (log ++ new) r d c (later ++ new) :=
  { h with
    log_eq := by
      rw [h.log_eq, List.append_assoc]
      rfl
    once := by
      intro e he
      rw [← List.cons_append, ← List.append_assoc, List.mem_append] at he
      obtain hold | he := he
      · exact h.once e hold
      · exact fun hends => hnew e he hends.2.1
    silent := by
      intro e he
      obtain hold | he := List.mem_append.mp he
      · exact h.silent e hold
      · exact hnew e he }

section Next

variable {first last : List Event}

theorem Told.mem_cases (ht : Told x first last) (hd : d ∈ x.after.log.toList) :
    d ∈ x.before.log.toList ∨ d ∈ first ∨ d ∈ last := by
  rwa [ht.log_eq, List.mem_append, List.mem_append] at hd

/-- Nothing is told of a process that is not there. -/
theorem Told.pid_ne (ht : Told x first last) (hbefore : p ∉ x.before.livePids)
    (hafter : p ∉ x.after.livePids) : ∀ d ∈ first ++ last, d.pid ≠ some p := by
  intro d hd hp
  obtain hd | hd := List.mem_append.mp hd
  · exact hbefore (mem_livePids_of_current (ht.first_current d hd) hp)
  · exact hafter (mem_livePids_of_current (ht.last_goesOn d hd).current hp)

/-- What the CPU tells is told before the clock advances. -/
theorem Told.elapsed (ht : Told x first last) (hd : d ∈ first ++ last) (hcpu : d.source = "cpu") :
    d.tick = x.before.tick ∧ x.before.tick < x.after.tick := by
  obtain hd | hd := List.mem_append.mp hd
  · refine ⟨(ht.first_current d hd).1, ?_⟩
    cases hreport : x.report? with
    | none => exact absurd hcpu ((ht.unreported hreport).2 d hd).source_ne
    | some r =>
        have hticks := (ht.reported hreport).2.1
        omega
  · exact absurd hcpu (ht.last_goesOn d hd).source_ne

namespace Chronicle

theorem closed_next (h : Chronicle past x.before) (hx : x.Entered) (ht : Told x first last)
    (hpos : 0 ≤ p) (hlt : p < x.after.machine.table.nextPid) (hnot : p ∉ x.after.livePids) :
    ∃ y ∈ past ++ [x], ∃ r d c later, Closing y p x.after.log.toList r d c later := by
  by_cases hbefore : p ∈ x.before.livePids
  · obtain ⟨r, d, c, hreport, hfirst, hends, hpid, hreports⟩ := ht.ended hbefore hnot
    refine ⟨x, List.mem_append_right past List.mem_cons_self, r, d, c, last, ?_⟩
    constructor
    case before => exact hbefore
    case after => exact hnot
    case report?_eq => exact hreport
    case log_eq =>
      rw [ht.log_eq, hfirst]
      rfl
    case ends => exact hends
    case tick_eq =>
      have hcurrent := ht.first_current d (by rw [hfirst]; exact List.mem_cons_self)
      rw [hcurrent.1, (ht.reported hreport).1]
    case reports => exact hreports
    case pid_eq => exact hpid
    case once =>
      intro e he hagain
      rw [List.mem_append, List.mem_cons] at he
      obtain hold | rfl | hlast := he
      · exact h.ended e hold hagain hbefore
      · exact not_ends_of_cpu hreports.1 hagain
      · exact (ht.last_goesOn e hlast).not_ends p hagain
    case silent =>
      intro e he hp
      exact hnot (mem_livePids_of_current (ht.last_goesOn e he).current hp)
  · -- it had ended before, since a number that is drawn in this call is that of a live child
    obtain ⟨y, hy, r, d, c, later, hclosing⟩ :=
      h.closed hpos (hx.lt_of_not_mem hlt hnot) hbefore
    refine ⟨y, List.mem_append_left _ hy, r, d, c, later ++ (first ++ last), ?_⟩
    rw [ht.log_eq]
    exact hclosing.append (ht.pid_ne hbefore hnot)

theorem reported_next {y : Moment} {r : StepReport} (h : Chronicle past x.before)
    (hx : x.Entered) (ht : Told x first last) (hy : y ∈ past ++ [x]) (hr : y.report? = some r) :
    r.tick < x.after.tick ∧ ∃ c, x.after.log.toList.filter (fun d => d.Reports r) = [c] ∧
      c.slot = r.slot ∧ c.pid = r.pid := by
  have hlast : last.filter (fun d => d.Reports r) = [] := by
    apply Event.filter_reports_eq_nil
    intro d hd hreports
    exact (ht.last_goesOn d hd).source_ne hreports.1
  obtain hold | hnew := List.mem_append.mp hy
  · -- what is told now has the tick of this call, and older reports have earlier ones
    obtain ⟨htick, c, hc, hplace⟩ := h.reported hold hr
    have hticks : x.before.tick ≤ x.after.tick := hx.booked.tick_bounds.1
    have hfirst : first.filter (fun d => d.Reports r) = [] := by
      apply Event.filter_reports_eq_nil
      intro d hd hreports
      have hnow := (ht.first_current d hd).1
      have hthen := hreports.2.1
      omega
    refine ⟨by omega, c, ?_, hplace⟩
    rw [ht.log_eq, List.filter_append, List.filter_append, hc, hfirst, hlast]
    rfl
  · obtain rfl := List.mem_singleton.mp hnew
    obtain ⟨htick, hticks, c, hc, hplace⟩ := ht.reported hr
    have hbefore : y.before.log.toList.filter (fun d => d.Reports r) = [] := by
      apply Event.filter_reports_eq_nil
      intro d hd hreports
      have hthen := h.elapsed d hd hreports.1
      have hnow := hreports.2.1
      omega
    refine ⟨by omega, c, ?_, hplace⟩
    rw [ht.log_eq, List.filter_append, List.filter_append, hbefore, hc, hlast]
    rfl

/-- One call carries the chronicle on. -/
theorem next (h : Chronicle past x.before) (hx : x.Entered) (ht : Told x first last) :
    Chronicle (past ++ [x]) x.after := by
  have hsound := hx.booked.sound hx.sound
  have hticks : x.before.tick ≤ x.after.tick := hx.booked.tick_bounds.1
  have hrecalls : ∀ d ∈ x.before.log.toList ++ first, x.before.Recalls d := by
    intro d hd
    obtain hold | hfirst := List.mem_append.mp hd
    · exact h.recalled d hold
    · exact (ht.first_current d hfirst).recalls hx.sound
  have hfirst := pairwise_append_current hx.sound h.ordered h.recalled ht.first_current
  constructor
  case ordered =>
    rw [ht.log_eq, ← List.append_assoc]
    exact pairwise_append_current hsound hfirst (fun d hd => (hrecalls d hd).next hx)
      fun d hd => (ht.last_goesOn d hd).current
  case recalled =>
    intro d hd
    rw [ht.log_eq, ← List.append_assoc, List.mem_append] at hd
    obtain hd | hlast := hd
    · exact (hrecalls d hd).next hx
    · exact (ht.last_goesOn d hlast).current.recalls hsound
  case elapsed =>
    intro d hd hcpu
    rw [ht.log_eq, List.mem_append] at hd
    obtain hold | hnew := hd
    · have hlt := h.elapsed d hold hcpu
      omega
    · obtain ⟨hnow, hadvance⟩ := ht.elapsed hnew hcpu
      omega
  case ended =>
    intro p d hd hends
    obtain hold | hnew | hlast := ht.mem_cases hd
    · have hlt := (h.recalled d hold).lt_nextPid hends.2.1
      exact hx.not_mem_after hlt (h.ended d hold hends)
    · exact ht.first_ends d hnew hends
    · exact absurd hends ((ht.last_goesOn d hlast).not_ends p)
  case closed => exact h.closed_next hx ht
  case reported => exact h.reported_next hx ht

end Chronicle

end Next

theorem chronicle_run {requests : List Request} (hentered : ∀ x ∈ history sim requests, x.Entered)
    (hok : ∀ x ∈ history sim requests, ∃ answer, x.response = .ok answer)
    (h : Chronicle past sim) : Chronicle (past ++ history sim requests) (run sim requests) := by
  induction requests generalizing sim past with
  | nil =>
      rw [history, List.append_nil]
      exact h
  | cons q rest ih =>
      simp only [history, List.forall_mem_cons] at hentered hok
      obtain ⟨hx, hrest⟩ := hentered
      obtain ⟨⟨answer, hanswer⟩, hokrest⟩ := hok
      obtain ⟨first, last, ht⟩ := hx.told hanswer
      rw [history, List.append_cons]
      exact ih hrest hokrest (Chronicle.next (x := sim.happen q) h hx ht)

theorem Move.log_prefix {s s' : Simulation} (h : Move s s') :
    s.log.toList <+: s'.log.toList := by
  cases h with
  | log events =>
      rw [toList_logged]
      exact List.prefix_append _ _
  | fetch | affect | elapse | dispatch | unblock => exact List.prefix_refl _

/-- What has been logged stays, also if calls stop. -/
theorem log_prefix_run (hu : sim.Underway) (requests : List Request) :
    sim.log.toList <+: (run sim requests).log.toList := by
  have hkept : (run sim requests).Underway ∧ sim.log.toList <+: (run sim requests).log.toList := by
    refine run_keeps (P := fun u => u.Underway ∧ sim.log.toList <+: u.log.toList) ?_ (·.1)
      ⟨hu, List.prefix_refl _⟩ requests
    intro u v hu hmove
    exact ⟨hmove.underway hu.1, hu.2.trans hmove.log_prefix⟩
  exact hkept.2

theorem Moment.exists_answer (h : x.response.isOk = true) : ∃ answer, x.response = .ok answer := by
  cases hresponse : x.response with
  | ok answer => exact ⟨answer, rfl⟩
  | error fault =>
      rw [hresponse] at h
      cases h

section Launch

variable {settings : Settings} {loader : Loader} {program : Program}

theorem chronicle_launched (h : 1 ≤ settings.tableCapacity) (loader : Loader) (program : Program) :
    Chronicle [] (launched settings loader program) := by
  have hlog : (launched settings loader program).log.toList =
      [(launched settings loader program).entry .info "boot"
        s!"Init loaded with {program.length} instructions" initSlot (initBlock program)] := rfl
  have hsource : ∀ d ∈ (launched settings loader program).log.toList, d.source = "boot" := by
    intro d hd
    rw [hlog, List.mem_singleton] at hd
    rw [hd]
    rfl
  have hinit : (launched settings loader program).machine.table.Live initSlot
      (initBlock program) := ⟨(blockAt_launched h initSlot).trans (if_pos rfl), rfl⟩
  have hsound := sound_launched h loader program
  have hcurrent : ∀ d ∈ (launched settings loader program).log.toList,
      (launched settings loader program).Current d := by
    intro d hd
    rw [hlog, List.mem_singleton] at hd
    rw [hd]
    exact current_entry hinit _ _ _
  constructor
  case ordered =>
    rw [hlog]
    exact List.pairwise_singleton _ _
  case recalled => exact fun d hd => (hcurrent d hd).recalls hsound
  case elapsed =>
    intro d hd hcpu
    rw [hsource d hd] at hcpu
    exact absurd hcpu (by decide)
  case ended =>
    intro p d hd hends
    have hscheduler := hends.1
    rw [hsource d hd] at hscheduler
    exact absurd hscheduler (by decide)
  case closed =>
    intro p hpos hlt hnot
    have hnext : (launched settings loader program).machine.table.nextPid = 1 :=
      congrArg Roster.nextPid (roster_launched h)
    have hp : initPid = p := by
      change (0 : Int) = p
      omega
    exact absurd (mem_livePids_iff.mpr ⟨initSlot, initBlock program, hinit, hp⟩) hnot
  case reported =>
    intro x r hx
    cases hx

/-- The log is a trace of the run: in order, with a slot where there is a number, with one end
for every process that is not there any more and one line for every report. -/
structure Traced (past : List Moment) (now : Simulation) : Prop where
  ordered : now.log.toList.Pairwise Event.Precedes
  tick_le : ∀ d ∈ now.log.toList, d.tick ≤ now.tick
  slot_iff : ∀ d ∈ now.log.toList, (d.slot = none ↔ d.pid = none)
  closed {i : Identity} : i ∈ processes past → i.pid ∉ now.livePids →
    ∃ x ∈ past, ∃ r d c later, Closing x i.pid now.log.toList r d c later
  reported {x : Moment} {r : StepReport} : x ∈ past → x.report? = some r →
    ∃ c, now.log.toList.filter (fun d => d.Reports r) = [c] ∧ c.slot = r.slot ∧ c.pid = r.pid

/-- No call takes back what has been logged. As long as all of them return, the log is a trace
of the run. -/
theorem traced_of_launch (h : 1 ≤ settings.tableCapacity) (loader : Loader) (program : Program) :
    ∃ sim, launch settings loader program = .ok sim ∧
      (∀ requests later, (run sim requests).log.toList <+: (run sim (requests ++ later)).log.toList) ∧
      ∀ requests, (∀ x ∈ history sim requests, x.response.isOk = true) →
        Traced (history sim requests) (run sim requests) := by
  have hunderway := underway_launched h loader program
  have hsound := sound_launched h loader program
  refine ⟨_, launch_eq h loader program, fun requests later => ?_, fun requests hok => ?_⟩
  · rw [run, run, List.foldl_append]
    exact log_prefix_run (underway_run hunderway requests) later
  · have hanswers : ∀ x ∈ history (launched settings loader program) requests,
        ∃ answer, x.response = .ok answer := by
      intro x hx
      exact Moment.exists_answer (hok x hx)
    have hentered := entered_of_mem_history hunderway hsound (.inl hanswers)
    have hnow := chronicle_run hentered hanswers (chronicle_launched h loader program)
    obtain ⟨hlineage, _⟩ := lineage_run hunderway hsound.numbered
      (lineage_launched h loader program) requests
    rw [List.nil_append] at hnow hlineage
    constructor
    case ordered => exact hnow.ordered
    case tick_le => exact fun d hd => (hnow.recalled d hd).1
    case slot_iff =>
      intro d hd
      obtain ⟨_, ⟨hslot, hpid⟩ | ⟨_, _, _, _, _, _, hslot, hpid⟩⟩ := hnow.recalled d hd
      · exact iff_of_true hslot hpid
      · exact iff_of_false (by simp [hslot]) (by simp [hpid])
    case closed =>
      intro i hi hnot
      have hbounds := hlineage.pid_bounds hi
      exact hnow.closed hbounds.1 hbounds.2 hnot
    case reported => exact fun hx hr => (hnow.reported hx hr).2

end Launch

/-- Two children have been in one slot here, of which the first has ended. -/
theorem traced_of_launch_refill : (1 : Int) ≤ ({} : Settings).tableCapacity ∧
    (∀ x ∈ history (launched {} {} refillDemo) refillDemoCalls, x.response.isOk = true) ∧
    (run (launched {} {} refillDemo) refillDemoCalls).livePids = [0, 2] ∧
    Traced (history (launched {} {} refillDemo) refillDemoCalls)
      (run (launched {} {} refillDemo) refillDemoCalls) := by
  have hok : ∀ x ∈ history (launched {} {} refillDemo) refillDemoCalls,
      x.response.isOk = true := by
    decide +kernel
  have hcapacity : (1 : Int) ≤ ({} : Settings).tableCapacity := by decide
  obtain ⟨sim, hlaunch, _, htraced⟩ := traced_of_launch hcapacity {} refillDemo
  obtain ⟨_, rfl⟩ := launch_eq_ok_iff.mp hlaunch
  exact ⟨hcapacity, hok, by decide +kernel, htraced refillDemoCalls hok⟩

end Simulation
end Uniproc
