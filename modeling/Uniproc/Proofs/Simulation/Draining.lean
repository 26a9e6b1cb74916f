import Uniproc.Proofs.Simulation.Frame
import Uniproc.Proofs.Simulation.Idleness

/-!
Draining the blocked queue. Unblocking after unblocking wakes those who are blocked in the order in
which they wait. They line up behind the ready, but for the first one if the CPU is idle, who gets
it with the registers that were saved when it blocked. Once nobody is blocked, an unblocking does
nothing.
-/

namespace Uniproc

/-- Nobody has changed but for the state of those who were blocked, and none of them has ended. -/
structure ProcessTable.Woken (t t' : ProcessTable) : Prop where
  nextPid_eq : t'.nextPid = t.nextPid
  others {slot : Int} : t.stateAt slot ≠ some .blocked → t'.blockAt slot = t.blockAt slot
  waiting {slot : Int} {b : ControlBlock} : t.blockAt slot = some b → b.state = .blocked →
    ∃ state, t'.blockAt slot = some { b with state := state } ∧ state ≠ .terminated

namespace Machine

/-- What `n` unblockings do. -/
structure Drained (m m' : Machine) (n : Nat) : Prop where
  table : m.table.Woken m'.table
  /-- Whoever has the CPU keeps it. -/
  busy {slot : Int} : m.scheduler.running = some slot → m'.cpu = m.cpu ∧
    m'.scheduler = ⟨some slot, m.scheduler.ready ++ m.scheduler.blocked.take n,
      m.scheduler.blocked.drop n, m.scheduler.switches⟩
  /-- Otherwise the first who is woken gets it, as it was saved. -/
  idle {first : Int} {rest : List Int} : m.scheduler.running = none →
    m.scheduler.blocked.take n = first :: rest →
    (∃ b, m.table.blockAt first = some b ∧ m'.cpu = .ofBlock b (some first.toNat)) ∧
    m'.scheduler = ⟨some first, rest, m.scheduler.blocked.drop n, m.scheduler.switches + 1⟩
  nobody : m.scheduler.blocked.take n = [] → m' = m

end Machine

namespace Simulation

/-- What `n` unblockings do, which log what they have done besides. -/
structure Drained (sim sim' : Simulation) (n : Nat) : Prop where
  machine : sim.machine.Drained sim'.machine n
  apart : { sim' with machine := sim.machine, log := sim.log } = sim

/-- These calls unblock one after the other who is blocked, and nobody when nobody is left. Then one
more changes nothing. -/
structure Drains (sim : Simulation) (calls : List Request) : Prop where
  responses : (history sim calls).map Moment.response = (List.range calls.length).map
    fun j => .ok (.unblocked sim.machine.scheduler.blocked[j]?)
  drained : sim.Drained (run sim calls) calls.length
  still : sim.machine.scheduler.blocked.length ≤ calls.length → ∀ files,
    ((run sim calls).happen ⟨.unblock, files⟩).response = .ok (.unblocked none) ∧
      ((run sim calls).happen ⟨.unblock, files⟩).after = run sim calls

namespace Moment

/-- In this call the process in `slot` has blocked, with the registers that are in `b`. -/
structure Saves (x : Moment) (slot : Int) (b : ControlBlock) : Prop where
  executes : x.Executes .block
  running : x.before.machine.scheduler.running = some slot
  programCounter_eq : b.programCounter = x.before.machine.cpu.programCounter + 1
  value_eq : b.value = x.before.machine.cpu.value

end Moment

/-- What is in `b` was saved in one of these calls, and has stayed there since. -/
def SavedIn (past : List Moment) (slot : Int) (b : ControlBlock) : Prop :=
  ∃ earlier x later, past = earlier ++ x :: later ∧ x.Saves slot b ∧
    ∀ y ∈ x :: later, y.after.machine.table.blockAt slot = some b

/-- All who are blocked have blocked in one of these calls. -/
def Backed (past : List Moment) (sim : Simulation) : Prop :=
  ∀ (slot : Int) (b : ControlBlock), sim.machine.table.blockAt slot = some b →
    b.state = .blocked → SavedIn past slot b

end Simulation

namespace ProcessTable

variable {t t' t'' : ProcessTable} {slot : Int} {b : ControlBlock}

theorem Woken.refl (t : ProcessTable) : t.Woken t where
  nextPid_eq := rfl
  others _ := rfl
  waiting {_ b} hb hstate := ⟨b.state, hb, by simp [hstate]⟩

theorem Woken.trans (h : t.Woken t') (h' : t'.Woken t'') : t.Woken t'' where
  nextPid_eq := h'.nextPid_eq.trans h.nextPid_eq
  others {slot} hstate := by
    have hsame := h.others hstate
    have hstate' : t'.stateAt slot ≠ some .blocked := by rwa [stateAt, hsame]
    exact (h'.others hstate').trans hsame
  waiting {slot b} hb hstate := by
    obtain ⟨state, hb', hne⟩ := h.waiting hb hstate
    by_cases hblocked : state = .blocked
    · obtain ⟨final, hfinal, hlive⟩ := h'.waiting hb' hblocked
      exact ⟨final, hfinal, hlive⟩
    · have hstate' : t'.stateAt slot ≠ some .blocked := by
        rw [stateAt_of_blockAt hb']
        simpa using hblocked
      exact ⟨state, (h'.others hstate').trans hb', hne⟩

/-- One who was blocked has another state. -/
theorem Woken.of_update (state : ProcessState) (hb : t.blockAt slot = some b)
    (hstate : b.state = .blocked) (hne : state ≠ .terminated) (hnext : t'.nextPid = t.nextPid)
    (hu : ∀ other, t'.blockAt other =
      if other = slot then some { b with state := state } else t.blockAt other) : t.Woken t' where
  nextPid_eq := hnext
  others {other} hother := by
    have hslot : other ≠ slot := by
      rintro rfl
      rw [stateAt_of_blockAt hb, hstate] at hother
      exact hother rfl
    rw [hu, if_neg hslot]
  waiting {other c} hc hcstate := by
    by_cases hslot : other = slot
    · subst hslot
      cases hb.symm.trans hc
      exact ⟨state, by rw [hu, if_pos rfl], hne⟩
    · exact ⟨c.state, by rw [hu, if_neg hslot, hc], by simp [hcstate]⟩

end ProcessTable

namespace Machine

variable {m m' m'' : Machine} {slot : Int} {b c : ControlBlock} {e : Effect} {n k : Nat}

theorem drop_of_take_nil {l : List Int} (h : l.take n = []) : l.drop n = l := by
  have hall := List.take_append_drop n l
  rwa [h, List.nil_append] at hall

theorem drained_self (h : m.scheduler.blocked.take n = []) : m.Drained m n where
  table := .refl m.table
  busy hrun := by
    rw [h, List.append_nil, drop_of_take_nil h, ← hrun]
    exact ⟨rfl, rfl⟩
  idle _ hcons := by cases h.symm.trans hcons
  nobody _ := rfl

theorem Drained.blocked_eq (h : m.Drained m' n) :
    m'.scheduler.blocked = m.scheduler.blocked.drop n := by
  cases hrun : m.scheduler.running with
  | some slot => rw [(h.busy hrun).2]
  | none =>
      cases htake : m.scheduler.blocked.take n with
      | nil => rw [h.nobody htake, drop_of_take_nil htake]
      | cons first rest => rw [(h.idle hrun htake).2]

theorem Drained.trans (h : m.Drained m' n) (h' : m'.Drained m'' k) : m.Drained m'' (n + k) where
  table := h.table.trans h'.table
  busy hrun := by
    obtain ⟨hcpu, hscheduler⟩ := h.busy hrun
    obtain ⟨hcpu', hscheduler'⟩ := h'.busy (by rw [hscheduler])
    refine ⟨hcpu'.trans hcpu, ?_⟩
    rw [hscheduler', hscheduler, List.take_add, List.append_assoc, List.drop_drop]
  idle {first rest} hidle hcons := by
    rw [List.take_add] at hcons
    rw [← List.drop_drop]
    cases htake : m.scheduler.blocked.take n with
    | nil =>
        -- nobody has been woken so far, so the first is woken now
        rw [htake, List.nil_append, drop_of_take_nil htake] at hcons
        obtain rfl := h.nobody htake
        rw [drop_of_take_nil htake]
        exact h'.idle hidle hcons
    | cons _ woken =>
        rw [htake, List.cons_append, List.cons.injEq] at hcons
        obtain ⟨rfl, rfl⟩ := hcons
        obtain ⟨⟨b, hb, hcpu⟩, hscheduler⟩ := h.idle hidle htake
        obtain ⟨hcpu', hscheduler'⟩ := h'.busy (by rw [hscheduler])
        rw [hscheduler] at hscheduler'
        exact ⟨⟨b, hb, hcpu'.trans hcpu⟩, hscheduler'⟩
  nobody hnil := by
    rw [List.take_add, List.append_eq_nil_iff] at hnil
    rw [← h.blocked_eq] at hnil
    exact (h'.nobody hnil.2).trans (h.nobody hnil.1)

/-- An unblocking of a machine whose CPU is busy. -/
theorem drained_afterWake {rest : List Int} (hrun : m.scheduler.running ≠ none)
    (hblocked : m.scheduler.blocked = slot :: rest) (hb : m.table.blockAt slot = some b)
    (hstate : b.state = .blocked) : m.Drained (m.afterWake slot b rest) 1 where
  table := .of_update .ready hb hstate (by simp) (ProcessTable.nextPid_put _ _ _)
    (blockAt_afterWake hb rest)
  busy hbusy := by
    rw [hblocked, ← hbusy]
    exact ⟨rfl, rfl⟩
  idle hidle := absurd hidle hrun
  nobody hnil := by
    rw [hblocked] at hnil
    cases hnil

/-- An unblocking of a machine whose CPU is idle, where nobody is ready. -/
theorem drained_afterSwitch {rest : List Int} (hrun : m.scheduler.running = none)
    (hblocked : m.scheduler.blocked = slot :: rest) (hb : m.table.blockAt slot = some b)
    (hstate : b.state = .blocked) :
    m.Drained ((m.afterWake slot b rest).afterSwitch slot { b with state := .ready } []) 1 where
  table := by
    have hwoken := blockAt_afterWake_self hb rest
    refine .of_update .running hb hstate (by simp) ?_ fun other => ?_
    · exact (ProcessTable.nextPid_put _ _ _).trans (ProcessTable.nextPid_put _ _ _)
    · rw [blockAt_afterSwitch hwoken, blockAt_afterWake hb]
      split <;> rfl
  busy hbusy := by cases hrun.symm.trans hbusy
  idle {first others} _ hcons := by
    rw [hblocked] at hcons ⊢
    cases hcons
    exact ⟨⟨b, hb, rfl⟩, rfl⟩
  nobody hnil := by
    rw [hblocked] at hnil
    cases hnil

theorem next?_of_settled (h : m.Settled) : m.next? = none := by
  rw [next?_eq_none_iff]
  cases hrun : m.scheduler.running with
  | some slot => exact .inl rfl
  | none => exact .inr (h hrun)

theorem drained_afterUnblock (h : m.Scheduled) (hsettled : m.Settled) :
    m.Drained m.afterUnblock.afterDispatch 1 := by
  obtain ⟨hblocked, heq⟩ | ⟨slot, b, rest, hblocked, hb, hstate, heq⟩ := h.afterUnblock_cases
  · rw [heq, afterDispatch_of_stay (next?_of_settled hsettled)]
    exact drained_self (by rw [hblocked]; rfl)
  · rw [heq]
    by_cases hrun : m.scheduler.running = none
    · have hready : (m.afterWake slot b rest).scheduler.ready = [slot] := by
        change m.scheduler.ready ++ [slot] = [slot]
        rw [hsettled hrun, List.nil_append]
      have hwoken := blockAt_afterWake_self hb rest
      have hidle : (m.afterWake slot b rest).scheduler.running = none := hrun
      have hswitch : (m.afterWake slot b rest).afterDispatch =
          (m.afterWake slot b rest).afterSwitch slot { b with state := .ready } [] := by
        unfold afterDispatch
        rw [hidle, hready]
        dsimp only
        rw [hwoken]
      rw [hswitch]
      exact drained_afterSwitch hrun hblocked hb hstate
    · have hstay : (m.afterWake slot b rest).next? = none := by
        rw [next?_eq_none_iff]
        exact .inl (Option.isSome_iff_ne_none.mpr hrun)
      rw [afterDispatch_of_stay hstay]
      exact drained_afterWake hrun hblocked hb hstate

/-- Whoever is blocked after its turn has executed a block. -/
theorem eq_block_of_affect (h : m.Coherent) (hrun : m.scheduler.running = some slot)
    (hb : m.table.blockAt slot = some b) (he : m.Admits e) {tick : Nat}
    (hc : (m.affect slot b tick e).table.blockAt slot = some c) (hstate : c.state = .blocked) :
    e = .block ∧ c.programCounter = m.cpu.programCounter ∧ c.value = m.cpu.value := by
  have hrunning : b.state ≠ .blocked := by simp [h.state_eq_running hrun hb]
  have hsame {d : ControlBlock} (hd : (m.affect slot b tick e).table.blockAt slot = some d)
      (hne : d.state ≠ .blocked) : False := by
    cases hd.symm.trans hc
    exact hne hstate
  cases e with
  | block =>
      cases ((blockAt_afterBlock hb slot).trans (if_pos rfl)).symm.trans hc
      exact ⟨rfl, rfl, rfl⟩
  | compute _ | refuse | keep _ => exact (hsame hb hrunning).elim
  | finish => exact (hsame ((blockAt_afterEnd hb slot).trans (if_pos rfl)) (by simp)).elim
  | spawn child offset =>
      obtain ⟨old, hold, hfree⟩ := ProcessTable.blockAt_of_allocate he
      have hne : slot ≠ child := by
        rintro rfl
        exact (h.not_mem_of_free hold hfree).1 hrun
      have hkept := (blockAt_afterFork hold b offset tick slot).trans (if_neg hne)
      exact (hsame (hkept.trans hb) hrunning).elim
  | install p =>
      exact (hsame ((blockAt_afterReplace hb p slot).trans (if_pos rfl)) hrunning).elim
  | lose _ | abort _ =>
      exact (hsame ((blockAt_afterReplace hb {} slot).trans (if_pos rfl)) hrunning).elim

/-- Whoever is blocked after an unblocking was so before. -/
theorem blockAt_of_afterUnblock (h : m.Scheduled) (hb : m.afterUnblock.table.blockAt slot = some b)
    (hstate : b.state = .blocked) : m.table.blockAt slot = some b := by
  obtain ⟨_, heq⟩ | ⟨woken, c, rest, _, hc, _, heq⟩ := h.afterUnblock_cases <;> rw [heq] at hb
  · exact hb
  · rw [blockAt_afterWake hc] at hb
    split at hb
    · cases hb
      cases hstate
    · exact hb

theorem blockAt_of_afterDispatch (h : m.Scheduled)
    (hb : m.afterDispatch.table.blockAt slot = some b) (hstate : b.state = .blocked) :
    m.table.blockAt slot = some b := by
  obtain ⟨_, heq⟩ | ⟨next, c, rest, _, _, _, hc, _, heq⟩ := h.afterDispatch_cases <;> rw [heq] at hb
  · exact hb
  · rw [blockAt_afterSwitch hc] at hb
    split at hb
    · cases hb
      cases hstate
    · exact hb

end Machine

namespace Simulation

variable {sim sim' sim'' : Simulation} {x : Moment} {past : List Moment} {slot : Int}
  {b : ControlBlock} {requests calls : List Request} {n k : Nat}

theorem Drained.trans (h : sim.Drained sim' n) (h' : sim'.Drained sim'' k) :
    sim.Drained sim'' (n + k) where
  machine := h.machine.trans h'.machine
  apart := by
    have hlater := congrArg (fun s => { s with machine := sim.machine, log := sim.log }) h'.apart
    exact hlater.trans h.apart

section Saving

theorem Moment.Course.saved (h : x.Course) (hc : x.before.machine.Coherent)
    (hb : x.after.machine.table.blockAt slot = some b) (hstate : b.state = .blocked) :
    x.before.machine.table.blockAt slot = some b ∨ x.Saves slot b := by
  refine h.keeps (P := fun m => m.table.blockAt slot = some b →
    x.before.machine.table.blockAt slot = some b ∨ x.Saves slot b) hc ?_ ?_ ?_ ?_ hb
  · intro htable _ hb
    rw [htable] at hb
    exact .inl hb
  · intro first c hcall hrun hfirst hb
    have hturning := turning_of_running hc hrun hfirst x.request.files
    by_cases hslot : slot = first
    · subst hslot
      obtain ⟨he, hcounter, hvalue⟩ := Machine.eq_block_of_affect hturning.coherent hturning.running
        hturning.block hturning.admits hb hstate
      obtain ⟨i, hnext, hop⟩ := exists_block_of_block he
      have hfetched : x.before.turning = x.before.fetched := by rw [turning, hnext, fetchedBy]
      rw [hfetched] at hcounter hvalue
      exact .inr ⟨executes_of_next? hc hcall hrun ⟨i, hnext, hop⟩, hrun, hcounter, hvalue⟩
    · obtain hsame | ⟨_, _, _, _, hborn⟩ := hturning.blockAt_of_ne hslot
      · exact .inl (hsame.symm.trans hb)
      · cases hborn.symm.trans hb
        cases hstate
  · intro _ hb
    exact .inl (Machine.blockAt_of_afterUnblock hc.toScheduled hb hstate)
  · intro m hm hkept hb
    exact hkept (Machine.blockAt_of_afterDispatch hm.toScheduled hb hstate)

/-- One call carries on what is known of the blocked. -/
theorem Backed.next (h : Backed past x.before) (hc : x.before.machine.Coherent) (hx : x.Course) :
    Backed (past ++ [x]) x.after := by
  intro slot b hb hstate
  obtain hbefore | hsaves := hx.saved hc hb hstate
  · obtain ⟨earlier, y, later, hpast, hsaves, hstays⟩ := h slot b hbefore hstate
    refine ⟨earlier, y, later ++ [x], by rw [hpast, List.append_assoc]; rfl, hsaves, ?_⟩
    rw [← List.cons_append, List.forall_mem_append]
    exact ⟨hstays, List.forall_mem_singleton.mpr hb⟩
  · exact ⟨past, x, [], rfl, hsaves, List.forall_mem_singleton.mpr hb⟩

theorem backed_run (hu : sim.Underway) (h : Backed past sim) (requests : List Request) :
    Backed (past ++ history sim requests) (run sim requests) := by
  induction requests generalizing sim past with
  | nil =>
      rw [history, List.append_nil]
      exact h
  | cons q rest ih =>
      have hhappened := happened hu q
      have hnext := h.next (x := sim.happen q) hu.coherent hhappened.course
      rw [history, List.append_cons]
      exact ih (hhappened.underway hu) hnext

end Saving

section Draining

/-- A state in which unblocking cannot stop. -/
structure Drainable (sim : Simulation) : Prop extends Underway sim where
  sound : sim.books.Sound
  tick_lt : sim.tick < Numeral.writingBound
  settled : sim.machine.Settled

theorem Happened.drained (hx : Happened sim x) (h : sim.Drainable)
    (hcall : x.request.call = .unblock) :
    x.response = .ok (.unblocked sim.machine.scheduler.blocked.head?) ∧
      sim.Drained x.after 1 ∧ x.after.Drainable := by
  have hc := h.coherent
  have hwoken := Machine.coherent_afterUnblock hc
  have hunderway := hx.underway h.toUnderway
  cases hx with
  | stepped | stopped => cases hcall
  | stuck hunblock => exact absurd hunblock (Unblocked.not_error hc h.sound h.tick_lt)
  | unblocked hunblock =>
      have hbooks := hunblock.books_eq hc
      cases hunblock with
      | done =>
          refine ⟨rfl, ⟨?_, rfl⟩, hunderway, ?_, h.tick_lt, ?_⟩
          · exact Machine.drained_afterUnblock hc.toScheduled h.settled
          · rw [hbooks]
            exact h.sound
          · exact Machine.settled_afterDispatch hwoken.toScheduled

theorem drained_run (h : sim.Drainable) (hcalls : ∀ q ∈ calls, q.call = .unblock) :
    (history sim calls).map Moment.response = (List.range calls.length).map
      (fun j => .ok (.unblocked sim.machine.scheduler.blocked[j]?)) ∧
    sim.Drained (run sim calls) calls.length ∧ (run sim calls).Drainable := by
  induction calls generalizing sim with
  | nil => exact ⟨rfl, ⟨Machine.drained_self rfl, rfl⟩, h⟩
  | cons q rest ih =>
      rw [List.forall_mem_cons] at hcalls
      obtain ⟨hresponse, hdrained, hafter⟩ := (happened h.toUnderway q).drained h hcalls.1
      obtain ⟨hresponses, hrest, hend⟩ := ih hafter hcalls.2
      refine ⟨?_, ?_, hend⟩
      · rw [history, List.map_cons, hresponse, hresponses, hdrained.machine.blocked_eq,
          List.length_cons, List.range_succ_eq_map, List.map_cons, List.map_map,
          List.head?_eq_getElem?]
        simp only [List.getElem?_drop, Function.comp_def, Nat.succ_eq_add_one, Nat.add_comm 1]
      · rw [List.length_cons, Nat.add_comm]
        exact hdrained.trans hrest

theorem unblocked_of_empty (hc : sim.machine.Scheduled)
    (hempty : sim.machine.scheduler.blocked = []) : sim.unblocked = sim ∧ sim.wakeEvents = [] := by
  refine ⟨?_, by rw [wakeEvents, hempty]⟩
  obtain ⟨_, heq⟩ | ⟨_, _, _, hblocked, _⟩ := hc.afterUnblock_cases
  · rw [unblocked, heq]
  · cases hempty.symm.trans hblocked

theorem dispatched_of_settled (h : sim.machine.Settled) :
    sim.dispatched = sim ∧ sim.switchEvents = [] := by
  have hstay := Machine.next?_of_settled h
  exact ⟨by rw [dispatched, Machine.afterDispatch_of_stay hstay], by rw [switchEvents, hstay]⟩

/-- With nobody blocked and nobody ready behind an idle CPU there is nothing to do. -/
theorem Happened.eq_of_empty (hx : Happened sim x) (h : sim.Drainable)
    (hcall : x.request.call = .unblock) (hempty : sim.machine.scheduler.blocked = []) :
    x.response = .ok (.unblocked none) ∧ x.after = sim := by
  obtain ⟨hunblocked, hwake⟩ := unblocked_of_empty h.coherent.toScheduled hempty
  obtain ⟨hdispatched, hswitch⟩ := dispatched_of_settled h.settled
  cases hx with
  | stepped | stopped => cases hcall
  | stuck hunblock =>
      exact absurd hunblock (Unblocked.not_error h.coherent h.sound h.tick_lt)
  | unblocked hunblock =>
      cases hunblock with
      | done =>
          rw [hempty, hunblocked, hwake, hswitch]
          exact ⟨rfl, hdispatched⟩

theorem Drainable.drains (h : sim.Drainable) (hcalls : ∀ q ∈ calls, q.call = .unblock) :
    sim.Drains calls := by
  obtain ⟨hresponses, hdrained, hend⟩ := drained_run h hcalls
  refine ⟨hresponses, hdrained, fun hall files => ?_⟩
  have hempty := hdrained.machine.blocked_eq
  rw [List.drop_eq_nil_of_le hall] at hempty
  exact (happened hend.toUnderway ⟨.unblock, files⟩).eq_of_empty hend rfl hempty

end Draining

section Launch

variable {settings : Settings}

theorem drainable_run (h : 1 ≤ settings.tableCapacity) (loader : Loader) (program : Program)
    (hlength : requests.length < Numeral.writingBound) :
    (run (launched settings loader program) requests).Drainable := by
  have hunderway := underway_launched h loader program
  have hsound := sound_launched h loader program
  have htick : (launched settings loader program).tick + requests.length <
      Numeral.writingBound := (Nat.zero_add _).trans_lt hlength
  have hentered := entered_of_mem_history hunderway hsound (.inr htick)
  have hend := tick_run_le hentered
  exact ⟨underway_run hunderway requests, sound_run hentered hsound, by omega,
    (settled_launched h loader program hlength).1⟩

/-- After any calls, as long as ticks can be written, everybody who is blocked has the registers that
were saved when it blocked, and unblockings wake all of them, front first. -/
theorem drained_of_launch (h : 1 ≤ settings.tableCapacity) (loader : Loader) (program : Program) :
    ∃ sim, launch settings loader program = .ok sim ∧
    ∀ requests : List Request, requests.length < Numeral.writingBound →
      Backed (history sim requests) (run sim requests) ∧
      ∀ calls : List Request, (∀ q ∈ calls, q.call = .unblock) →
        (run sim requests).Drains calls := by
  refine ⟨_, launch_eq h loader program, fun requests hlength => ⟨?_, fun calls hcalls => ?_⟩⟩
  · have hnone : Backed [] (launched settings loader program) := by
      intro slot b hb hstate
      have hat : (launched settings loader program).machine.table.stateAt slot = some .blocked :=
        (ProcessTable.stateAt_of_blockAt hb).trans (congrArg some hstate)
      cases ((stateAt_launched h slot (by simp)).mp hat).2
    exact backed_run (underway_launched h loader program) hnone requests
  · exact (drainable_run h loader program hlength).drains hcalls

end Launch

/-- A process and its child, which both block. -/
def drainDemo : Program where
  instructions := [⟨.fork, 0, ""⟩, ⟨.set, 7, ""⟩, ⟨.block, 0, ""⟩]

theorem drained_of_launch_drainDemo :
    (1 : Int) ≤ ({} : Settings).tableCapacity ∧ (emptySteps 5).length < Numeral.writingBound ∧
    (run (launched {} {} drainDemo) (emptySteps 5)).machine.scheduler = ⟨none, [], [0, 1], 1⟩ ∧
    ∃ sim, launch {} {} drainDemo = .ok sim ∧
      Backed (history sim (emptySteps 5)) (run sim (emptySteps 5)) ∧
      ∀ calls : List Request, (∀ q ∈ calls, q.call = .unblock) →
        (run sim (emptySteps 5)).Drains calls := by
  have hlength : (emptySteps 5).length < Numeral.writingBound := Numeral.lt_writingBound (by decide)
  have hcapacity : (1 : Int) ≤ ({} : Settings).tableCapacity := by decide
  obtain ⟨sim, hlaunch, hdrained⟩ := drained_of_launch hcapacity {} drainDemo
  exact ⟨hcapacity, hlength, by decide +kernel, sim, hlaunch, hdrained (emptySteps 5) hlength⟩

end Simulation
end Uniproc
