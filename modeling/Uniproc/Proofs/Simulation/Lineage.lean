import Uniproc.Proofs.Simulation.Course

/-!
Lineage: the processes of a whole run, those that have ended included, and who made whom. A
slot is used again and again, a number only once, so it is the numbers by which processes are
followed back to the first one.
-/

namespace Uniproc
namespace Roster

/-- The processes that are in slots without one before. -/
def newcomers (old new : List (Option Identity)) : List Identity :=
  (old.zip new).filterMap fun (i?, j?) => if i?.isSome then none else j?

theorem newcomers_self (slots : List (Option Identity)) : newcomers slots slots = [] := by
  rw [newcomers]
  induction slots with
  | nil => rfl
  | cons i? rest ih => cases i? <;> simpa using ih

/-- Where one slot has changed, who is there now is new if nobody was. -/
theorem newcomers_set (slots : List (Option Identity)) (slot : Nat) (i? : Option Identity) :
    newcomers slots (slots.set slot i?) = if slots[slot]? = some none then i?.toList else [] := by
  induction slots generalizing slot with
  | nil => rfl
  | cons old rest ih =>
      cases slot with
      | zero =>
          have hrest := newcomers_self rest
          rw [newcomers] at hrest
          cases old <;> cases i? <;> simp [newcomers, hrest]
      | succ slot =>
          have hrest := ih slot
          rw [newcomers] at hrest
          cases old <;> simp [newcomers, hrest]

/-- No two processes that are there have the same number. -/
theorem Numbered.nodup_pids {r : Roster} (h : r.Numbered) : r.pids.Nodup := by
  rw [pids, processes, List.reduceOption, List.Nodup, List.pairwise_map, List.pairwise_filterMap,
    List.pairwise_iff_getElem]
  intro k l hk hl hlt i hi j hj hpid
  have hat {k : Nat} (hk : k < r.slots.length) {i : Identity} (hi : r.slots[k] = some i) :
      r.slots[k]? = some (some i) := by
    rw [List.getElem?_eq_getElem hk, hi]
  have hsame := h.slot_inj (hat hk hi) (hat hl hj) hpid
  omega

end Roster

namespace Machine

variable {m : Machine} {slot other : Int} {b c : ControlBlock}

/-- Whoever was last in a slot, having ended or not. -/
def identityAt (m : Machine) (slot : Int) : Option Identity :=
  (m.table.blockAt slot).map (·.identity)

theorem identityAt_of_update {m' : Machine} (hb : m.table.blockAt slot = some b)
    (hidentity : c.identity = b.identity)
    (hu : ∀ other, m'.table.blockAt other = if other = slot then some c else m.table.blockAt other)
    (other : Int) : m'.identityAt other = m.identityAt other := by
  rw [identityAt, identityAt, hu]
  split
  · next heq => rw [heq, hb, Option.map_some, Option.map_some, hidentity]
  · rfl

theorem identityAt_afterDispatch (h : m.Scheduled) (other : Int) :
    m.afterDispatch.identityAt other = m.identityAt other := by
  obtain ⟨_, heq⟩ | ⟨slot, b, rest, _, _, _, hb, _, heq⟩ := h.afterDispatch_cases
  · rw [heq]
  · rw [heq]
    exact identityAt_of_update hb (by rfl) (blockAt_afterSwitch hb rest) other

theorem identityAt_afterUnblock (h : m.Scheduled) (other : Int) :
    m.afterUnblock.identityAt other = m.identityAt other := by
  obtain ⟨_, heq⟩ | ⟨slot, b, rest, _, hb, _, heq⟩ := h.afterUnblock_cases
  · rw [heq]
  · rw [heq]
    exact identityAt_of_update hb (by rfl) (blockAt_afterWake hb rest) other

theorem identityAt_afterFork {child : Int} {old : ControlBlock}
    (hold : m.table.blockAt child = some old) (parent : ControlBlock) (offset : Int) (tick : Nat)
    (other : Int) : (m.afterFork child parent offset tick).identityAt other =
      if other = child then some (m.newborn parent tick).identity else m.identityAt other := by
  rw [identityAt, identityAt, blockAt_afterFork hold]
  split <;> rfl

/-- Only a child takes the place of another process. -/
theorem identityAt_affect (hb : m.table.blockAt slot = some b) {e : Effect}
    (hne : ∀ child offset, e ≠ .spawn child offset) (tick : Nat) (other : Int) :
    (m.affect slot b tick e).identityAt other = m.identityAt other := by
  have hreplace (p : Program) : (m.afterReplace slot b p).identityAt other = m.identityAt other :=
    identityAt_of_update hb (by rfl) (blockAt_afterReplace hb p) other
  cases e with
  | compute _ | refuse | keep _ => rfl
  | block => exact identityAt_of_update hb (by rfl) (blockAt_afterBlock hb) other
  | finish => exact identityAt_of_update hb (by rfl) (blockAt_afterEnd hb) other
  | spawn child offset => exact absurd rfl (hne child offset)
  | install p => exact hreplace p
  | lose _ | abort _ => exact hreplace {}

/-- Only a child is a newcomer, and only a child gets a number. -/
theorem roster_affect_of_ne (h : m.Scheduled) (hrun : m.scheduler.running = some slot)
    (hb : m.table.blockAt slot = some b) {e : Effect} (he : m.Admits e)
    (hne : ∀ child offset, e ≠ .spawn child offset) (tick : Nat) :
    Roster.newcomers m.table.roster.slots (m.affect slot b tick e).table.roster.slots = [] ∧
      (m.affect slot b tick e).table.nextPid = m.table.nextPid := by
  have hroster := roster_affect h hrun hb he tick
  have hnext : (m.affect slot b tick e).table.nextPid = _ := congrArg Roster.nextPid hroster
  rw [hroster, hnext]
  cases e with
  | finish =>
      refine ⟨(Roster.newcomers_set _ _ _).trans ?_, rfl⟩
      split <;> rfl
  | spawn child offset => exact absurd rfl (hne child offset)
  | _ => exact ⟨Roster.newcomers_self _, rfl⟩

theorem numbered_affect (h : m.Scheduled) (hrun : m.scheduler.running = some slot)
    (hb : m.table.blockAt slot = some b) {e : Effect} (he : m.Admits e)
    (hn : m.table.roster.Numbered) (tick : Nat) :
    (m.affect slot b tick e).table.roster.Numbered := by
  rw [roster_affect h hrun hb he tick]
  cases e with
  | finish => exact hn.leave _
  | spawn child offset =>
      refine hn.enter (fun k hk => ?_) rfl
      have hbelow : ∃ c, m.table.Live k c :=
        ProcessTable.live_of_lt_allocate he (by omega) (by omega)
      obtain ⟨c, hlive⟩ := hbelow
      exact ⟨_, ProcessTable.getElem?_roster_of_live hlive⟩
  | _ => exact hn

end Machine

namespace Simulation
namespace Moment

/-- Who has been made on the way from the state before this call to the machine `m`. -/
def newcomers (x : Moment) (m : Machine) : List Identity :=
  Roster.newcomers x.before.machine.table.roster.slots m.table.roster.slots

/-- What a call has to do with the numbers: it makes nobody and draws none, or the process that
has its turn makes a child under the next number, in a free slot. -/
inductive Birth (x : Moment) (m : Machine) : Prop
  | nobody (hnew : x.newcomers m = [])
      (hidentity : ∀ slot, m.identityAt slot = x.before.machine.identityAt slot)
      (hnext : m.table.nextPid = x.before.machine.table.nextPid)
  | child {slot place : Int} {b old : ControlBlock} {i : Identity} (hfork : x.Executes .fork)
      (hrun : x.before.machine.scheduler.running = some slot)
      (hb : x.before.machine.table.blockAt slot = some b)
      (hfree : x.before.machine.table.blockAt place = some old ∧ old.isFree = true)
      (hpid : i.pid = x.before.machine.table.nextPid) (hparent : i.parent = some b.pid)
      (hnew : x.newcomers m = [i])
      (hidentity : ∀ slot, m.identityAt slot =
        if slot = place then some i else x.before.machine.identityAt slot)
      (hnext : m.table.nextPid = x.before.machine.table.nextPid + 1)

variable {x : Moment} {slot : Int} {b : ControlBlock}

theorem birth_of_spawn {child : Nat} {offset : Int} (hc : x.before.machine.Coherent)
    (hcall : x.request.call = .step) (hrun : x.before.machine.scheduler.running = some slot)
    (hb : x.before.machine.table.blockAt slot = some b)
    (he : x.before.nextEffect x.request.files = .spawn child offset) :
    x.Birth (x.before.afterTurn x.request.files slot b) := by
  have hturning := turning_of_running hc hrun hb x.request.files
  have hadmits := hturning.admits
  have hroster := Machine.roster_affect hturning.coherent.toScheduled hturning.running
    hturning.block hadmits x.before.turning.tick
  have htable := table_turning x.before
  change (x.before.afterTurn x.request.files slot b).table.roster = _ at hroster
  rw [he, htable] at hroster
  rw [he] at hadmits
  obtain ⟨old, hold, hfree⟩ := ProcessTable.blockAt_of_allocate hadmits
  have hidentity := Machine.identityAt_afterFork hold b offset x.before.turning.tick
  have hnone := ProcessTable.getElem?_roster_of_allocate hadmits
  rw [htable] at hold hnone
  refine .child (executes_of_next? hc hcall hrun (exists_fork_of_spawn he)) hrun hb ⟨hold, hfree⟩
    (i := (x.before.turning.machine.newborn b x.before.turning.tick).identity) ?_ rfl ?_ ?_ ?_
  · exact congrArg ProcessTable.nextPid htable
  · rw [newcomers, hroster]
    exact (Roster.newcomers_set _ child _).trans (if_pos hnone)
  · intro other
    rw [afterTurn, he]
    refine (hidentity other).trans ?_
    rw [Machine.identityAt, Machine.identityAt, htable]
  · exact congrArg Roster.nextPid hroster

theorem birth_of_no_spawn (hc : x.before.machine.Coherent)
    (hrun : x.before.machine.scheduler.running = some slot)
    (hb : x.before.machine.table.blockAt slot = some b)
    (hne : ∀ child offset, x.before.nextEffect x.request.files ≠ .spawn child offset) :
    x.Birth (x.before.afterTurn x.request.files slot b) := by
  have hturning := turning_of_running hc hrun hb x.request.files
  have htable := table_turning x.before
  have hroster := Machine.roster_affect_of_ne hturning.coherent.toScheduled hturning.running
    hturning.block hturning.admits hne x.before.turning.tick
  rw [htable] at hroster
  refine .nobody hroster.1 (fun other => ?_) hroster.2
  refine (Machine.identityAt_affect hturning.block hne x.before.turning.tick other).trans ?_
  rw [Machine.identityAt, Machine.identityAt, htable]

theorem Course.birth (h : x.Course) (hc : x.before.machine.Coherent) :
    x.Birth x.after.machine := by
  refine h.keeps hc ?_ ?_ ?_ ?_
  · intro htable _
    refine .nobody ?_ (fun slot => ?_) ?_
    · rw [newcomers, htable, Roster.newcomers_self]
    · rw [Machine.identityAt, htable]
      rfl
    · rw [htable]
  · intro slot b hcall hrun hb
    by_cases hspawn : ∃ child offset, x.before.nextEffect x.request.files = .spawn child offset
    · obtain ⟨child, offset, he⟩ := hspawn
      exact birth_of_spawn hc hcall hrun hb he
    · exact birth_of_no_spawn hc hrun hb fun child offset he => hspawn ⟨child, offset, he⟩
  · intro _
    have hroster := Machine.roster_afterUnblock hc.toScheduled
    refine .nobody ?_ (Machine.identityAt_afterUnblock hc.toScheduled) ?_
    · rw [newcomers, hroster, Roster.newcomers_self]
    · exact congrArg Roster.nextPid hroster
  · intro m hm hbirth
    have hroster := Machine.roster_afterDispatch hm.toScheduled
    have hnext : m.afterDispatch.table.nextPid = m.table.nextPid := congrArg Roster.nextPid hroster
    have hnewcomers : x.newcomers m.afterDispatch = x.newcomers m := by
      rw [newcomers, newcomers, hroster]
    have hidentity := Machine.identityAt_afterDispatch hm.toScheduled
    cases hbirth with
    | nobody hnew hkept hsame =>
        exact .nobody (hnewcomers.trans hnew) (fun slot => (hidentity slot).trans (hkept slot))
          (hnext.trans hsame)
    | child hfork hrun hb hfree hpid hparent hnew hkept hdrawn =>
        exact .child hfork hrun hb hfree hpid hparent (hnewcomers.trans hnew)
          (fun slot => (hidentity slot).trans (hkept slot)) (hnext.trans hdrawn)

theorem Course.numbered (h : x.Course) (hc : x.before.machine.Coherent)
    (hn : x.before.machine.table.roster.Numbered) : x.after.machine.table.roster.Numbered := by
  refine h.keeps (P := fun m => m.table.roster.Numbered) hc ?_ ?_ ?_ ?_
  · intro htable _
    rwa [htable]
  · intro slot b _ hrun hb
    have hturning := turning_of_running hc hrun hb x.request.files
    rw [← table_turning] at hn
    exact Machine.numbered_affect hturning.coherent.toScheduled hturning.running hturning.block
      hturning.admits hn x.before.turning.tick
  · intro _
    rwa [Machine.roster_afterUnblock hc.toScheduled]
  · intro m hm hn
    rwa [Machine.roster_afterDispatch hm.toScheduled]

end Moment

/-- The first process and all that have been made since. -/
def processes (past : List Moment) : List Identity :=
  initIdentity :: past.flatMap fun x => x.newcomers x.after.machine

/-- One process was made by another one of these. -/
def ChildOf (processes : List Identity) (i j : Identity) : Prop :=
  j ∈ processes ∧ i.parent = some j.pid

/-- The processes of a run, over the moments so far: their numbers are 0, 1, 2 and so on, in
the order in which they were made, each after its parent, and whoever is in a slot of the
state now or was last there is one of them. -/
structure Lineage (past : List Moment) (now : Simulation) : Prop where
  pids : (processes past).map (·.pid) = (List.range (processes past).length).map Int.ofNat
  nextPid : now.machine.table.nextPid = (processes past).length
  parents {i : Identity} : i ∈ processes past → i ≠ initIdentity →
    ∃ j, ChildOf (processes past) i j ∧ j.pid < i.pid
  known {slot : Int} {b : ControlBlock} : now.machine.table.blockAt slot = some b →
    b.identity = ({} : ControlBlock).identity ∨ b.identity ∈ processes past

variable {past : List Moment} {sim : Simulation} {x : Moment} {i : Identity}

theorem processes_append (past : List Moment) (x : Moment) :
    processes (past ++ [x]) = processes past ++ x.newcomers x.after.machine := by
  rw [processes, List.flatMap_append, List.flatMap_singleton]
  rfl

theorem Lineage.pid_bounds (h : Lineage past sim) (hi : i ∈ processes past) :
    0 ≤ i.pid ∧ i.pid < sim.machine.table.nextPid := by
  have hmem : i.pid ∈ (processes past).map (·.pid) := List.mem_map_of_mem hi
  rw [h.pids] at hmem
  obtain ⟨n, hn, heq⟩ := List.mem_map.mp hmem
  have hlt := List.mem_range.mp hn
  have hnext := h.nextPid
  rw [← heq]
  exact ⟨Int.natCast_nonneg n, by rw [hnext]; exact Int.ofNat_lt.mpr hlt⟩

/-- No two processes of a run have the same number. -/
theorem Lineage.nodup_pids (h : Lineage past sim) : ((processes past).map (·.pid)).Nodup := by
  rw [h.pids]
  exact List.nodup_range.map fun _ _ heq => Int.ofNat.inj heq

/-- From child to parent, everybody comes to the first process. -/
theorem Lineage.descends (h : Lineage past sim) (hi : i ∈ processes past) :
    Relation.ReflTransGen (ChildOf (processes past)) i initIdentity := by
  induction hn : i.pid.toNat using Nat.strong_induction_on generalizing i with
  | h n ih =>
      by_cases hinit : i = initIdentity
      · rw [hinit]
      · obtain ⟨j, hchild, hlt⟩ := h.parents hi hinit
        have hbounds := h.pid_bounds hchild.1
        have hrest := ih j.pid.toNat (by omega) hchild.1 rfl
        exact hrest.head hchild

/-- Whoever has a number is one of the processes of the run. -/
theorem Lineage.mem_of_pid (h : Lineage past sim) {slot : Int} {b : ControlBlock}
    (hb : sim.machine.table.blockAt slot = some b) (hpid : 0 ≤ b.pid) :
    b.identity ∈ processes past := by
  refine (h.known hb).resolve_left fun hblank => ?_
  have hnegative : b.pid = -1 := congrArg Identity.pid hblank
  omega

theorem known_of_identityAt {now : Simulation} {slot : Int} {b : ControlBlock}
    (h : Lineage past sim) (hb : now.machine.table.blockAt slot = some b)
    (hkept : now.machine.identityAt slot = sim.machine.identityAt slot) :
    b.identity = ({} : ControlBlock).identity ∨ b.identity ∈ processes past := by
  rw [Machine.identityAt, hb, Option.map_some, Machine.identityAt] at hkept
  obtain ⟨c, hc, heq⟩ := Option.map_eq_some_iff.mp hkept.symm
  rw [← heq]
  exact h.known hc

/-- One call carries the lineage on. -/
theorem Lineage.next (h : Lineage past x.before) (hc : x.before.machine.Coherent)
    (hn : x.before.machine.table.roster.Numbered) (hbirth : x.Birth x.after.machine) :
    Lineage (past ++ [x]) x.after := by
  have happend := processes_append past x
  cases hbirth with
  | nobody hnew hidentity hnext =>
      rw [hnew, List.append_nil] at happend
      constructor
      case pids =>
        rw [happend]
        exact h.pids
      case nextPid =>
        rw [happend, hnext]
        exact h.nextPid
      case parents =>
        rw [happend]
        exact h.parents
      case known =>
        intro slot b hb
        rw [happend]
        exact known_of_identityAt h hb (hidentity slot)
  | @child slot place b old i _ hrun hb _ hpid hparent hnew hidentity hnext =>
      have hlive := live_running hc.toScheduled hrun hb
      have hmem : b.identity ∈ processes past :=
        h.mem_of_pid hb (hn.pid_bounds (ProcessTable.getElem?_roster_of_live hlive)).1
      have hbounds := h.pid_bounds hmem
      rw [hnew] at happend
      have hlength : (processes (past ++ [x])).length = (processes past).length + 1 := by
        rw [happend, List.length_append, List.length_singleton]
      have hold {j : Identity} (hj : j ∈ processes past) : j ∈ processes (past ++ [x]) := by
        rw [happend]
        exact List.mem_append_left _ hj
      constructor
      case pids =>
        rw [hlength, happend, List.map_append, h.pids, List.range_succ, List.map_append,
          List.map_singleton, List.map_singleton, hpid, h.nextPid]
        rfl
      case nextPid =>
        rw [hlength, hnext, h.nextPid, Int.natCast_succ]
      case parents =>
        intro j hj hinit
        rw [happend, List.mem_append, List.mem_singleton] at hj
        rcases hj with hj | rfl
        · obtain ⟨k, hchild, hlt⟩ := h.parents hj hinit
          exact ⟨k, ⟨hold hchild.1, hchild.2⟩, hlt⟩
        · refine ⟨b.identity, ⟨hold hmem, hparent⟩, ?_⟩
          rw [hpid]
          exact hbounds.2
      case known =>
        intro other c hother
        have hat := hidentity other
        by_cases hplace : other = place
        · rw [if_pos hplace, Machine.identityAt, hother] at hat
          rw [happend, List.mem_append, List.mem_singleton]
          exact .inr (.inr (Option.some.inj hat))
        · rw [if_neg hplace] at hat
          exact (known_of_identityAt h hother hat).imp_right hold

theorem lineage_run (hu : sim.Underway) (hn : sim.machine.table.roster.Numbered)
    (h : Lineage past sim) (requests : List Request) :
    Lineage (past ++ history sim requests) (run sim requests) ∧
      (run sim requests).machine.table.roster.Numbered := by
  induction requests generalizing sim past with
  | nil =>
      rw [history, List.append_nil]
      exact ⟨h, hn⟩
  | cons q rest ih =>
      have hhappened := happened hu q
      have hcourse : (sim.happen q).Course := hhappened.course
      have hnext := h.next (x := sim.happen q) hu.coherent hn (hcourse.birth hu.coherent)
      rw [history, List.append_cons]
      exact ih (hhappened.underway hu) (hcourse.numbered hu.coherent hn) hnext

theorem history_append (sim : Simulation) (requests later : List Request) :
    history sim (requests ++ later) =
      history sim requests ++ history (run sim requests) later := by
  induction requests generalizing sim with
  | nil => rfl
  | cons q rest ih =>
      rw [List.cons_append, history, history, List.cons_append, ih]
      rfl

theorem processes_subset (sim : Simulation) (requests later : List Request) :
    processes (history sim requests) ⊆ processes (history sim (requests ++ later)) := by
  rw [history_append]
  simp only [processes, List.flatMap_append]
  exact List.cons_subset_cons _ (List.subset_append_left _ _)

section Launch

variable {settings : Settings} {loader : Loader} {program : Program}

theorem lineage_launched (h : 1 ≤ settings.tableCapacity) (loader : Loader) (program : Program) :
    Lineage [] (launched settings loader program) where
  pids := rfl
  nextPid := by
    have hroster : (launched settings loader program).books.roster = _ := roster_launched h
    exact congrArg Roster.nextPid hroster
  parents hi hne := absurd (List.mem_singleton.mp hi) hne
  known {slot b} hb := by
    rw [blockAt_launched h] at hb
    split at hb
    · cases hb
      exact .inr List.mem_cons_self
    · exact .inl (congrArg ControlBlock.identity (blockAt_replicate hb))

/-- What is so of the processes of a run: no two have the same number, which is as true of
those that are there at one time; whoever has a number has it with the same parent, in
whatever slot and at whatever time; and from child to parent everybody comes to the first
process. -/
structure Descended (sim : Simulation) (requests : List Request) : Prop where
  births : ∀ x ∈ history sim requests, x.Birth x.after.machine
  lineage : Lineage (history sim requests) (run sim requests)
  nodup_pids : ((processes (history sim requests)).map (·.pid)).Nodup
  nodup_livePids : (run sim requests).livePids.Nodup
  lasting {later : List Request} {slot other : Int} {b c : ControlBlock} :
    (run sim requests).machine.table.blockAt slot = some b →
    (run sim (requests ++ later)).machine.table.blockAt other = some c →
    0 ≤ b.pid → b.pid = c.pid → b.identity = c.identity
  descends {i : Identity} : i ∈ processes (history sim requests) →
    Relation.ReflTransGen (ChildOf (processes (history sim requests))) i initIdentity

/-- So it is after any calls, whether they return or stop. -/
theorem descended_of_launch (h : 1 ≤ settings.tableCapacity) (loader : Loader)
    (program : Program) : ∃ sim, launch settings loader program = .ok sim ∧
    ∀ requests, Descended sim requests := by
  have hunderway := underway_launched h loader program
  have hnumbered := (sound_launched h loader program).numbered
  have hlineage := lineage_launched h loader program
  refine ⟨_, launch_eq h loader program, fun requests => ?_⟩
  obtain ⟨hnow, hn⟩ := lineage_run hunderway hnumbered hlineage requests
  constructor
  case births =>
    intro x hx
    obtain ⟨hu, hhappened⟩ := happened_of_mem_history hunderway requests x hx
    exact hhappened.course.birth hu.coherent
  case lineage => exact hnow
  case nodup_pids => exact hnow.nodup_pids
  case nodup_livePids =>
    rw [livePids_eq]
    exact hn.nodup_pids
  case lasting =>
    intro later slot other b c hb hc hpos hpid
    obtain ⟨hlater, _⟩ := lineage_run hunderway hnumbered hlineage (requests ++ later)
    have hthen := processes_subset _ requests later (hnow.mem_of_pid hb hpos)
    exact List.inj_on_of_nodup_map hlater.nodup_pids hthen (hlater.mem_of_pid hc (hpid ▸ hpos)) hpid
  case descends =>
    intro i hi
    exact hnow.descends hi

end Launch

theorem descended_of_launch_refill : (1 : Int) ≤ ({} : Settings).tableCapacity ∧
    (processes (history (launched {} {} refillDemo) refillDemoCalls)).map
      (fun i => (i.pid, i.parent)) = [(0, none), (1, some 0), (2, some 0)] ∧
    ∃ sim, launch {} {} refillDemo = .ok sim ∧ ∀ requests, Descended sim requests :=
  ⟨by decide, by decide +kernel, descended_of_launch (by decide) {} refillDemo⟩

end Simulation
end Uniproc
