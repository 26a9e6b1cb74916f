import Uniproc.Proofs.Machine.Solo
import Uniproc.Proofs.Simulation.History

/-!
Isolation: no process can tell that there are others. Its steps, taken out of the history
of a run, are those of the process on its own; that it waits in between, and that slots
and the CPU are used by others meanwhile, does not show.
-/

namespace Uniproc
namespace Simulation

namespace Moment

/-- The process that has had its turn. -/
def pid? (x : Moment) : Option Int :=
  match x.response with
  | .ok (.report r) => r.pid
  | _ => none

def surroundings (x : Moment) : Surroundings where
  forks := x.forked
  load := x.before.loader.load x.request.files
  revert := x.before.settings.revert

/-- What a child of this step starts with: the registers of its parent, which has fetched
the fork. -/
def start (x : Moment) : Solo where
  program := x.before.machine.cpu.program.getD {}
  programCounter := x.before.machine.cpu.programCounter.toNat + 1
  value := x.before.machine.cpu.value

end Moment

/-- The steps of process `p`, of which each finds the registers as the ones before have left
them, and after which it is there as long as it has a next state. -/
def Retraces (p : Int) : Option Solo → List Moment → Prop
  | _, [] => True
  | none, _ :: _ => False
  | some s, x :: rest =>
    x.before.machine.cpu.Holds s ∧ x.instruction? = s.fetch ∧
    ((s.next x.surroundings).isSome ↔ p ∈ x.after.livePids) ∧
    Retraces p (s.next x.surroundings) rest

/-- What process `p` has started with: the program that was launched, or what its parent
had. -/
def origin (program : Program) (past : List Moment) (p : Int) : Option Solo :=
  if p = initPid then some { program }
  else (past.find? fun x => decide (x.child? = some p)).map (·.start)

variable {sim : Simulation} {slot : Int} {b : ControlBlock} {requests : List Request}

theorem next?_eq_fetch (hc : sim.machine.Coherent)
    (hrun : sim.machine.scheduler.running = some slot)
    (hb : sim.machine.table.blockAt slot = some b) :
    sim.next? = (sim.machine.soloAt slot b).fetch := by
  rw [next?, hc.program_eq hrun hb, Machine.soloAt_running hrun]
  rfl

theorem soloAt_fetched (hc : sim.machine.Coherent)
    (hrun : sim.machine.scheduler.running = some slot) :
    sim.fetched.machine.soloAt slot b = (sim.machine.soloAt slot b).advanced := by
  have hcounter : (sim.machine.cpu.programCounter + 1).toNat =
      sim.machine.cpu.programCounter.toNat + 1 := by
    have := hc.counter_nonneg
    omega
  rw [Machine.soloAt_running hrun, Machine.soloAt_running (m := sim.fetched.machine) hrun]
  simp only [fetched, Machine.withCounter, hcounter, Solo.advanced]

/-- On its own a process does what the effect of its instruction does to it. -/
theorem next_eq_affected {files : FileView} {i? : Option Instruction} {w : Surroundings}
    (hc : sim.machine.Coherent) (hrun : sim.machine.scheduler.running = some slot)
    (hb : sim.machine.table.blockAt slot = some b) (hnext : sim.next? = i?)
    (hload : w.load = sim.loader.load files) (hrevert : w.revert = sim.settings.revert)
    (hforks : w.forks = true ↔
      ∃ child offset, (sim.fetchedBy i?).effectAt files i? = .spawn child offset)
    (hdone : ∀ fault, (sim.fetchedBy i?).effectAt files i? ≠ .abort fault) :
    (sim.machine.soloAt slot b).next w =
      ((sim.fetchedBy i?).machine.soloAt slot b).affected
        ((sim.fetchedBy i?).effectAt files i?) := by
  rw [next?_eq_fetch hc hrun hb] at hnext
  cases i? with
  | none =>
      rw [Solo.next, hnext]
      rfl
  | some i =>
      have hsolo : (sim.fetchedBy (some i)).machine.soloAt slot b =
          (sim.machine.soloAt slot b).advanced := soloAt_fetched hc hrun
      have hvalue : (sim.machine.soloAt slot b).advanced.value = sim.machine.cpu.value := by
        rw [Machine.soloAt_running hrun]
        rfl
      rw [hsolo, Solo.next, hnext]
      simp only [effectAt, effectOf] at hforks hdone ⊢
      cases hop : i.opcode with
      | set | block | halt => rfl
      | add | subtract =>
          dsimp only
          rw [hvalue]
          rfl
      | fork =>
          simp only [hop] at hforks
          cases ha : (sim.fetchedBy (some i)).machine.table.allocate with
          | ok child =>
              have hmakes : w.forks = true := by
                rw [hforks, ha]
                exact ⟨child, i.number, rfl⟩
              simp only [hmakes, if_true]
              rfl
          | error _ =>
              have hnone : w.forks = false := by
                rw [← Bool.not_eq_true, hforks, ha]
                simp
              simp only [hnone]
              rfl
      | replace =>
          have hloader : (sim.fetchedBy (some i)).loader = sim.loader := rfl
          have hsettings : (sim.fetchedBy (some i)).settings = sim.settings := rfl
          simp only [hop, hloader, hsettings] at hdone
          simp only [hload, hrevert, hloader, hsettings]
          cases hloaded : sim.loader.load files i.path with
          | ok p => rfl
          | error fault =>
              rw [hloaded] at hdone
              cases fault with
              | load cause => cases sim.settings.revert <;> rfl
              | _ => exact absurd rfl (hdone _)

theorem mem_livePids_iff {p : Int} : p ∈ sim.livePids ↔
    ∃ slot b, sim.machine.table.Live slot b ∧ b.pid = p := by
  rw [livePids_eq, Roster.mem_pids_iff]
  constructor
  · rintro ⟨slot, i, hi, hp⟩
    obtain ⟨b, hlive, rfl⟩ := ProcessTable.live_of_getElem?_roster hi
    exact ⟨slot, b, hlive, hp⟩
  · rintro ⟨slot, b, hlive, hp⟩
    exact ⟨slot.toNat, b.identity, ProcessTable.getElem?_roster_of_live hlive, hp⟩

theorem mem_livePids_of_carries {p : Int} {s : Solo} (h : sim.machine.Carries p s) :
    p ∈ sim.livePids := by
  obtain ⟨slot, b, hlive, hp, _⟩ := h
  exact mem_livePids_iff.mpr ⟨slot, b, hlive, hp⟩

/-- The number of a process leads to its slot. -/
theorem soloAt_of_carries {s : Solo} (hs : sim.books.Sound)
    (hlive : sim.machine.table.Live slot b) (h : sim.machine.Carries b.pid s) :
    sim.machine.soloAt slot b = s := by
  obtain ⟨other, c, hother, hpid, hsolo⟩ := h
  have hslots : other.toNat = slot.toNat := hs.numbered.slot_inj
    (ProcessTable.getElem?_roster_of_live hother) (ProcessTable.getElem?_roster_of_live hlive) hpid
  have hslot := (ProcessTable.bounds_of_blockAt hlive.1).1
  have hnonneg := (ProcessTable.bounds_of_blockAt hother.1).1
  obtain rfl : other = slot := by omega
  obtain rfl : c = b := Option.some.inj (hother.1.symm.trans hlive.1)
  exact hsolo

/-- What a call has come to, if a process has had its turn in it. -/
structure Turn (x : Moment) (slot : Int) (b : ControlBlock) (mid : Simulation) (e : Effect) :
    Prop where
  running : x.before.machine.scheduler.running = some slot
  block : x.before.machine.table.blockAt slot = some b
  pid?_eq : x.pid? = some b.pid
  instruction?_eq : x.instruction? = x.before.next?
  mid_eq : mid = x.before.fetchedBy x.before.next?
  effect_eq : e = mid.effectAt x.request.files x.before.next?
  done : ∀ fault, e ≠ .abort fault
  machine_eq : x.after.machine = (mid.machine.affect slot b mid.tick e).afterDispatch

/-- A call that returns is a turn of one process, or has changed nothing but the queues. -/
theorem Moment.Entered.turn_or_wait {x : Moment} {answer : Answer} (hx : x.Entered)
    (hok : x.response = .ok answer) : (∃ slot b mid e, Turn x slot b mid e) ∨
    (x.pid? = none ∧ (x.after.machine = x.before.machine ∨
      x.after.machine = x.before.machine.afterUnblock.afterDispatch)) := by
  obtain ⟨before, request, response, after⟩ := x
  have hhappened : Happened before ⟨before, request, response, after⟩ := hx.happened
  cases hhappened with
  | stepped h =>
      cases h with
      | idle => exact .inr ⟨rfl, .inl rfl⟩
      | @done slot b report s hrun hb h =>
          cases h with
          | @done i? mid e hnext hmid he hdone =>
              subst hnext
              exact .inl ⟨slot, b, mid, e, hrun, hb, rfl, rfl, hmid.symm, he.symm, hdone, rfl⟩
  | unblocked h =>
      cases h with
      | done => exact .inr ⟨rfl, .inr rfl⟩
  | stopped | stuck => cases hok

namespace Turn

variable {x : Moment} {mid : Simulation} {e : Effect}

theorem mid_running (h : Turn x slot b mid e) :
    mid.machine.scheduler.running = some slot := by
  rw [h.mid_eq, scheduler_fetchedBy, h.running]

theorem mid_block (h : Turn x slot b mid e) : mid.machine.table.blockAt slot = some b := by
  rw [h.mid_eq, table_fetchedBy, h.block]

theorem mid_coherent (h : Turn x slot b mid e) (hc : x.before.machine.Coherent) :
    mid.machine.Coherent := by
  rw [h.mid_eq]
  exact coherent_fetchedBy hc h.running _

theorem admits (h : Turn x slot b mid e) : mid.machine.Admits e := by
  rw [h.effect_eq]
  exact admits_effectAt _ _ _

/-- Another process is what it was before the turn. -/
theorem carries_of_ne {p : Int} {s : Solo} (h : Turn x slot b mid e)
    (hc : x.before.machine.Coherent) (hp : x.before.machine.Carries p s) (hne : p ≠ b.pid) :
    x.after.machine.Carries p s := by
  have hmid : mid.machine.Carries p s := by
    rw [h.mid_eq]
    cases x.before.next? with
    | none => exact hp
    | some i => exact hp.withCounter_of_ne h.running h.block hne _
  have haffect := hmid.affect_of_ne h.mid_running h.mid_block hne h.admits mid.tick
  have hcoherent := Machine.coherent_affect (h.mid_coherent hc) h.mid_running h.mid_block h.admits
    mid.tick
  rw [h.machine_eq]
  exact haffect.afterDispatch hcoherent.toScheduled

/-- The fork of the turn has made a child just if that was its effect. -/
theorem forked_iff (h : Turn x slot b mid e) (hx : x.Entered) :
    x.forked = true ↔ ∃ child offset, e = .spawn child offset := by
  have hcoherent := Machine.coherent_affect (h.mid_coherent hx.underway.coherent) h.mid_running
    h.mid_block h.admits mid.tick
  have hroster := Machine.roster_affect (h.mid_coherent hx.underway.coherent).toScheduled
    h.mid_running h.mid_block h.admits mid.tick
  have hnext : x.after.machine.table.nextPid =
      (mid.machine.affect slot b mid.tick e).table.nextPid := by
    rw [h.machine_eq]
    exact congrArg (·.nextPid) (Machine.roster_afterDispatch hcoherent.toScheduled)
  have hbefore : mid.machine.table.nextPid = x.before.machine.table.nextPid := by
    rw [h.mid_eq, table_fetchedBy]
  rw [hx.forked_iff, hnext, ← hbefore]
  have hchange := congrArg (·.nextPid) hroster
  change (mid.machine.affect slot b mid.tick e).table.nextPid = _ at hchange
  rw [hchange]
  cases e with
  | spawn child offset =>
      have hne : mid.machine.table.nextPid + 1 ≠ mid.machine.table.nextPid := by omega
      exact iff_of_true hne ⟨child, offset, rfl⟩
  | _ =>
      refine iff_of_false (fun hne => hne rfl) ?_
      simp

theorem roster_after (h : Turn x slot b mid e) (hc : x.before.machine.Coherent) :
    x.after.books.roster = (mid.machine.affect slot b mid.tick e).table.roster := by
  have hcoherent := Machine.coherent_affect (h.mid_coherent hc) h.mid_running h.mid_block h.admits
    mid.tick
  change x.after.machine.table.roster = _
  rw [h.machine_eq, Machine.roster_afterDispatch hcoherent.toScheduled]

/-- Nobody but the process whose turn it was can have ended. -/
theorem ended_iff {p : Int} (h : Turn x slot b mid e) (hx : x.Entered)
    (hp : p ∈ x.before.livePids) : p ∉ x.after.livePids ↔ e = .finish ∧ p = b.pid := by
  have hc := hx.underway.coherent
  have hroster := Machine.roster_affect (h.mid_coherent hc).toScheduled h.mid_running h.mid_block
    h.admits mid.tick
  have hmid : mid.machine.table.roster = x.before.books.roster := by
    rw [h.mid_eq, table_fetchedBy]
    rfl
  have hentry := ProcessTable.getElem?_roster_of_live
    (live_running (h.mid_coherent hc).toScheduled h.mid_running h.mid_block)
  have hadmits := h.admits
  have hn := hx.sound.numbered
  rw [livePids_eq, ← hmid] at hp
  rw [← hmid] at hn
  rw [livePids_eq, h.roster_after hc, hroster]
  cases e with
  | finish =>
      refine ⟨fun hnot => ⟨rfl, ?_⟩, fun ⟨_, hpid⟩ => ?_⟩
      · by_contra hne
        refine hnot (Roster.mem_pids_leave hp fun i hi hpid => hne ?_)
        cases hentry.symm.trans hi
        exact hpid.symm
      · subst hpid
        exact hn.not_mem_leave hentry
  | spawn child offset =>
      have hstays := Roster.mem_pids_enter hp (ProcessTable.getElem?_roster_of_allocate hadmits)
        (mid.machine.newborn b mid.tick).identity
      exact iff_of_false (fun hnot => hnot hstays) (by simp)
  | _ => exact iff_of_false (fun hnot => hnot hp) (by simp)

/-- The process whose turn it was took the step that it takes on its own. -/
theorem retraces {s : Solo} (h : Turn x slot b mid e) (hx : x.Entered)
    (hp : x.before.machine.Carries b.pid s) :
    x.before.machine.cpu.Holds s ∧ x.instruction? = s.fetch ∧
      match s.next x.surroundings with
      | some t => x.after.machine.Carries b.pid t
      | none => b.pid ∉ x.after.livePids := by
  have hc := hx.underway.coherent
  have hlive := live_running hc.toScheduled h.running h.block
  have hcoherent := Machine.coherent_affect (h.mid_coherent hc) h.mid_running h.mid_block h.admits
    mid.tick
  obtain rfl := soloAt_of_carries hx.sound hlive hp
  have hnext : (x.before.machine.soloAt slot b).next x.surroundings =
      (mid.machine.soloAt slot b).affected e := by
    have hmid := h.mid_eq
    have heffect := h.effect_eq
    have hdone := h.done
    have hforks := h.forked_iff hx
    subst hmid heffect
    exact next_eq_affected hc h.running h.block rfl rfl rfl hforks hdone
  refine ⟨Machine.holds_soloAt hc h.running h.block, ?_, ?_⟩
  · rw [h.instruction?_eq, next?_eq_fetch hc h.running h.block]
  · rw [hnext]
    cases hstate : (mid.machine.soloAt slot b).affected e with
    | some t =>
        have hcarries := Machine.carries_affect (h.mid_coherent hc) h.mid_running h.mid_block
          h.admits mid.tick hstate
        dsimp only
        rw [h.machine_eq]
        exact hcarries.afterDispatch hcoherent.toScheduled
    | none =>
        have hfinish : e = .finish := by
          cases e with
          | finish => rfl
          | _ => cases hstate
        exact (h.ended_iff hx (mem_livePids_of_carries hp)).mpr ⟨hfinish, rfl⟩

/-- A child starts where its parent stands. -/
theorem carries_start (h : Turn x slot b mid e) (hx : x.Entered) (hfork : x.forked = true) :
    x.after.machine.Carries x.before.machine.table.nextPid x.start := by
  have hc := hx.underway.coherent
  obtain ⟨child, offset, heffect⟩ := (h.forked_iff hx).mp hfork
  have hcoherent := Machine.coherent_affect (h.mid_coherent hc) h.mid_running h.mid_block h.admits
    mid.tick
  have hadmits := h.admits
  rw [heffect] at hadmits hcoherent
  have hborn := Machine.carries_newborn (h.mid_coherent hc) hadmits slot b offset
    mid.tick
  have hmid := h.mid_eq
  have hnext := h.effect_eq
  cases hi : x.before.next? with
  | none =>
      rw [heffect, hi] at hnext
      cases hnext
  | some i =>
      have hfetched : mid = x.before.fetched := by rw [hmid, hi]; rfl
      have hstart : x.start = ⟨b.program, mid.machine.cpu.programCounter.toNat,
          mid.machine.cpu.value⟩ := by
        have hcounter := hc.counter_nonneg
        rw [Moment.start, hc.program_eq h.running h.block, hfetched]
        simp only [Option.getD_some, fetched, Machine.withCounter, Solo.mk.injEq, true_and,
          and_true]
        omega
      have hpid : mid.machine.table.nextPid = x.before.machine.table.nextPid := by
        rw [hmid, table_fetchedBy]
      rw [h.machine_eq, hstart, ← hpid, heffect]
      exact hborn.afterDispatch hcoherent.toScheduled

end Turn

theorem lt_nextPid_of_live {p : Int} (hs : sim.books.Sound) (hp : p ∈ sim.livePids) :
    p < sim.machine.table.nextPid := by
  rw [livePids_eq] at hp
  exact hs.numbered.lt_of_mem hp

namespace Moment

variable {x : Moment} {answer : Answer} {p : Int} {s : Solo}

/-- Only a process that is there has a turn. -/
theorem Entered.live_of_pid? (hx : x.Entered) (hok : x.response = .ok answer)
    (hp : x.pid? = some p) : p ∈ x.before.livePids := by
  obtain ⟨slot, b, mid, e, hturn⟩ | ⟨hnone, _⟩ := hx.turn_or_wait hok
  · obtain rfl : b.pid = p := Option.some.inj (hturn.pid?_eq.symm.trans hp)
    have hlive := live_running hx.underway.coherent.toScheduled hturn.running hturn.block
    exact mem_livePids_iff.mpr ⟨slot, b, hlive, rfl⟩
  · cases hnone.symm.trans hp

/-- A process that has not had its turn is what it was. -/
theorem Entered.carries_of_ne (hx : x.Entered) (hok : x.response = .ok answer)
    (hp : x.before.machine.Carries p s) (hne : x.pid? ≠ some p) :
    x.after.machine.Carries p s := by
  have hc := hx.underway.coherent
  obtain ⟨slot, b, mid, e, hturn⟩ | ⟨_, hsame | hqueues⟩ := hx.turn_or_wait hok
  · have hpid : p ≠ b.pid := by
      rintro rfl
      exact hne hturn.pid?_eq
    exact hturn.carries_of_ne hc hp hpid
  · rwa [hsame]
  · rw [hqueues]
    exact (hp.afterUnblock hc.toScheduled).afterDispatch
      (Machine.coherent_afterUnblock hc).toScheduled

theorem Entered.retraces (hx : x.Entered) (hok : x.response = .ok answer)
    (hp : x.before.machine.Carries p s) (hpid : x.pid? = some p) :
    x.before.machine.cpu.Holds s ∧ x.instruction? = s.fetch ∧
      match s.next x.surroundings with
      | some t => x.after.machine.Carries p t
      | none => p ∉ x.after.livePids := by
  obtain ⟨slot, b, mid, e, hturn⟩ | ⟨hnone, _⟩ := hx.turn_or_wait hok
  · obtain rfl : b.pid = p := Option.some.inj (hturn.pid?_eq.symm.trans hpid)
    exact hturn.retraces hx hp
  · cases hnone.symm.trans hpid

theorem Entered.carries_start (hx : x.Entered) (hok : x.response = .ok answer)
    (hp : x.child? = some p) : x.after.machine.Carries p x.start := by
  have hfork : x.forked = true := by
    rw [hx.child?_eq_forked] at hp
    split at hp
    · next hfork => exact hfork
    · cases hp
  rw [hx.child?_eq_forked, if_pos hfork] at hp
  cases hp
  obtain ⟨slot, b, mid, e, hturn⟩ | ⟨_, hwait⟩ := hx.turn_or_wait hok
  · exact hturn.carries_start hx hfork
  · have hc := hx.underway.coherent
    refine absurd ?_ (hx.forked_iff.mp hfork)
    obtain hsame | hqueues := hwait
    · rw [hsame]
    · have hunblock := congrArg (·.nextPid) (Machine.roster_afterUnblock hc.toScheduled)
      have hdispatch := congrArg (·.nextPid)
        (Machine.roster_afterDispatch (Machine.coherent_afterUnblock hc).toScheduled)
      rw [hqueues]
      exact hdispatch.trans hunblock

end Moment

section Runs

variable {p : Int} {s : Solo}

/-- A process that has ended has no turn any more: its number is not given again. -/
theorem filter_pid?_of_ended (hentered : ∀ x ∈ history sim requests, x.Entered)
    (hok : ∀ x ∈ history sim requests, ∃ answer, x.response = .ok answer)
    (hlt : p < sim.machine.table.nextPid) (hended : p ∉ sim.livePids) :
    ((history sim requests).filter fun x => decide (x.pid? = some p)) = [] := by
  induction requests generalizing sim with
  | nil => rfl
  | cons q rest ih =>
      simp only [history, List.forall_mem_cons] at hentered hok
      obtain ⟨hx, hrest⟩ := hentered
      obtain ⟨⟨answer, hanswer⟩, hokrest⟩ := hok
      have hnot : (sim.happen q).pid? ≠ some p := fun hp =>
        hended (hx.live_of_pid? hanswer hp)
      have hstill : p ∉ (sim.happen q).after.livePids := hx.not_mem_after hlt hended
      have hnext := hx.nextPid_eq
      have hlt' : p < (sim.happen q).after.machine.table.nextPid := by
        rw [hnext]
        change p < sim.machine.table.nextPid + _
        split <;> omega
      rw [history, List.filter_cons_of_neg (by simpa using hnot)]
      exact ih hrest hokrest hlt' hstill

/-- From any state on, the turns of a process are the steps that it takes on its own. -/
theorem retraces_of_carries (hentered : ∀ x ∈ history sim requests, x.Entered)
    (hok : ∀ x ∈ history sim requests, ∃ answer, x.response = .ok answer)
    (hp : sim.machine.Carries p s) :
    Retraces p (some s) ((history sim requests).filter fun x => decide (x.pid? = some p)) := by
  induction requests generalizing sim s with
  | nil => trivial
  | cons q rest ih =>
      simp only [history, List.forall_mem_cons] at hentered hok
      obtain ⟨hx, hrest⟩ := hentered
      obtain ⟨⟨answer, hanswer⟩, hokrest⟩ := hok
      rw [history]
      by_cases hpid : (sim.happen q).pid? = some p
      · obtain ⟨hholds, hfetch, hnext⟩ := hx.retraces hanswer hp hpid
        rw [List.filter_cons_of_pos (by simpa using hpid)]
        refine ⟨hholds, hfetch, ?_, ?_⟩
        · cases hstate : s.next (sim.happen q).surroundings with
          | some t =>
              rw [hstate] at hnext
              exact iff_of_true rfl (mem_livePids_of_carries hnext)
          | none =>
              rw [hstate] at hnext
              exact iff_of_false (by simp) hnext
        · cases hstate : s.next (sim.happen q).surroundings with
          | some t =>
              rw [hstate] at hnext
              exact ih hrest hokrest hnext
          | none =>
              rw [hstate] at hnext
              have hlt := lt_nextPid_of_live hx.sound (mem_livePids_of_carries hp)
              have hlt' : p < (sim.happen q).after.machine.table.nextPid := by
                rw [hx.nextPid_eq]
                split <;> omega
              rw [filter_pid?_of_ended hrest hokrest hlt' hnext]
              trivial
      · rw [List.filter_cons_of_neg (by simpa using hpid)]
        exact ih hrest hokrest (hx.carries_of_ne hanswer hp hpid)

/-- A process that is not there and appears later is a child of some call, and its turns are
the steps that it takes on its own from there. -/
theorem retraces_of_new (hentered : ∀ x ∈ history sim requests, x.Entered)
    (hok : ∀ x ∈ history sim requests, ∃ answer, x.response = .ok answer)
    (hnew : p ∉ sim.livePids)
    (hlater : p ∈ (run sim requests).livePids ∨
      ∃ x ∈ history sim requests, p ∈ x.before.livePids) :
    ∃ x, (history sim requests).find? (fun x => decide (x.child? = some p)) = some x ∧
      Retraces p (some x.start)
        ((history sim requests).filter fun x => decide (x.pid? = some p)) := by
  induction requests generalizing sim with
  | nil =>
      obtain hrun | ⟨x, hx, _⟩ := hlater
      · exact absurd hrun hnew
      · cases hx
  | cons q rest ih =>
      simp only [history, List.forall_mem_cons] at hentered hok
      obtain ⟨hx, hrest⟩ := hentered
      obtain ⟨⟨answer, hanswer⟩, hokrest⟩ := hok
      have hnot : (sim.happen q).pid? ≠ some p := fun hp => hnew (hx.live_of_pid? hanswer hp)
      rw [history, List.filter_cons_of_neg (by simpa using hnot)]
      by_cases hchild : (sim.happen q).child? = some p
      · refine ⟨sim.happen q, List.find?_cons_of_pos (by simpa using hchild), ?_⟩
        exact retraces_of_carries hrest hokrest (hx.carries_start hanswer hchild)
      · have hstill : p ∉ (sim.happen q).after.livePids := fun hafter =>
          hchild (hx.child?_of_new hafter hnew)
        have hlater' : p ∈ (run (sim.happen q).after rest).livePids ∨
            ∃ x ∈ history (sim.happen q).after rest, p ∈ x.before.livePids := by
          refine hlater.imp id ?_
          rintro ⟨x, hmem, hp⟩
          rw [history, List.mem_cons] at hmem
          rcases hmem with rfl | hmem
          · exact absurd hp hnew
          · exact ⟨x, hmem, hp⟩
        rw [List.find?_cons_of_neg (by simpa using hchild)]
        exact ih hrest hokrest hstill hlater'

end Runs

/-- If all calls return, the turns of any process that is ever there are the steps that it
takes on its own, from what it has started with. -/
theorem isolated_of_launch {settings : Settings} {loader : Loader} {program : Program}
    (hlaunch : launch settings loader program = .ok sim)
    (hok : ∀ x ∈ history sim requests, x.response.isOk = true) {p : Int}
    (hp : p ∈ (run sim requests).livePids ∨ ∃ x ∈ history sim requests, p ∈ x.before.livePids) :
    ∃ start, origin program (history sim requests) p = some start ∧
      Retraces p (some start)
        ((history sim requests).filter fun x => decide (x.pid? = some p)) := by
  obtain ⟨hcapacity, rfl⟩ := launch_eq_ok_iff.mp hlaunch
  have hanswers : ∀ x ∈ history (launched settings loader program) requests,
      ∃ answer, x.response = .ok answer := by
    intro x hx
    have hx := hok x hx
    cases hresponse : x.response with
    | ok answer => exact ⟨answer, rfl⟩
    | error fault =>
        rw [hresponse] at hx
        cases hx
  have hentered := entered_of_mem_history (underway_launched hcapacity loader program)
    (sound_launched hcapacity loader program) (.inl hanswers)
  have hinit : (launched settings loader program).machine.table.Live initSlot
      (initBlock program) := ⟨(blockAt_launched hcapacity initSlot).trans (if_pos rfl), rfl⟩
  by_cases hfirst : p = initPid
  · subst hfirst
    refine ⟨{ program }, if_pos rfl, retraces_of_carries hentered hanswers ?_⟩
    exact ⟨initSlot, initBlock program, hinit, rfl, Machine.soloAt_running rfl⟩
  · have hnew : p ∉ (launched settings loader program).livePids := by
      rw [livePids_eq, Roster.mem_pids_iff]
      rintro ⟨slot, i, hi, hpid⟩
      obtain ⟨_, rfl⟩ := getElem?_launched hcapacity hi
      exact hfirst hpid.symm
    obtain ⟨x, hfind, hretraces⟩ := retraces_of_new hentered hanswers hnew hp
    refine ⟨x.start, ?_, hretraces⟩
    rw [origin, if_neg hfirst, hfind, Option.map_some]

/-- A parent and its child that compute in turns. -/
def forkDemo : Program where
  instructions := [⟨.set, 7, ""⟩, ⟨.fork, 1, ""⟩, ⟨.add, 1, ""⟩, ⟨.block, 0, ""⟩, ⟨.halt, 0, ""⟩]

def forkDemoCalls : List Request :=
  [.step, .step, .step, .step, .unblock, .step, .step].map fun call =>
    ⟨call, fun _ => .error .notFound⟩

theorem isolated_of_launch_child :
    launch {} {} forkDemo = .ok (launched {} {} forkDemo) ∧
    (∀ x ∈ history (launched {} {} forkDemo) forkDemoCalls, x.response.isOk = true) ∧
    (∃ x ∈ history (launched {} {} forkDemo) forkDemoCalls, (1 : Int) ∈ x.before.livePids) ∧
    ∃ start, origin forkDemo (history (launched {} {} forkDemo) forkDemoCalls) 1 = some start ∧
      Retraces 1 (some start)
        ((history (launched {} {} forkDemo) forkDemoCalls).filter fun x =>
          decide (x.pid? = some 1)) := by
  have hlaunch : launch {} {} forkDemo = .ok (launched {} {} forkDemo) :=
    launch_eq (by decide) {} forkDemo
  have hok : ∀ x ∈ history (launched {} {} forkDemo) forkDemoCalls, x.response.isOk = true := by
    decide +kernel
  have hlive : ∃ x ∈ history (launched {} {} forkDemo) forkDemoCalls,
      (1 : Int) ∈ x.before.livePids := by
    decide +kernel
  exact ⟨hlaunch, hok, hlive, isolated_of_launch hlaunch hok (.inr hlive)⟩

end Simulation
end Uniproc
