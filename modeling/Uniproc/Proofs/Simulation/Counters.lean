import Uniproc.Proofs.Reporting
import Uniproc.Proofs.Simulation.Course
import Uniproc.Proofs.Simulation.Stopping
import Uniproc.Proofs.Starting

/-!
Programs and counters stay in range. No process has a longer program than may be loaded, and one
that waits is behind some instruction of its program, at most behind the last one. The counter of
the CPU can be behind the end, when a program has become shorter or a fork has skipped too far,
but never before the start, so that an instruction is always read where it stands.
-/

namespace Uniproc

/-- Something that loading a program can fail with. -/
def Fault.IsOfLoading : Fault → Bool
  | .load _ | .numeral _ | .nullInPath => true
  | _ => false

/-- A process has no longer program than may be; if it waits, it has executed an instruction, and
its counter is in the program or just behind it. -/
structure ControlBlock.Fits (b : ControlBlock) (limit : Int) : Prop where
  length_le : b.isFree = false → (b.program.length : Int) ≤ limit
  waiting : b.state = .ready ∨ b.state = .blocked →
    1 ≤ b.programCounter ∧ b.programCounter ≤ b.program.length

def Machine.Fits (m : Machine) (limit : Int) : Prop :=
  ∀ (slot : Int) (b : ControlBlock), m.table.blockAt slot = some b → b.Fits limit

namespace Simulation

/-- All programs and counters are in range, and so is what is read from them. -/
structure InRange (sim : Simulation) (limit : Int) : Prop where
  length_le {slot : Int} {b : ControlBlock} : sim.machine.table.Live slot b →
    (b.program.length : Int) ≤ limit
  counter_nonneg : 0 ≤ sim.machine.cpu.programCounter
  waiting {slot : Int} {b : ControlBlock} : sim.machine.table.blockAt slot = some b →
    b.state = .ready ∨ b.state = .blocked →
    1 ≤ b.programCounter ∧ b.programCounter ≤ b.program.length
  fetch_eq : sim.fetch = .ok
    (sim.machine.cpu.program.getD {}).instructions[sim.machine.cpu.programCounter.toNat]?

/-- A process that gets the CPU in this call is at most at the end of its program. -/
def Moment.Lands (x : Moment) : Prop :=
  ∀ slot, x.before.machine.scheduler.running ≠ some slot →
    x.after.machine.scheduler.running = some slot →
    ∃ p, x.after.machine.cpu.program = some p ∧ 1 ≤ x.after.machine.cpu.programCounter ∧
      x.after.machine.cpu.programCounter ≤ p.length

end Simulation

section Loading

variable {source name : String} {limit : Int} {line count : Nat} {raw : List Char}
  {lines : List (List Char)} {instructions : List Instruction} {fault : Fault} {p : Program}
  {loader : Loader} {files : FileView}

theorem Program.length_le_of_decodeFrom
    (h : decodeFrom source limit line count lines = .ok instructions) :
    (count + instructions.length : Int) ≤ max (count : Int) limit := by
  induction lines generalizing line count instructions with
  | nil =>
      cases h
      rw [List.length_nil]
      omega
  | cons raw rest ih =>
      obtain ⟨_, hrest⟩ | ⟨i, after, _, hroom, hrest, rfl⟩ := decodeFrom_cons_ok_iff.mp h
      · exact ih hrest
      · have hafter := ih hrest
        rw [List.length_cons]
        omega

theorem Loader.length_le_of_load (h : loader.load files name = .ok p) :
    (p.length : Int) ≤ max 0 loader.limit := by
  unfold load at h
  dsimp only at h
  split at h
  · cases h
  · split at h
    · cases h
    · split at h
      · cases h
      · have hlength := Program.length_le_of_decodeFrom (Program.decode_eq_ok_iff.mp h)
        rw [Program.length]
        omega

theorem Instruction.isOfLoading_of_ofLine (h : ofLine source line raw = .error fault) :
    fault.IsOfLoading = true := by
  unfold ofLine at h
  split at h
  · cases h
  · dsimp only at h
    split at h
    · cases h
      rfl
    · split at h
      · split at h <;> cases h
        rfl
      · split at h
        · split at h <;> cases h
          rfl
        · cases h

theorem Fault.isOfLoading_ofTooLong (limit : Int) (source : String) :
    (ofTooLong limit source).IsOfLoading = true := by
  unfold ofTooLong
  split <;> rfl

/-- A failure to load is never one to find a position. -/
theorem Loader.isOfLoading_of_load (h : loader.load files name = .error fault) :
    fault.IsOfLoading = true := by
  unfold load at h
  dsimp only at h
  split at h
  · cases h
    rfl
  · split at h
    · cases h
      rfl
    · split at h
      · cases h
        rfl
      · obtain ⟨_, _, _, _, _, _, hline | ⟨_, _, rfl⟩⟩ :=
          Program.decodeFrom_error_iff.mp (Program.decode_eq_error_iff.mp h)
        · exact Instruction.isOfLoading_of_ofLine hline
        · exact Fault.isOfLoading_ofTooLong loader.limit name

theorem Fault.isOfLoading_ofPosition (i : Int) : (ofPosition i).IsOfLoading = false := by
  unfold ofPosition
  split <;> rfl

theorem Settings.one_le_of_validate {s s' : Settings} (h : s.validate = .ok s') :
    1 ≤ s'.maxProgramLength := by
  unfold validate at h
  split at h
  · cases h
  · split at h
    · cases h
    · next hlength =>
      cases h
      exact Int.not_lt.mp hlength

/-- Settings that have been loaded leave room for a program. -/
theorem Settings.one_le_of_load {nesting : Json.Nesting} {settings : Option Path} {s : Settings}
    (h : Settings.load nesting files settings = .ok s) : 1 ≤ s.maxProgramLength := by
  unfold load at h
  split at h
  · cases h
    decide
  · split at h
    · cases h
    · split at h
      · cases h
      · unfold ofBytes at h
        split at h
        · cases h
        · unfold ofText at h
          split at h
          case h_4 =>
            unfold ofMembers at h
            split at h
            · obtain ⟨_, _, hvalid⟩ := bind_eq_ok_iff.mp h
              exact one_le_of_validate hvalid
            · cases h
          all_goals cases h

end Loading

namespace Machine

variable {m : Machine} {limit : Int} {slot : Int} {b : ControlBlock} {e : Effect}

/-- Where one control block differs, it is enough that this one fits. -/
theorem Fits.update {m' : Machine} {c : ControlBlock} (h : m.Fits limit)
    (hu : ∀ other, m'.table.blockAt other = if other = slot then some c else m.table.blockAt other)
    (hc : c.Fits limit) : m'.Fits limit :=
  fun _ _ hd => ProcessTable.forall_of_update (P := fun b => b.Fits limit) hu hc (h _ _) hd

theorem fits_affect (h : m.Coherent) (hrun : m.scheduler.running = some slot)
    (hb : m.table.blockAt slot = some b) (he : m.Admits e) (hfits : m.Fits limit)
    (hlimit : 0 ≤ limit) (tick : Nat)
    (hcounter : e = .finish ∨
      (1 ≤ m.cpu.programCounter ∧ m.cpu.programCounter ≤ b.program.length))
    (hinstall : ∀ p, e = .install p → (p.length : Int) ≤ limit) :
    (m.affect slot b tick e).Fits limit := by
  have hstate := h.state_eq_running hrun hb
  have hlength : (b.program.length : Int) ≤ limit :=
    (hfits slot b hb).length_le ((ProcessTable.isFree_eq_false_iff b).mpr (by simp [hstate]))
  have hreplaced {p : Program} (hp : (p.length : Int) ≤ limit) :
      (m.afterReplace slot b p).Fits limit := by
    refine hfits.update (blockAt_afterReplace hb p) ⟨fun _ => hp, fun hwaits => ?_⟩
    simp [hstate] at hwaits
  cases e with
  | compute _ | refuse | keep _ => exact hfits
  | block =>
      exact hfits.update (blockAt_afterBlock hb)
        ⟨fun _ => hlength, fun _ => hcounter.resolve_left (by simp)⟩
  | finish =>
      refine hfits.update (blockAt_afterEnd hb) ⟨fun hlive => ?_, fun hwaits => ?_⟩
      · simp [ControlBlock.isFree] at hlive
      · simp at hwaits
  | spawn child offset =>
      obtain ⟨old, hold, _⟩ := ProcessTable.blockAt_of_allocate he
      exact hfits.update (blockAt_afterFork hold b offset tick)
        ⟨fun _ => hlength, fun _ => hcounter.resolve_left (by simp)⟩
  | install p => exact hreplaced (hinstall p rfl)
  | lose _ | abort _ => exact hreplaced hlimit

theorem Fits.afterDispatch (hfits : m.Fits limit) (h : m.Scheduled) :
    m.afterDispatch.Fits limit := by
  obtain ⟨_, heq⟩ | ⟨slot, b, rest, _, _, _, hb, hstate, heq⟩ := h.afterDispatch_cases
  · rwa [heq]
  · rw [heq]
    refine hfits.update (blockAt_afterSwitch hb rest) ⟨fun _ => ?_, fun hwaits => ?_⟩
    · exact (hfits slot b hb).length_le ((ProcessTable.isFree_eq_false_iff b).mpr (by simp [hstate]))
    · simp at hwaits

theorem Fits.afterUnblock (hfits : m.Fits limit) (h : m.Scheduled) :
    m.afterUnblock.Fits limit := by
  obtain ⟨_, heq⟩ | ⟨slot, b, rest, _, hb, hstate, heq⟩ := h.afterUnblock_cases
  · rwa [heq]
  · rw [heq]
    refine hfits.update (blockAt_afterWake hb rest) ⟨fun _ => ?_, fun _ => ?_⟩
    · exact (hfits slot b hb).length_le ((ProcessTable.isFree_eq_false_iff b).mpr (by simp [hstate]))
    · exact (hfits slot b hb).waiting (.inr hstate)

/-- Whoever gets the CPU has been ready. -/
theorem Fits.lands (hfits : m.Fits limit) (h : m.Scheduled)
    (hother : m.scheduler.running ≠ some slot)
    (hrun : m.afterDispatch.scheduler.running = some slot) :
    ∃ p, m.afterDispatch.cpu.program = some p ∧ 1 ≤ m.afterDispatch.cpu.programCounter ∧
      m.afterDispatch.cpu.programCounter ≤ p.length := by
  obtain ⟨_, heq⟩ | ⟨next, b, rest, _, _, _, hb, hstate, heq⟩ := h.afterDispatch_cases
  · rw [heq] at hrun
    exact absurd hrun hother
  · rw [heq]
    exact ⟨b.program, rfl, (hfits next b hb).waiting (.inl hstate)⟩

/-- A turn brings nobody else to the CPU. -/
theorem running_affect_ne {other : Int} (h : m.scheduler.running ≠ some other) (tick : Nat) :
    (m.affect slot b tick e).scheduler.running ≠ some other := by
  cases e with
  | block | finish => exact nofun
  | compute _ | refuse | keep _ | spawn _ _ | install _ | lose _ | abort _ => exact h

theorem running_afterUnblock (h : m.Scheduled) :
    m.afterUnblock.scheduler.running = m.scheduler.running := by
  obtain ⟨_, heq⟩ | ⟨slot, b, rest, _, _, _, heq⟩ := h.afterUnblock_cases <;> rw [heq]
  rfl

end Machine

namespace Simulation

/-- The state between calls, as far as programs and counters go. -/
structure Ranged (sim : Simulation) : Prop extends Underway sim where
  fits : sim.machine.Fits sim.loader.limit
  limit_nonneg : 0 ≤ sim.loader.limit

variable {sim : Simulation} {slot : Int} {b : ControlBlock} {files : FileView} {x : Moment}
  {limit : Int}

/-- Behind an instruction that has been fetched the program may be at its end. -/
theorem counter_bounds (hc : sim.machine.Coherent)
    (hrun : sim.machine.scheduler.running = some slot)
    (hb : sim.machine.table.blockAt slot = some b) {i : Instruction} (hnext : sim.next? = some i) :
    1 ≤ sim.turning.machine.cpu.programCounter ∧
      sim.turning.machine.cpu.programCounter ≤ b.program.length := by
  have hturning : sim.turning = sim.fetched := by rw [turning, hnext, fetchedBy]
  have hcounter := hc.counter_nonneg
  rw [next?, hc.program_eq hrun hb, Option.getD_some] at hnext
  have hlt := (List.getElem?_eq_some_iff.mp hnext).1
  rw [hturning]
  change 1 ≤ sim.machine.cpu.programCounter + 1 ∧
    sim.machine.cpu.programCounter + 1 ≤ (b.program.instructions.length : Int)
  omega

theorem Ranged.fits_afterTurn (h : sim.Ranged) (hrun : sim.machine.scheduler.running = some slot)
    (hb : sim.machine.table.blockAt slot = some b) (files : FileView) :
    (sim.afterTurn files slot b).Fits sim.loader.limit := by
  have hturning := turning_of_running h.coherent hrun hb files
  have hfits : sim.turning.machine.Fits sim.loader.limit := by
    intro other c hc
    rw [table_turning] at hc
    exact h.fits other c hc
  refine Machine.fits_affect hturning.coherent hturning.running hturning.block hturning.admits
    hfits h.limit_nonneg sim.turning.tick ?_ ?_
  · cases hnext : sim.next? with
    | none => exact .inl (by rw [nextEffect, hnext]; rfl)
    | some i => exact .inr (counter_bounds h.coherent hrun hb hnext)
  · intro p hp
    obtain ⟨name, hload⟩ := exists_load_of_install hp
    rw [loader_turning] at hload
    have hlength := Loader.length_le_of_load hload
    have hlimit := h.limit_nonneg
    omega

/-- A call keeps programs and counters in range, whether it returns or stops. -/
theorem Ranged.after (h : x.before.Ranged) (hx : Happened x.before x) : x.after.Ranged := by
  have hloader : x.after.loader = x.before.loader :=
    hx.moves.keeps (P := fun s => s.loader = x.before.loader)
      (fun hsame hmove => hmove.fixed.2.2.trans hsame) rfl
  have hscheduled := h.coherent.toScheduled
  refine ⟨hx.underway h.toUnderway, ?_, by rw [hloader]; exact h.limit_nonneg⟩
  rw [hloader]
  refine hx.course.keeps (P := fun m => m.Fits x.before.loader.limit) h.coherent ?_ ?_ ?_ ?_
  · intro htable _ other c hc
    rw [htable] at hc
    exact h.fits other c hc
  · intro slot b _ hrun hb
    exact h.fits_afterTurn hrun hb x.request.files
  · intro _
    exact h.fits.afterUnblock hscheduled
  · intro m hm hfits
    exact hfits.afterDispatch hm.toScheduled

theorem Ranged.lands (h : x.before.Ranged) (hx : x.Course) : x.Lands := by
  intro slot hother hafter
  have hc := h.coherent
  cases hx with
  | rest _ _ hscheduler =>
      rw [hscheduler] at hafter
      exact absurd hafter hother
  | @turn first b _ hrun hb hturn =>
      have hturning := turning_of_running hc hrun hb x.request.files
      have hne : (x.before.afterTurn x.request.files first b).scheduler.running ≠ some slot :=
        Machine.running_affect_ne (by rwa [scheduler_turning]) _
      obtain hturn | hturn := hturn <;> rw [hturn] at hafter ⊢
      · exact absurd hafter hne
      · exact (h.fits_afterTurn hrun hb _).lands hturning.coherent_afterTurn.toScheduled hne hafter
  | wake _ hwake =>
      have hne : x.before.machine.afterUnblock.scheduler.running ≠ some slot := by
        rwa [Machine.running_afterUnblock hc.toScheduled]
      obtain hwake | hwake := hwake <;> rw [hwake] at hafter ⊢
      · exact absurd hafter hne
      · have hwoken := Machine.coherent_afterUnblock hc
        exact (h.fits.afterUnblock hc.toScheduled).lands hwoken.toScheduled hne hafter

theorem Ranged.inRange (h : sim.Ranged) : sim.InRange sim.loader.limit where
  length_le hlive := (h.fits _ _ hlive.1).length_le hlive.2
  counter_nonneg := h.coherent.counter_nonneg
  waiting hb := (h.fits _ _ hb).waiting
  fetch_eq := fetch_eq h.coherent.counter_nonneg

/-- What stops a call is a number that is too long, or a program that cannot be loaded. -/
theorem Happened.isOfLoading {fault : Fault} (hx : Happened sim x)
    (hfault : x.response = .error fault) : fault.IsOfLoading = true := by
  cases hx with
  | stepped | unblocked => cases hfault
  | stopped h =>
      cases hfault
      cases h with
      | untold => rfl
      | stopped _ _ h =>
          cases h with
          | unbegun | untold => rfl
          | aborted _ habort =>
              exact Loader.isOfLoading_of_load (effectOf_eq_abort_iff.mp habort).2.1
  | stuck h =>
      cases hfault
      cases h <;> rfl

theorem ranged_of_mem_history (h : sim.Ranged) (requests : List Request) :
    ∀ x ∈ history sim requests, x.before.Ranged ∧ Happened x.before x := by
  induction requests generalizing sim with
  | nil => simp [history]
  | cons q rest ih =>
      have hhappened := happened h.toUnderway q
      rw [history, List.forall_mem_cons]
      exact ⟨⟨h, hhappened⟩, ih (h.after hhappened)⟩

theorem ranged_run (h : sim.Ranged) (requests : List Request) : (run sim requests).Ranged :=
  run_of_history (P := Ranged)
    (fun x hx hbefore => hbefore.after (ranged_of_mem_history h requests x hx).2) h

theorem ranged_launched {settings : Settings} {loader : Loader} {program : Program}
    (h : 1 ≤ settings.tableCapacity) (hlimit : 0 ≤ loader.limit)
    (hlength : (program.length : Int) ≤ loader.limit) :
    (launched settings loader program).Ranged := by
  refine ⟨underway_launched h loader program, ?_, hlimit⟩
  intro slot b hb
  rw [blockAt_launched h] at hb
  split at hb
  · cases hb
    exact ⟨fun _ => hlength, by simp [initBlock]⟩
  · rw [blockAt_replicate hb]
    exact ⟨by simp [ControlBlock.isFree], by simp⟩

/-- After any calls of a simulation that was started from files, whether they return or stop, no
program is longer than the settings allow and no counter is out of place. So no call fails to find
an instruction. -/
theorem inRange_of_start {nesting : Json.Nesting} {program : Path} {settings : Option Path}
    (h : start nesting files program settings = .ok sim) :
    ∃ s, Settings.load nesting files settings = .ok s ∧ sim.settings = s ∧
    ∀ requests, (run sim requests).InRange s.maxProgramLength ∧
      ∀ x ∈ history sim requests, x.Lands ∧ ∀ i, x.response ≠ .error (.ofPosition i) := by
  obtain ⟨s, hs, h⟩ := bind_eq_ok_iff.mp h
  obtain ⟨p, hload, h⟩ := bind_eq_ok_iff.mp h
  obtain ⟨hcapacity, rfl⟩ := launch_eq_ok_iff.mp h
  have hone := Settings.one_le_of_load hs
  have hlength := Loader.length_le_of_load hload
  dsimp only at hlength
  have hranged : (launched s { limit := s.maxProgramLength } p).Ranged :=
    ranged_launched hcapacity (by dsimp only; omega) (by dsimp only; omega)
  refine ⟨s, hs, rfl, fun requests => ⟨?_, fun x hx => ?_⟩⟩
  · have hrun := (ranged_run hranged requests).inRange
    rwa [(fixed_run hranged.toUnderway requests).2] at hrun
  · obtain ⟨hbefore, hhappened⟩ := ranged_of_mem_history hranged requests x hx
    refine ⟨hbefore.lands hhappened.course, fun i hresponse => ?_⟩
    have hloading := hhappened.isOfLoading hresponse
    rw [Fault.isOfLoading_ofPosition] at hloading
    cases hloading

/-- A process that leaps back before its start as soon as it has made a child, which replaces its
program by a copy of the one it had. -/
def leapFiles : FileView :=
  fun _ => .ok "F -7
R p.txt
".toUTF8.data.toList

def leapDemo : Program where
  instructions := [⟨.fork, -7, ""⟩, ⟨.replace, 0, "p.txt"⟩]

theorem inRange_of_start_leapDemo :
    start (.upTo 500) leapFiles (.ofString "p.txt") none = .ok (launched {} {} leapDemo) ∧
    (run (launched {} {} leapDemo) [⟨.step, leapFiles⟩]).machine.cpu.programCounter = 0 ∧
    ∃ s, Settings.load (.upTo 500) leapFiles none = .ok s ∧ (launched {} {} leapDemo).settings = s ∧
    ∀ requests, (run (launched {} {} leapDemo) requests).InRange s.maxProgramLength ∧
      ∀ x ∈ history (launched {} {} leapDemo) requests,
        x.Lands ∧ ∀ i, x.response ≠ .error (.ofPosition i) := by
  have hstart : start (.upTo 500) leapFiles (.ofString "p.txt") none =
      .ok (launched {} {} leapDemo) := by
    decide +kernel
  exact ⟨hstart, by decide +kernel, inRange_of_start hstart⟩

end Simulation

end Uniproc
