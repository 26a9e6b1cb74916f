import Uniproc.Proofs.Loading
import Uniproc.Proofs.Simulation.Retaining
import Uniproc.Proofs.Simulation.Stopping

/-!
Replacements, when the settings keep the program of a process that cannot be replaced. The
process has the new program, or it goes on in the old one; its program is lost in one case only,
which is that the loader fails in a way that is not reported.
-/

namespace Uniproc

/-- A program is loaded, or the failure to load it is reported, or it is not. -/
theorem Loader.load_cases (loader : Loader) (files : FileView) (name : String) :
    (∃ p, loader.load files name = .ok p) ∨
    (∃ cause, loader.load files name = .error (.load cause)) ∨
    ∃ fault, loader.load files name = .error fault ∧ fault.Escapes := by
  cases loader.load files name with
  | ok p => exact .inl ⟨p, rfl⟩
  | error fault =>
      by_cases hescapes : fault.Escapes
      · exact .inr (.inr ⟨fault, rfl, hescapes⟩)
      · obtain ⟨cause, hcause⟩ := not_forall_not.mp hescapes
        exact .inr (.inl ⟨cause, congrArg _ hcause⟩)

namespace Simulation

/-- The process in `slot` has this program and stands here in it, and nothing else has changed
but the log and the clock. -/
structure Rewritten (before : Simulation) (slot : Int) (b : ControlBlock) (p : Program)
    (counter : Int) (after : Simulation) : Prop where
  slots (other : Int) : after.machine.table.blockAt other =
    if other = slot then some { b with program := p } else before.machine.table.blockAt other
  nextPid : after.machine.table.nextPid = before.machine.table.nextPid
  scheduler : after.machine.scheduler = before.machine.scheduler
  cpu : after.machine.cpu =
    { before.machine.cpu with program := some p, programCounter := counter }
  turnaround : after.turnaround = before.turnaround

namespace Moment

/-- The new program is there, or the old one is and its next instruction is the one behind the
replacement. -/
def Lossless (x : Moment) (slot : Int) (b : ControlBlock) (i : Instruction) : Prop :=
  (∃ p, x.before.loader.load x.request.files i.path = .ok p ∧
    Rewritten x.before slot b p 0 x.after) ∨
  Rewritten x.before slot b b.program (x.before.machine.cpu.programCounter + 1) x.after

/-- The report of the instruction can be begun. -/
def Announced (x : Moment) (slot : Int) : Prop :=
  Writable [(x.before.tick : Int), slot]

instance (x : Moment) (slot : Int) : Decidable (x.Announced slot) :=
  inferInstanceAs (Decidable (Writable _))

/-- All that can come of a replacement if programs are kept. -/
inductive Replaced (x : Moment) (slot : Int) (b : ControlBlock) (i : Instruction) : Prop
  | installed {p : Program} {answer : Answer} (hannounced : x.Announced slot)
      (hload : x.before.loader.load x.request.files i.path = .ok p)
      (hresponse : x.response = .ok answer) (h : Rewritten x.before slot b p 0 x.after)
  | kept {cause : LoadError} {answer : Answer} (hannounced : x.Announced slot)
      (hload : x.before.loader.load x.request.files i.path = .error (.load cause))
      (hresponse : x.response = .ok answer)
      (h : Rewritten x.before slot b b.program (x.before.machine.cpu.programCounter + 1) x.after)
  | unannounced (hannounced : ¬ x.Announced slot)
      (hresponse : x.response = .error (.numeral .writing))
      (h : Rewritten x.before slot b b.program (x.before.machine.cpu.programCounter + 1) x.after)
  | lost {fault : Fault} (hannounced : x.Announced slot)
      (hload : x.before.loader.load x.request.files i.path = .error fault)
      (hescapes : fault.Escapes) (hresponse : x.response = .error fault)
      (h : Rewritten x.before slot b {} (x.before.machine.cpu.programCounter + 1) x.after)

end Moment

variable {sim after : Simulation} {files : FileView} {slot : Int} {b : ControlBlock}
  {i : Instruction} {p : Program}

theorem rewritten_of_machine {counter : Int} (hb : sim.machine.table.blockAt slot = some b)
    (hmachine : after.machine = (sim.machine.afterReplace slot b p).withCounter counter)
    (hturnaround : after.turnaround = sim.turnaround) :
    Rewritten sim slot b p counter after where
  slots other := by
    rw [hmachine]
    exact Machine.blockAt_afterReplace hb p other
  nextPid := by
    rw [hmachine]
    exact ProcessTable.nextPid_put sim.machine.table slot _
  scheduler := by
    rw [hmachine]
    rfl
  cpu := by
    rw [hmachine]
    rfl
  turnaround := hturnaround

/-- The counter of a process that keeps its program moves on with the fetch. -/
theorem rewritten_of_fetched (hc : sim.machine.Coherent) (h : sim.AboutTo slot b i)
    (hmachine : after.machine = sim.fetched.machine)
    (hturnaround : after.turnaround = sim.turnaround) :
    Rewritten sim slot b b.program (sim.machine.cpu.programCounter + 1) after := by
  refine rewritten_of_machine h.block ?_ hturnaround
  rw [Machine.afterReplace_self h.block (hc.program_eq h.running h.block), hmachine]
  rfl

@[simp] theorem loader_fetched (sim : Simulation) : sim.fetched.loader = sim.loader := rfl

@[simp] theorem settings_fetched (sim : Simulation) : sim.fetched.settings = sim.settings := rfl

theorem numbers_of_replace (hop : i.opcode = .replace) : i.numbers = [] := by
  rw [Instruction.numbers, hop]
  rfl

theorem replaced_happen (hu : sim.Underway) (h : sim.AboutTo slot b i)
    (hop : i.opcode = .replace) (hrevert : sim.settings.revert = true) (files : FileView) :
    (sim.happen ⟨.step, files⟩).Replaced slot b i := by
  have hannounced : Writable ([(sim.tick : Int), slot] ++ i.numbers) ↔
      Writable [(sim.tick : Int), slot] := by
    rw [numbers_of_replace hop, List.append_nil]
  by_cases hw : Writable [(sim.tick : Int), slot]
  · have hretains {e : Effect} (he : sim.fetched.effectOf files i = e)
        (hrun : (sim.fetched.affect slot b e).machine.scheduler = sim.machine.scheduler) :
        Retains sim files slot b i e :=
      ⟨h, hu, hannounced.mpr hw, he, hrun ▸ h.running⟩
    obtain ⟨p, hload⟩ | ⟨cause, hload⟩ | ⟨fault, hload, hescapes⟩ :=
      Loader.load_cases sim.loader files i.path
    · have heffect : sim.fetched.effectOf files i = .install p := by
        simp only [effectOf, hop, loader_fetched, hload]
      rw [(hretains heffect rfl).happen_of_told rfl writable_nil]
      exact .installed hw hload rfl (rewritten_of_machine h.block rfl rfl)
    · have heffect : sim.fetched.effectOf files i = .keep cause := by
        simp only [effectOf, hop, loader_fetched, hload, settings_fetched, hrevert, if_true]
      rw [(hretains heffect rfl).happen_of_told rfl writable_nil]
      exact .kept hw hload rfl (rewritten_of_fetched hu.coherent h rfl rfl)
    · have heffect := effectOf_eq_abort_iff.mpr ⟨hop, hload, hescapes⟩
      rw [(hretains heffect rfl).happen_of_abort]
      exact .lost hw hload hescapes rfl (rewritten_of_machine h.block rfl rfl)
  · rw [h.happen_of_unannounced hu (mt hannounced.mp hw)]
    exact .unannounced hw rfl (rewritten_of_fetched hu.coherent h rfl rfl)

/-- Who could not be replaced has what there was before, and the old program is not empty. -/
theorem Moment.Replaced.lossless_iff {x : Moment} (hx : x.Replaced slot b i)
    (hne : b.program ≠ {}) : x.Lossless slot b i ↔
      ¬ (x.Announced slot ∧ x.before.loader.Unloadable x.request.files i.path) := by
  rw [← Loader.escapes_load_iff]
  cases hx with
  | installed _ hload _ h =>
      refine iff_of_true (.inl ⟨_, hload, h⟩) ?_
      rintro ⟨_, fault, hfault, _⟩
      cases hload.symm.trans hfault
  | kept _ hload _ h =>
      refine iff_of_true (.inr h) ?_
      rintro ⟨_, fault, hfault, hescapes⟩
      cases hload.symm.trans hfault
      exact Fault.not_escapes_load _ hescapes
  | unannounced hannounced _ h =>
      exact iff_of_true (.inr h) fun hboth => hannounced hboth.1
  | lost hannounced hload hescapes _ h =>
      refine iff_of_false ?_ fun hnot => hnot ⟨hannounced, _, hload, hescapes⟩
      rintro (⟨p, hp, _⟩ | hsame)
      · cases hload.symm.trans hp
      · have hprogram : some ({} : Program) = some b.program :=
          congrArg Cpu.program (h.cpu.symm.trans hsame.cpu)
        exact hne (Option.some.inj hprogram).symm

section Launch

variable {settings : Settings} {loader : Loader} {program : Program}

/-- After any calls a replacement that is tried comes to one of these, and nothing is lost
unless the other program cannot be loaded in a way that is reported. -/
theorem replaced_of_launch (h : 1 ≤ settings.tableCapacity) (hrevert : settings.revert = true)
    (loader : Loader) (program : Program) : ∃ sim, launch settings loader program = .ok sim ∧
    ∀ {requests slot b i}, (run sim requests).AboutTo slot b i → i.opcode = .replace →
    ∀ files, ((run sim requests).happen ⟨.step, files⟩).Replaced slot b i ∧
      (((run sim requests).happen ⟨.step, files⟩).Lossless slot b i ↔
        ¬ (((run sim requests).happen ⟨.step, files⟩).Announced slot ∧
          loader.Unloadable files i.path)) := by
  have hlaunched := underway_launched h loader program
  refine ⟨_, launch_eq h loader program, ?_⟩
  intro requests slot b i habout hop files
  have hu := underway_run hlaunched requests
  obtain ⟨hsettings, hloader⟩ := fixed_run hlaunched requests
  have hreverts : (run (launched settings loader program) requests).settings.revert = true := by
    rw [hsettings]
    exact hrevert
  have hreplaced := replaced_happen hu habout hop hreverts files
  refine ⟨hreplaced, ?_⟩
  have hlossless := hreplaced.lossless_iff (habout.program_ne hu.coherent)
  rwa [before_happen, request_happen, hloader] at hlossless

end Launch

def reverting : Settings where
  revert := true

/-- A program that tries to go on in a file that is not there, and then in one that cannot be. -/
def nullDemo : Program where
  instructions := [⟨.replace, 0, "gone.txt"⟩, ⟨.replace, 0, "a\x00b"⟩]

def emptyStep : Request where
  call := .step
  files _ := .error .notFound

/-- The first failure is reported and nothing is lost, the second one is not and takes the
program away. -/
theorem replaced_of_launch_nullDemo : (1 : Int) ≤ reverting.tableCapacity ∧
    reverting.revert = true ∧ ∃ sim, launch reverting {} nullDemo = .ok sim ∧
    (sim.AboutTo 0 (initBlock nullDemo) ⟨.replace, 0, "gone.txt"⟩ ∧
      (sim.happen emptyStep).Lossless 0 (initBlock nullDemo) ⟨.replace, 0, "gone.txt"⟩) ∧
    (run sim [emptyStep]).AboutTo 0 (initBlock nullDemo) ⟨.replace, 0, "a\x00b"⟩ ∧
      ¬ ((run sim [emptyStep]).happen emptyStep).Lossless 0 (initBlock nullDemo)
        ⟨.replace, 0, "a\x00b"⟩ := by
  have hcapacity : (1 : Int) ≤ reverting.tableCapacity := by decide
  obtain ⟨sim, hsim, hall⟩ := replaced_of_launch hcapacity rfl {} nullDemo
  refine ⟨hcapacity, rfl, sim, hsim, ?_⟩
  obtain rfl : launched reverting {} nullDemo = sim :=
    Except.ok.inj ((launch_eq hcapacity {} nullDemo).symm.trans hsim)
  have hfirst : (run (launched reverting {} nullDemo) []).AboutTo 0 (initBlock nullDemo)
      ⟨.replace, 0, "gone.txt"⟩ := ⟨rfl, by decide +kernel, by decide +kernel⟩
  have hsecond : (run (launched reverting {} nullDemo) [emptyStep]).AboutTo 0
      (initBlock nullDemo) ⟨.replace, 0, "a\x00b"⟩ :=
    ⟨by decide +kernel, by decide +kernel, by decide +kernel⟩
  have hgone : Loader.load {} emptyStep.files "gone.txt" =
      .error (.load (.unreadable "gone.txt")) := by decide +kernel
  refine ⟨⟨hfirst, (hall hfirst rfl emptyStep.files).2.mpr ?_⟩, hsecond, ?_⟩
  · rw [← Loader.escapes_load_iff]
    rintro ⟨_, fault, hfault, hescapes⟩
    cases hgone.symm.trans hfault
    exact Fault.not_escapes_load _ hescapes
  · intro hlossless
    have hannounced : ((run (launched reverting {} nullDemo) [emptyStep]).happen
        emptyStep).Announced 0 := by decide +kernel
    exact (hall hsecond rfl emptyStep.files).2.mp hlossless
      ⟨hannounced, .inl (by decide +kernel)⟩

def lostDemo : Program where
  instructions := [⟨.replace, 0, "a\x00b"⟩, ⟨.halt, 0, ""⟩]

/-- A text can have such a line, and its program is lost although the settings keep it. -/
theorem exists_replacement_lost :
    Program.decode ["R a\x00b".toList, "E".toList] Program.defaultSource Program.defaultLimit =
      .ok lostDemo ∧
    ¬ ∀ (settings : Settings) (loader : Loader) (program : Program) (sim : Simulation)
      (requests : List Request) (slot : Int) (b : ControlBlock) (i : Instruction)
      (files : FileView), 1 ≤ settings.tableCapacity → settings.revert = true →
      launch settings loader program = .ok sim → (run sim requests).AboutTo slot b i →
      i.opcode = .replace → ((run sim requests).happen ⟨.step, files⟩).Lossless slot b i := by
  refine ⟨by decide +kernel, fun h => ?_⟩
  have hcapacity : (1 : Int) ≤ reverting.tableCapacity := by decide
  have habout : (run (launched reverting {} lostDemo) []).AboutTo 0 (initBlock lostDemo)
      ⟨.replace, 0, "a\x00b"⟩ := ⟨rfl, by decide +kernel, by decide +kernel⟩
  have hlost : ((run (launched reverting {} lostDemo) []).happen
      ⟨.step, emptyStep.files⟩).after.machine.cpu.program = some {} := by decide +kernel
  have hload : (launched reverting {} lostDemo).loader.load emptyStep.files "a\x00b" =
      .error .nullInPath := by decide +kernel
  have hlossless := h reverting {} lostDemo (launched reverting {} lostDemo) [] 0
    (initBlock lostDemo) ⟨.replace, 0, "a\x00b"⟩ emptyStep.files hcapacity rfl
    (launch_eq hcapacity {} lostDemo) habout rfl
  rw [Moment.Lossless, before_happen, request_happen] at hlossless
  obtain ⟨p, hp, _⟩ | hkept := hlossless
  · cases hload.symm.trans hp
  · rw [hkept.cpu] at hlost
    cases hlost

end Simulation
end Uniproc
