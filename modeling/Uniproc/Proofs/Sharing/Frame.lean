import Uniproc.Proofs.Sharing.Stepping
import Uniproc.Proofs.Simulation.Frame

/-!
Whose program a step can change. In a simulation over a heap no two slots ever share a program, so
that a replacement, which changes the running program in place, is seen by its own process only.
-/

namespace Uniproc
namespace Sharing

open Uniproc.Action
open Uniproc.Simulation (Answer Request emptySteps)

def ControlBlock.identity (b : ControlBlock) : Identity where
  pid := b.pid
  parent := b.parent
  priority := b.priority
  startTime := b.startTime
  timeUsed := b.timeUsed

/-- The control block in a slot. -/
def ProcessTable.blockAt (t : ProcessTable) (slot : Int) : Option ControlBlock :=
  if 0 ≤ slot then t.slots[slot.toNat]? else none

namespace Simulation

def respond (q : Request) : Action Simulation Answer :=
  match q.call with
  | .step => .report <$> step q.files
  | .unblock => .unblocked <$> unblock

/-- What happened in one call. -/
structure Moment where
  before : Simulation
  request : Request
  response : Except Fault Answer
  after : Simulation

def happen (sim : Simulation) (q : Request) : Moment :=
  let (response, after) := (respond q).perform sim
  ⟨sim, q, response, after⟩

def run (sim : Simulation) (requests : List Request) : Simulation :=
  requests.foldl (fun sim q => (sim.happen q).after) sim

namespace Moment

def view (x : Moment) : Uniproc.Simulation.Moment :=
  ⟨x.before.view, x.request, x.response, x.after.view⟩

/-- An instruction of this kind has its turn. -/
def Executes (x : Moment) (op : Opcode) : Prop :=
  x.request.call = .step ∧ x.before.machine.scheduler.running.isSome ∧
    ∃ i, x.before.fetch = .ok (some i) ∧ i.opcode = op

/-- Nothing happens to the slot, nor to the program there. -/
def Untouched (x : Moment) (slot : Int) : Prop :=
  x.after.machine.table.blockAt slot = x.before.machine.table.blockAt slot ∧
    ∀ b, x.before.machine.table.blockAt slot = some b →
      x.after.machine.heap.program b.program = x.before.machine.heap.program b.program

/-- What can become of a slot in the turn of the process in another one. A child gets a program
that was not there before. -/
inductive Spared (x : Moment) (other : Int) : Prop
  | untouched (h : x.Untouched other)
  | filled {place : Nat} {old child : ControlBlock} (hfork : x.Executes .fork)
      (hplace : x.before.machine.table.allocate = .ok place) (hother : other = place)
      (hold : x.before.machine.table.blockAt other = some old) (hfree : old.isFree = true)
      (hchild : x.after.machine.table.blockAt other = some child)
      (hpid : child.pid = x.before.machine.table.nextPid)
      (hprogram : x.before.machine.heap.programs.length ≤ child.program)
  | dispatched {c : ControlBlock} (hready : x.before.machine.scheduler.ready.head? = some other)
      (hrun : x.after.machine.scheduler.running = some other)
      (hc : x.before.machine.table.blockAt other = some c) (hstate : c.state = .ready)
      (hafter : x.after.machine.table.blockAt other = some { c with state := .running })
      (hprogram : x.after.machine.heap.program c.program =
        x.before.machine.heap.program c.program)

/-- What a step of the process in `slot` keeps: all other slots, but for a child's and the one
that gets the CPU; what the process is; its registers, which are saved when it blocks; and which
program it has. What that program holds is kept unless the step replaces it, and then nothing
happens to any other slot. -/
structure Framed (x : Moment) (slot : Int) : Prop where
  others {other : Int} : other ≠ slot → x.Spared other
  own : ∃ b c, x.before.machine.table.blockAt slot = some b ∧
    x.after.machine.table.blockAt slot = some c ∧ c.identity = b.identity ∧
    c.program = b.program ∧
    (c.programCounter ≠ b.programCounter ∨ c.value ≠ b.value → x.Executes .block) ∧
    (x.after.machine.heap.program b.program ≠ x.before.machine.heap.program b.program →
      x.Executes .replace)
  replacing : x.Executes .replace → ∀ {other : Int}, other ≠ slot → x.Untouched other

end Moment

/-- The machine is separate, and the CPU runs the program that its process has. -/
structure Owned (sim : Simulation) : Prop where
  separate : sim.machine.Separate
  running {slot : Int} {b : ControlBlock} : sim.machine.scheduler.running = some slot →
    sim.machine.table.blockAt slot = some b → sim.machine.cpu.program = some b.program

end Simulation

section View

variable {h h' : Heap} {t : ProcessTable} {slot : Int} {b c : ControlBlock} {m m' : Machine}

theorem ProcessTable.blockAt_view (h : Heap) (t : ProcessTable) (slot : Int) :
    (t.view h).blockAt slot = (t.blockAt slot).map (·.view h) := by
  unfold Uniproc.ProcessTable.blockAt blockAt
  split
  · exact List.getElem?_map
  · rfl

theorem ProcessTable.getElem?_of_blockAt (hb : t.blockAt slot = some b) :
    t.slots[slot.toNat]? = some b := by
  unfold blockAt at hb
  split at hb
  · exact hb
  · cases hb

/-- Control blocks that are seen as the same are the same if they refer to one program. -/
theorem ControlBlock.eq_of_view (hview : c.view h' = b.view h) (hprogram : c.program = b.program) :
    c = b ∧ h'.program b.program = h.program b.program := by
  simp only [view, Uniproc.ControlBlock.mk.injEq] at hview
  obtain ⟨hpid, hparent, hholds, hrest⟩ := hview
  refine ⟨?_, hprogram ▸ hholds⟩
  cases b
  cases c
  simp_all

theorem Machine.Succeeds.slots_at (hs : m'.Succeeds m) (hb : m.table.blockAt slot = some b)
    (hc : m'.table.blockAt slot = some c) : c.program = b.program ∧ c.pid = b.pid ∨
      m.heap.programs.length ≤ c.program ∧ m.table.nextPid ≤ c.pid := by
  obtain ⟨old, hold, hslot⟩ := hs.slots (ProcessTable.getElem?_of_blockAt hc)
  obtain rfl := Option.some.inj (hold.symm.trans (ProcessTable.getElem?_of_blockAt hb))
  exact hslot

/-- A slot with the same process has the same program. -/
theorem Machine.Succeeds.program_eq (hs : m'.Succeeds m) (hm : m.Kept none)
    (hb : m.table.blockAt slot = some b) (hc : m'.table.blockAt slot = some c)
    (hpid : c.pid = b.pid) : c.program = b.program := by
  obtain hsame | ⟨_, hle⟩ := hs.slots_at hb hc
  · exact hsame.1
  · have hlt := hm.pid_lt (List.mem_of_getElem? (ProcessTable.getElem?_of_blockAt hb))
    omega

/-- A slot with a process that has just got its number has a new program. -/
theorem Machine.Succeeds.length_le (hs : m'.Succeeds m) (hm : m.Kept none)
    (hb : m.table.blockAt slot = some b) (hc : m'.table.blockAt slot = some c)
    (hpid : c.pid = m.table.nextPid) : m.heap.programs.length ≤ c.program := by
  obtain ⟨_, hsame⟩ | ⟨hle, _⟩ := hs.slots_at hb hc
  · have hlt := hm.pid_lt (List.mem_of_getElem? (ProcessTable.getElem?_of_blockAt hb))
    omega
  · exact hle

end View

namespace Simulation

variable {sim : Simulation} {base? : Option Machine} {slot other : Int} {x : Moment}

theorem mirrors_respond (q : Request) : Mirrors base? sim (respond q) q.act := by
  unfold respond Uniproc.Simulation.Request.act
  cases q.call with
  | step => exact (mirrors_step q.files).map _
  | unblock => exact mirrors_unblock.map _

/-- What happens is seen as what happens to what is seen. -/
theorem happen_view (hm : sim.machine.Kept none) (q : Request) :
    (sim.happen q).view = sim.view.happen q ∧
      (sim.happen q).after.machine.Kept (some sim.machine) := by
  obtain ⟨hview, hkept⟩ := mirrors_respond q hm.self
  simp only [happen, Uniproc.Simulation.happen, perform, Moment.view, ← hview]
  cases hx : respond q sim with
  | ok answer after | error fault after =>
      rw [hx] at hkept
      exact ⟨rfl, hkept⟩

theorem run_view (hm : sim.machine.Kept none) (requests : List Request) :
    (run sim requests).view = sim.view.run requests ∧ (run sim requests).machine.Kept none := by
  induction requests generalizing sim with
  | nil => exact ⟨rfl, hm⟩
  | cons q rest ih =>
      obtain ⟨hview, hkept⟩ := happen_view hm q
      have hafter : (sim.happen q).after.view = (sim.view.happen q).after :=
        congrArg Uniproc.Simulation.Moment.after hview
      obtain ⟨hrest, hlast⟩ := ih hkept.forget
      exact ⟨hrest.trans (congrArg (Uniproc.Simulation.run · rest) hafter), hlast⟩

theorem exists_of_view {m : Machine} {d : Uniproc.ControlBlock}
    (hd : m.view.table.blockAt slot = some d) :
    ∃ b, m.table.blockAt slot = some b ∧ b.view m.heap = d :=
  Option.map_eq_some_iff.mp ((ProcessTable.blockAt_view m.heap m.table slot).symm.trans hd)

section Call

variable (hm : x.before.machine.Kept none) (hs : x.after.machine.Succeeds x.before.machine)

include hm hs

/-- A slot that is seen to be as it was is as it was, and so is what its program holds. -/
theorem Moment.untouched_of_view
    (h : x.view.after.machine.table.blockAt other = x.view.before.machine.table.blockAt other) :
    x.Untouched other := by
  cases hb : x.before.machine.table.blockAt other with
  | none =>
      have hnone : x.after.machine.view.table.blockAt other = none :=
        h.trans ((ProcessTable.blockAt_view _ _ _).trans (congrArg _ hb))
      refine ⟨?_, fun b hsome => nomatch hb.symm.trans hsome⟩
      rw [hb]
      exact Option.map_eq_none_iff.mp ((ProcessTable.blockAt_view _ _ _).symm.trans hnone)
  | some b =>
      have hsome : x.after.machine.view.table.blockAt other =
          some (b.view x.before.machine.heap) :=
        h.trans ((ProcessTable.blockAt_view _ _ _).trans (congrArg _ hb))
      obtain ⟨c, hc, hview⟩ := exists_of_view hsome
      have hpid : c.pid = b.pid := congrArg Uniproc.ControlBlock.pid hview
      obtain ⟨rfl, hprogram⟩ := ControlBlock.eq_of_view hview (hs.program_eq hm hb hc hpid)
      refine ⟨hc.trans hb.symm, fun d hd => ?_⟩
      obtain rfl := Option.some.inj (hb.symm.trans hd)
      exact hprogram

theorem Moment.spared_of_view (h : x.view.Spared other) : x.Spared other := by
  cases h with
  | unchanged h => exact .untouched (untouched_of_view hm hs h)
  | filled hfork hallocate hother hfound hfree hborn hpid =>
      obtain ⟨old, hold, rfl⟩ := exists_of_view hfound
      obtain ⟨child, hchild, rfl⟩ := exists_of_view hborn
      have hplace : x.before.machine.table.allocate = .ok _ :=
        (ProcessTable.allocate_view _ _).symm.trans hallocate
      exact .filled hfork hplace hother hold hfree hchild hpid
        (hs.length_le hm hold hchild hpid)
  | dispatched hready hrun hfound hstate hafter =>
      obtain ⟨c, hc, rfl⟩ := exists_of_view hfound
      obtain ⟨d, hd, hview⟩ := exists_of_view hafter
      have hpid : d.pid = c.pid := congrArg Uniproc.ControlBlock.pid hview
      have hprogram : d.program = c.program := hs.program_eq hm hc hd hpid
      let moved : ControlBlock := { c with state := .running }
      obtain ⟨rfl, hholds⟩ := ControlBlock.eq_of_view (b := moved) hview hprogram
      exact .dispatched hready hrun hc hstate hd hholds

theorem Moment.framed_of_view (h : x.view.Framed slot) : x.Framed slot where
  others hne := spared_of_view hm hs (h.others hne)
  own := by
    obtain ⟨_, _, hbefore, hafter, hidentity, hregisters, hholds⟩ := h.own
    obtain ⟨b, hb, rfl⟩ := exists_of_view hbefore
    obtain ⟨c, hc, rfl⟩ := exists_of_view hafter
    have hprogram : c.program = b.program :=
      hs.program_eq hm hb hc (congrArg Identity.pid hidentity)
    refine ⟨b, c, hb, hc, hidentity, hprogram, hregisters, fun hchanged => hholds ?_⟩
    have hat : x.after.machine.heap.program c.program ≠
        x.before.machine.heap.program b.program := hprogram.symm ▸ hchanged
    exact hat
  replacing hexec _ hne := untouched_of_view hm hs (h.replacing hexec hne)

end Call

/-- A machine that is seen as a coherent one runs the program of the running slot. -/
theorem owned_of_kept (hm : sim.machine.Kept none) (hc : sim.view.machine.Coherent) :
    sim.Owned where
  separate := hm.toSeparate
  running {slot b} hrun hb := by
    have hhome : sim.machine.home = some slot.toNat := hc.home_eq hrun
    obtain ⟨p, hp, hindex⟩ := Option.bind_eq_some_iff.mp hhome
    have hat : sim.machine.table.programs[slot.toNat]? = some p :=
      (ProcessTable.idxOf?_eq_some_iff hm.nodup).mp hindex
    have hself := ProcessTable.getElem?_programs (ProcessTable.getElem?_of_blockAt hb)
    exact hp.trans (hat.symm.trans hself)

section Launch

variable {settings : Settings}

theorem programs_ofCount (n : Nat) : (Machine.ofCount n).table.programs = List.range n := by
  rw [Machine.ofCount, ProcessTable.programs, List.map_map]
  exact List.map_id _

theorem kept_ofCount (n : Nat) : (Machine.ofCount n).Kept none where
  heap := Heap.separate_ofCount n
  nodup := programs_ofCount n ▸ List.nodup_range
  known {p} hp := by
    rw [programs_ofCount] at hp
    exact List.length_range.symm ▸ List.mem_range.mp hp
  loaded := nofun
  pid_lt hb := by
    obtain ⟨p, _, rfl⟩ := List.mem_map.mp hb
    exact Int.lt_trans (by decide : (-1 : Int) < initPid) (Int.lt_succ initPid)
  succeeds := nofun

theorem view_ofCount (n : Nat) :
    (Machine.ofCount n).view = { table := { slots := List.replicate n {} } } := by
  have hslots : (Machine.ofCount n).table.slots.map (·.view (.ofCount n)) =
      List.replicate n {} := by
    rw [Machine.ofCount, List.map_map]
    refine List.eq_replicate_iff.mpr ⟨by simp, fun b hb => ?_⟩
    obtain ⟨p, _, rfl⟩ := List.mem_map.mp hb
    simp [ControlBlock.view, Heap.program_ofCount]
  exact congrArg (fun slots => ({ table := { slots } } : Uniproc.Machine)) hslots

/-- A launch is seen as a launch. -/
theorem launch_view (h : 1 ≤ settings.tableCapacity) (loader : Loader) (program : Program) :
    ∃ sim, launch settings loader program = .ok sim ∧ sim.machine.Kept none ∧
      sim.view = Uniproc.Simulation.launched settings loader program := by
  let machine : Machine := .ofCount settings.tableCapacity.toNat
  let idle : Simulation := { settings, loader, machine }
  let made : Simulation := { idle with machine.heap := machine.heap.added program.instructions }
  have hmachine : machine.Kept none := kept_ofCount _
  have hloader : ofLoader settings loader = .ok idle := by
    rw [ofLoader, Machine.ofCapacity, if_neg (by omega)]
    rfl
  have hseen : Uniproc.Simulation.ofLoader settings loader = .ok idle.view := by
    rw [Uniproc.Simulation.ofLoader, Uniproc.Machine.ofCapacity, Uniproc.ProcessTable.ofCapacity,
      if_neg (by omega), view, view_ofCount]
    rfl
  have hboot : Mirrors none idle (bootNew program) (Uniproc.Simulation.boot program) := by
    have hnew : made.machine.heap.program machine.heap.programs.length = program :=
      Heap.program_added_self _ _
    have hlength : made.machine.heap.programs.length = machine.heap.programs.length + 1 :=
      Heap.length_added _ _
    have hmade : Mirrors none made (boot machine.heap.programs.length)
        (Uniproc.Simulation.boot program) := by
      rw [← hnew]
      refine mirrors_boot ?_ ?_ (Option.some_ne_none _).symm (Int.lt_succ initPid)
      · exact hlength ▸ Nat.lt_succ_self _
      · exact fun hmem => absurd (hmachine.known hmem) (Nat.lt_irrefl _)
    exact mirrors_new_bind rfl fun _ => hmade
  obtain ⟨hview, hkept⟩ := hboot hmachine
  have hlaunch := Uniproc.Simulation.launch_eq h loader program
  simp only [Uniproc.Simulation.launch, hseen, bind, Except.bind, ← hview] at hlaunch
  simp only [launch, hloader, bind, Except.bind]
  cases hx : bootNew program idle with
  | error fault sim =>
      rw [hx] at hlaunch
      cases hlaunch
  | ok _ sim =>
      rw [hx] at hlaunch hkept
      exact ⟨sim, rfl, hkept, Except.ok.inj hlaunch⟩

/-- After any calls no two slots have one program, and the CPU runs the program that its process
has. So whatever the calls do is seen as what they do to programs that nobody can share, and a
step, whether it returns or stops, leaves the others alone, and what their programs hold. -/
theorem owned_of_launch (h : 1 ≤ settings.tableCapacity) (loader : Loader) (program : Program) :
    ∃ sim, launch settings loader program = .ok sim ∧ ∀ requests : List Request,
      (∀ q, ((run sim requests).happen q).view =
        ((Uniproc.Simulation.launched settings loader program).run requests).happen q) ∧
      (run sim requests).Owned ∧
      ∀ {slot : Int}, (run sim requests).machine.scheduler.running = some slot →
        ∀ files, ((run sim requests).happen ⟨.step, files⟩).Framed slot := by
  obtain ⟨sim, hlaunch, hkept, hview⟩ := launch_view h loader program
  refine ⟨sim, hlaunch, fun requests => ?_⟩
  obtain ⟨hrun, hlast⟩ := run_view hkept requests
  rw [hview] at hrun
  have hunderway := Uniproc.Simulation.underway_run
    (Uniproc.Simulation.underway_launched h loader program) requests
  rw [← hrun] at hunderway
  refine ⟨fun q => (happen_view hlast q).1.trans (by rw [hrun]),
    owned_of_kept hlast hunderway.coherent, fun {slot} hslot files => ?_⟩
  obtain ⟨hhappen, hafter⟩ := happen_view hlast ⟨.step, files⟩
  have hseen : ((run sim requests).view.happen ⟨.step, files⟩).Framed slot :=
    (Uniproc.Simulation.happened hunderway _).course.framed hunderway.coherent rfl hslot
  rw [← hhappen] at hseen
  exact Moment.framed_of_view hlast (hafter.succeeds rfl) hseen

end Launch

/-- A process that blocks, with a child that gets the CPU and replaces its program, which its
parent keeps. -/
def frameDemo : Program where
  instructions := [⟨.fork, 1, ""⟩, ⟨.replace, 0, "gone.txt"⟩, ⟨.block, 0, ""⟩]

/-- The child is about to replace a program that holds the same as its parent's, and finds no
file. -/
theorem owned_of_launch_frameDemo : (1 : Int) ≤ ({} : Settings).tableCapacity ∧
    ∃ sim, launch {} {} frameDemo = .ok sim ∧
    (run sim (emptySteps 2)).machine.scheduler.running = some 1 ∧
    (run sim (emptySteps 2)).fetch = .ok (some ⟨.replace, 0, "gone.txt"⟩) ∧
    (run sim (emptySteps 2)).machine.table.programs.take 2 = [10, 11] ∧
    (run sim (emptySteps 2)).machine.heap.program 10 = frameDemo ∧
    (run sim (emptySteps 2)).machine.heap.program 11 = frameDemo ∧
    (run sim (emptySteps 3)).machine.heap.program 10 = frameDemo ∧
    (run sim (emptySteps 3)).machine.heap.program 11 = {} ∧
    (∀ q, ((run sim (emptySteps 2)).happen q).view =
      ((Uniproc.Simulation.launched {} {} frameDemo).run (emptySteps 2)).happen q) ∧
    (run sim (emptySteps 2)).Owned ∧
    ∀ files, ((run sim (emptySteps 2)).happen ⟨.step, files⟩).Framed 1 := by
  have hcapacity : (1 : Int) ≤ ({} : Settings).tableCapacity := by decide
  obtain ⟨sim, hlaunch, hall⟩ := owned_of_launch hcapacity {} frameDemo
  have hfacts : (launch {} {} frameDemo).toOption.any (fun sim => decide
      ((run sim (emptySteps 2)).machine.scheduler.running = some 1 ∧
      (run sim (emptySteps 2)).fetch = .ok (some ⟨.replace, 0, "gone.txt"⟩) ∧
      (run sim (emptySteps 2)).machine.table.programs.take 2 = [10, 11] ∧
      (run sim (emptySteps 2)).machine.heap.program 10 = frameDemo ∧
      (run sim (emptySteps 2)).machine.heap.program 11 = frameDemo ∧
      (run sim (emptySteps 3)).machine.heap.program 10 = frameDemo ∧
      (run sim (emptySteps 3)).machine.heap.program 11 = {})) = true := by
    decide +kernel
  rw [hlaunch] at hfacts
  obtain ⟨hrun, hfetch, hplaces, hparent, hchild, hkept, hemptied⟩ := of_decide_eq_true hfacts
  obtain ⟨hview, howned, hframed⟩ := hall (emptySteps 2)
  exact ⟨hcapacity, sim, hlaunch, hrun, hfetch, hplaces, hparent, hchild, hkept, hemptied, hview,
    howned, hframed hrun⟩

end Simulation
end Sharing
end Uniproc
