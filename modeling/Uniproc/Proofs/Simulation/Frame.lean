import Uniproc.Proofs.Simulation.Course

/-!
What a step leaves alone. The process that has its turn changes its own control block, and little
of it; of the others, one can be made and one can get the CPU.
-/

namespace Uniproc

/-- Another program comes of it. -/
def Effect.Rewrites : Effect → Prop
  | .install _ | .lose _ | .abort _ => True
  | _ => False

namespace Machine

variable {m : Machine} {slot other : Int} {b : ControlBlock} {e : Effect}

/-- Only a fork does anything to another slot. -/
theorem blockAt_affect_of_ne (hb : m.table.blockAt slot = some b) (he : m.Admits e) (tick : Nat)
    (hne : other ≠ slot) :
    (m.affect slot b tick e).table.blockAt other = m.table.blockAt other ∨
    ∃ child offset, e = .spawn child offset ∧ other = child ∧
      (m.affect slot b tick e).table.blockAt other = some (m.newborn b tick) := by
  cases e with
  | compute _ | refuse | keep _ => exact .inl rfl
  | block => exact .inl ((blockAt_afterBlock hb other).trans (if_neg hne))
  | finish => exact .inl ((blockAt_afterEnd hb other).trans (if_neg hne))
  | spawn child offset =>
      obtain ⟨old, hold, _⟩ := ProcessTable.blockAt_of_allocate he
      have hfork := blockAt_afterFork hold b offset tick other
      by_cases hchild : other = child
      · exact .inr ⟨child, offset, rfl, hchild, hfork.trans (if_pos hchild)⟩
      · exact .inl (hfork.trans (if_neg hchild))
  | install p => exact .inl ((blockAt_afterReplace hb p other).trans (if_neg hne))
  | lose _ | abort _ => exact .inl ((blockAt_afterReplace hb {} other).trans (if_neg hne))

/-- The process keeps what it is, the registers that were saved before unless it blocks, and its
program unless it gets another one. -/
theorem exists_kept_affect (h : m.Coherent) (hrun : m.scheduler.running = some slot)
    (hb : m.table.blockAt slot = some b) (he : m.Admits e) (tick : Nat) :
    ∃ c, (m.affect slot b tick e).table.blockAt slot = some c ∧ c.identity = b.identity ∧
      c.state ≠ .ready ∧
      (e ≠ .block → c.programCounter = b.programCounter ∧ c.value = b.value) ∧
      (¬ e.Rewrites → c.program = b.program) := by
  have hstate : b.state ≠ .ready := by simp [h.state_eq_running hrun hb]
  have hkept : b.programCounter = b.programCounter ∧ b.value = b.value := ⟨rfl, rfl⟩
  cases e with
  | compute _ | refuse | keep _ => exact ⟨b, hb, rfl, hstate, fun _ => hkept, fun _ => rfl⟩
  | block =>
      exact ⟨_, (blockAt_afterBlock hb slot).trans (if_pos rfl), rfl, by simp,
        fun hne => absurd rfl hne, fun _ => rfl⟩
  | finish =>
      exact ⟨_, (blockAt_afterEnd hb slot).trans (if_pos rfl), rfl, by simp, fun _ => hkept,
        fun _ => rfl⟩
  | spawn child offset =>
      obtain ⟨old, hold, hfree⟩ := ProcessTable.blockAt_of_allocate he
      have hne : slot ≠ child := by
        rintro rfl
        exact (h.not_mem_of_free hold hfree).1 hrun
      exact ⟨b, (blockAt_afterFork hold b offset tick slot).trans ((if_neg hne).trans hb), rfl,
        hstate, fun _ => hkept, fun _ => rfl⟩
  | install p =>
      exact ⟨_, (blockAt_afterReplace hb p slot).trans (if_pos rfl), rfl, hstate, fun _ => hkept,
        fun hnot => absurd trivial hnot⟩
  | lose _ | abort _ =>
      exact ⟨_, (blockAt_afterReplace hb {} slot).trans (if_pos rfl), rfl, hstate, fun _ => hkept,
        fun hnot => absurd trivial hnot⟩

/-- A process gives the CPU away when it blocks and when it ends, and leaves the ready queue as
it is. -/
theorem ready_of_idle (hrun : m.scheduler.running = some slot) {tick : Nat}
    (hidle : (m.affect slot b tick e).scheduler.running = none) :
    (e = .block ∨ e = .finish) ∧
      (m.affect slot b tick e).scheduler.ready = m.scheduler.ready := by
  cases e with
  | block => exact ⟨.inl rfl, rfl⟩
  | finish => exact ⟨.inr rfl, rfl⟩
  | compute _ | refuse | keep _ | spawn _ _ | install _ | lose _ | abort _ =>
      cases hrun.symm.trans hidle

end Machine

namespace Simulation
namespace Moment

/-- What can become of a slot in the turn of the process in another one. -/
inductive Spared (x : Moment) (other : Int) : Prop
  | unchanged
      (h : x.after.machine.table.blockAt other = x.before.machine.table.blockAt other)
  | filled {place : Nat} {old child : ControlBlock} (hfork : x.Executes .fork)
      (hplace : x.before.machine.table.allocate = .ok place) (hother : other = place)
      (hold : x.before.machine.table.blockAt other = some old) (hfree : old.isFree = true)
      (hchild : x.after.machine.table.blockAt other = some child)
      (hpid : child.pid = x.before.machine.table.nextPid)
  | dispatched {c : ControlBlock} (hready : x.before.machine.scheduler.ready.head? = some other)
      (hrun : x.after.machine.scheduler.running = some other)
      (hc : x.before.machine.table.blockAt other = some c) (hstate : c.state = .ready)
      (hafter : x.after.machine.table.blockAt other = some { c with state := .running })

/-- What a step of the process in `slot` keeps: all other slots, but for a child's and the one
that gets the CPU; what the process is; its registers, which are saved when it blocks; its
program, unless it replaces it; and then there is nothing that happens to any other slot. -/
structure Framed (x : Moment) (slot : Int) : Prop where
  others {other : Int} : other ≠ slot → x.Spared other
  own : ∃ b c, x.before.machine.table.blockAt slot = some b ∧
    x.after.machine.table.blockAt slot = some c ∧ c.identity = b.identity ∧
    (c.programCounter ≠ b.programCounter ∨ c.value ≠ b.value → x.Executes .block) ∧
    (c.program ≠ b.program → x.Executes .replace)
  replacing : x.Executes .replace → ∀ {other : Int}, other ≠ slot →
    x.after.machine.table.blockAt other = x.before.machine.table.blockAt other

end Moment

variable {sim : Simulation} {files : FileView} {slot other : Int} {b : ControlBlock} {x : Moment}

theorem Turning.blockAt_of_ne (h : Turning sim slot b files) (hne : other ≠ slot) :
    (sim.afterTurn files slot b).table.blockAt other = sim.machine.table.blockAt other ∨
    ∃ child offset, sim.nextEffect files = .spawn child offset ∧ other = child ∧
      (sim.afterTurn files slot b).table.blockAt other =
        some (sim.turning.machine.newborn b sim.turning.tick) := by
  have haffect := Machine.blockAt_affect_of_ne h.block h.admits sim.turning.tick hne
  rwa [table_turning] at haffect

theorem Turning.exists_kept (h : Turning sim slot b files) :
    ∃ c, (sim.afterTurn files slot b).table.blockAt slot = some c ∧ c.identity = b.identity ∧
      c.state ≠ .ready ∧
      (sim.nextEffect files ≠ .block → c.programCounter = b.programCounter ∧ c.value = b.value) ∧
      (¬ (sim.nextEffect files).Rewrites → c.program = b.program) :=
  Machine.exists_kept_affect h.coherent h.running h.block h.admits sim.turning.tick

theorem exists_replace_of_rewrites {i? : Option Instruction}
    (h : (sim.effectAt files i?).Rewrites) : ∃ i, i? = some i ∧ i.opcode = .replace := by
  generalize he : sim.effectAt files i? = e at h
  cases e with
  | install _ | lose _ | abort _ => exact exists_stems_of_effectAt he (by simp)
  | _ => exact h.elim

namespace Moment

theorem Executes.stems {op : Opcode} (h : x.Executes op) (hc : x.before.machine.Coherent) :
    (x.before.nextEffect x.request.files).Stems op := by
  obtain ⟨_, _, i, hfetch, rfl⟩ := h
  have hnext : some i = x.before.next? :=
    Except.ok.inj (hfetch.symm.trans (fetch_eq hc.counter_nonneg))
  rw [nextEffect, ← hnext]
  exact stems_effectOf _ _ i

theorem spared_of_afterTurn (hc : x.before.machine.Coherent) (hcall : x.request.call = .step)
    (hrun : x.before.machine.scheduler.running = some slot)
    (hb : x.before.machine.table.blockAt slot = some b) (hne : other ≠ slot)
    (hafter : x.after.machine.table.blockAt other =
      (x.before.afterTurn x.request.files slot b).table.blockAt other) : x.Spared other := by
  have hturning := turning_of_running hc hrun hb x.request.files
  obtain hsame | ⟨child, offset, he, hother, hborn⟩ := hturning.blockAt_of_ne hne
  · exact .unchanged (hafter.trans hsame)
  · have hadmits := hturning.admits
    rw [he] at hadmits
    have hplace : x.before.machine.table.allocate = .ok child := by
      rw [← table_turning]
      exact hadmits
    obtain ⟨old, hold, hfree⟩ := ProcessTable.blockAt_of_allocate hplace
    have hpid : (x.before.turning.machine.newborn b x.before.turning.tick).pid =
        x.before.machine.table.nextPid := congrArg ProcessTable.nextPid (table_turning x.before)
    exact .filled (executes_of_next? hc hcall hrun (exists_fork_of_spawn he)) hplace hother
      (hother ▸ hold) hfree (hafter.trans hborn) hpid

/-- The process has its turn, and what follows does not touch its slot, nor any other one if the
turn was a replacement. -/
theorem framed_of_afterTurn (hc : x.before.machine.Coherent) (hcall : x.request.call = .step)
    (hrun : x.before.machine.scheduler.running = some slot)
    (hb : x.before.machine.table.blockAt slot = some b)
    (hothers : ∀ {other}, other ≠ slot → x.Spared other)
    (hslot : x.after.machine.table.blockAt slot =
      (x.before.afterTurn x.request.files slot b).table.blockAt slot)
    (hreplacing : x.Executes .replace → x.after.machine =
      x.before.afterTurn x.request.files slot b) : x.Framed slot := by
  have hturning := turning_of_running hc hrun hb x.request.files
  obtain ⟨c, hat, hidentity, _, hregisters, hprogram⟩ := hturning.exists_kept
  constructor
  case others => exact hothers
  case own =>
    refine ⟨b, c, hb, hslot.trans hat, hidentity, fun hchanged => ?_, fun hchanged => ?_⟩
    · have hblock : x.before.nextEffect x.request.files = .block := by
        by_contra hne
        obtain ⟨hcounter, hvalue⟩ := hregisters hne
        exact hchanged.elim (absurd hcounter) (absurd hvalue)
      exact executes_of_next? hc hcall hrun (exists_block_of_block hblock)
    · have hrewrites : (x.before.nextEffect x.request.files).Rewrites :=
        of_not_not (mt hprogram hchanged)
      exact executes_of_next? hc hcall hrun (exists_replace_of_rewrites hrewrites)
  case replacing =>
    intro hexec other hne
    rw [hreplacing hexec]
    obtain hsame | ⟨child, offset, he, _⟩ := hturning.blockAt_of_ne hne
    · exact hsame
    · have hstems := hexec.stems hc
      rw [he] at hstems
      cases hstems

/-- The turn of the process in `slot`, after which the CPU is given to another one. -/
theorem framed_of_switch {next : Int} {rest : List Int} {c : ControlBlock}
    (hc : x.before.machine.Coherent) (hcall : x.request.call = .step)
    (hrun : x.before.machine.scheduler.running = some slot)
    (hb : x.before.machine.table.blockAt slot = some b)
    (hidle : (x.before.afterTurn x.request.files slot b).scheduler.running = none)
    (hready : (x.before.afterTurn x.request.files slot b).scheduler.ready = next :: rest)
    (hat : (x.before.afterTurn x.request.files slot b).table.blockAt next = some c)
    (hstate : c.state = .ready)
    (hafter : x.after.machine =
      (x.before.afterTurn x.request.files slot b).afterSwitch next c rest) : x.Framed slot := by
  have hturning := turning_of_running hc hrun hb x.request.files
  obtain ⟨heffect, hqueue⟩ := Machine.ready_of_idle hturning.running hidle
  have hne : next ≠ slot := by
    obtain ⟨d, hd, _, hnot, _⟩ := hturning.exists_kept
    rintro rfl
    cases hd.symm.trans hat
    exact hnot hstate
  have hswitch (other : Int) : x.after.machine.table.blockAt other =
      if other = next then some { c with state := .running }
      else (x.before.afterTurn x.request.files slot b).table.blockAt other := by
    rw [hafter]
    exact Machine.blockAt_afterSwitch hat rest other
  have hfront : x.before.machine.scheduler.ready.head? = some next := by
    rw [← scheduler_turning, ← hqueue]
    exact congrArg List.head? hready
  have hbefore : x.before.machine.table.blockAt next = some c := by
    obtain hsame | ⟨child, offset, he, _⟩ := hturning.blockAt_of_ne hne
    · exact hsame.symm.trans hat
    · rcases heffect with heffect | heffect <;> cases heffect.symm.trans he
  refine framed_of_afterTurn hc hcall hrun hb ?_ ((hswitch slot).trans (if_neg hne.symm)) ?_
  · intro other hother
    by_cases hnext : other = next
    · subst hnext
      exact .dispatched hfront (by rw [hafter]; rfl) hbefore hstate
        ((hswitch other).trans (if_pos rfl))
    · exact spared_of_afterTurn hc hcall hrun hb hother ((hswitch other).trans (if_neg hnext))
  · intro hexec
    have hstems := hexec.stems hc
    rcases heffect with heffect | heffect <;> rw [heffect] at hstems <;> cases hstems

theorem Course.framed (h : x.Course) (hc : x.before.machine.Coherent)
    (hcall : x.request.call = .step)
    (hrun : x.before.machine.scheduler.running = some slot) : x.Framed slot := by
  cases h with
  | rest _ htable _ =>
      obtain ⟨b, hb, _⟩ := hc.exists_running hrun
      constructor
      case others => exact fun _ => .unchanged (by rw [htable])
      case own =>
        refine ⟨b, b, hb, by rw [htable]; exact hb, rfl, ?_, ?_⟩
        · exact fun hchanged => hchanged.elim (absurd rfl) (absurd rfl)
        · exact fun hchanged => absurd rfl hchanged
      case replacing => exact fun _ _ _ => by rw [htable]
  | @turn _ b _ hrun' hb hafter =>
      obtain rfl := Option.some.inj (hrun'.symm.trans hrun)
      have hturning := turning_of_running hc hrun hb x.request.files
      have hstay (hafter : x.after.machine = x.before.afterTurn x.request.files _ b) :
          x.Framed _ :=
        framed_of_afterTurn hc hcall hrun hb
          (fun hne => spared_of_afterTurn hc hcall hrun hb hne (by rw [hafter])) (by rw [hafter])
          fun _ => hafter
      obtain hafter | hafter := hafter
      · exact hstay hafter
      · obtain ⟨_, heq⟩ | ⟨next, c, rest, _, hidle, hready, hat, hstate, heq⟩ :=
          hturning.coherent_afterTurn.afterDispatch_cases
        · exact hstay (hafter.trans heq)
        · exact framed_of_switch hc hcall hrun hb hidle hready hat hstate (hafter.trans heq)
  | wake hwake _ => cases hcall.symm.trans hwake

end Moment

/-- Steps without any file. -/
def emptySteps (n : Nat) : List Request :=
  List.replicate n ⟨.step, fun _ => .error .notFound⟩

end Simulation
end Uniproc
