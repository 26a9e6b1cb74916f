import Uniproc.Proofs.Action
import Uniproc.Proofs.Sharing.View

/-!
Each operation over a heap of programs is seen as the same operation over programs that are
values, keeps the machine separate, and lets every slot keep the program that it refers to unless
it gets a new process.
-/

namespace Uniproc
namespace Sharing

open Uniproc.Action

/-- From a state that is so, the action comes to what the other one comes to from what is seen of
the state, and leaves a state that is so. -/
def Refines {σ τ α : Type} (view : σ → τ) (P : σ → Prop) (s : σ) (x : Action σ α)
    (y : Action τ α) : Prop :=
  P s → mapResult view id (x s) = y (view s) ∧ P (stateOf (x s))

namespace Refines

variable {σ τ α β : Type} {view : σ → τ} {P : σ → Prop} {s : σ} {x : Action σ α} {y : Action τ α}
  {f : α → Action σ β} {g : α → Action τ β}

theorem of_holds (h : P s → Refines view P s x y) : Refines view P s x y :=
  fun hs => h hs hs

theorem ok {a : α} : Refines view P s (pure a) (pure a) :=
  fun hs => ⟨rfl, hs⟩

theorem fail {fault : Fault} : Refines (α := α) view P s (throw fault) (throw fault) :=
  fun hs => ⟨rfl, hs⟩

theorem ofExcept (e : Except Fault α) :
    Refines view P s (Action.ofExcept e) (Action.ofExcept e) := by
  cases e with
  | error fault => exact fail
  | ok a => exact ok

theorem write (text : Except Numeral.Limit String) :
    Refines view P s (Action.write text) (Action.write text) :=
  ofExcept _

theorem bind (hx : Refines view P s x y)
    (hf : ∀ a t, x s = .ok a t → Refines view P t (f a) (g a)) :
    Refines view P s (x >>= f) (y >>= g) := by
  intro hs
  obtain ⟨heq, hkept⟩ := hx hs
  cases h : x s with
  | error fault t =>
      rw [h] at heq hkept
      rw [bind_of_error h, bind_of_error heq.symm]
      exact ⟨rfl, hkept⟩
  | ok a t =>
      rw [h] at heq hkept
      rw [bind_of_ok h, bind_of_ok heq.symm]
      exact hf a t h hkept

/-- What only the one state has is done unseen. -/
theorem bind_unseen {t : σ} {b : β} {f : β → Action σ α} {z : Action σ β} (hz : z s = .ok b t)
    (hview : view t = view s) (hkept : P s → P t) (hf : Refines view P t (f b) y) :
    Refines view P s (z >>= f) y := by
  intro hs
  rw [bind_of_ok hz, ← hview]
  exact hf (hkept hs)

theorem get_bind {f : σ → Action σ β} {g : τ → Action τ β}
    (h : Refines view P s (f s) (g (view s))) : Refines view P s (get >>= f) (get >>= g) := h

theorem modify {u : σ → σ} {v : τ → τ} (hview : view (u s) = v (view s))
    (hkept : P s → P (u s)) : Refines view P s (modify u) (modify v) :=
  fun hs => ⟨congrArg (EStateM.Result.ok PUnit.unit) hview, hkept hs⟩

theorem map (hx : Refines view P s x y) (k : α → β) : Refines view P s (k <$> x) (k <$> y) := by
  intro hs
  obtain ⟨heq, hkept⟩ := hx hs
  rw [map_eq, map_eq, ← heq]
  cases h : x s with
  | error fault t | ok a t =>
      rw [h] at hkept
      exact ⟨rfl, hkept⟩

theorem ite {c : Prop} [Decidable c] {x' : Action σ α} {y' : Action τ α}
    (hx : c → Refines view P s x y) (hx' : ¬ c → Refines view P s x' y') :
    Refines view P s (if c then x else x') (if c then y else y') := by
  split
  · next hc => exact hx hc
  · next hc => exact hx' hc

end Refines

namespace Machine

/-- The machine is separate, no slot has a process number that is still to be drawn, and the
machine comes after the other one if there is one. -/
structure Kept (base? : Option Machine) (m : Machine) : Prop extends Separate m where
  pid_lt {b : ControlBlock} : b ∈ m.table.slots → b.pid < m.table.nextPid
  succeeds {base : Machine} : base? = some base → m.Succeeds base

/-- What an action on machines over a heap comes to is seen as what the other one comes to. -/
abbrev Mirrors {α : Type} (base? : Option Machine) (m : Machine) (x : Action Machine α)
    (y : Action Uniproc.Machine α) : Prop :=
  Refines view (Kept base?) m x y

variable {base? : Option Machine} {m : Machine} {slot : Int} {α : Type}

theorem Kept.forget (hm : m.Kept base?) : m.Kept none :=
  { hm with succeeds := nofun }

theorem Kept.self (hm : m.Kept base?) : m.Kept (some m) :=
  { hm with succeeds := fun hbase => Option.some.inj hbase ▸ .refl _ }

/-- Nothing but queues and registers has changed. -/
theorem Kept.of_eq (hm : m.Kept base?) {m' : Machine} (hheap : m'.heap = m.heap)
    (htable : m'.table = m.table)
    (hcpu : ∀ p, m'.cpu.program = some p → p < m.heap.programs.length) : m'.Kept base? where
  heap := hheap ▸ hm.heap
  nodup := htable ▸ hm.nodup
  known {p} hp := by
    rw [hheap]
    exact hm.known (htable ▸ hp)
  loaded {p} hp := by
    rw [hheap]
    exact hcpu p hp
  pid_lt hb := by
    rw [htable]
    exact hm.pid_lt (htable ▸ hb)
  succeeds hbase :=
    { programs_le := hheap ▸ (hm.succeeds hbase).programs_le
      nextPid_le := htable ▸ (hm.succeeds hbase).nextPid_le
      slots := fun hb => (hm.succeeds hbase).slots (htable ▸ hb) }

theorem lookUp_of_ok {b : ControlBlock} (hb : m.table.get slot = .ok b) :
    lookUp slot m = .ok b m := by
  change Action.ofExcept (m.table.get slot) m = _
  rw [hb]
  rfl

theorem lookUp_of_error {fault : Fault} (hb : m.table.get slot = .error fault) :
    lookUp slot m = .error fault m := by
  change Action.ofExcept (m.table.get slot) m = _
  rw [hb]
  rfl

theorem lookUp_view_of_ok {b : ControlBlock} (hb : m.table.get slot = .ok b) :
    Uniproc.Machine.lookUp slot m.view = .ok (b.view m.heap) m.view := by
  change Action.ofExcept ((m.table.view m.heap).get slot) m.view = _
  rw [ProcessTable.get_view, hb]
  rfl

theorem lookUp_view_of_error {fault : Fault} (hb : m.table.get slot = .error fault) :
    Uniproc.Machine.lookUp slot m.view = .error fault m.view := by
  change Action.ofExcept ((m.table.view m.heap).get slot) m.view = _
  rw [ProcessTable.get_view, hb]
  rfl

/-- The control block that is found is seen as the one that is found in what is seen. -/
theorem mirrors_lookUp_bind {f : ControlBlock → Action Machine α}
    {g : Uniproc.ControlBlock → Action Uniproc.Machine α}
    (h : ∀ b, m.table.get slot = .ok b → Mirrors base? m (f b) (g (b.view m.heap))) :
    Mirrors base? m (lookUp slot >>= f) (Uniproc.Machine.lookUp slot >>= g) := by
  intro hm
  cases hb : m.table.get slot with
  | error fault =>
      rw [bind_of_error (lookUp_of_error hb), bind_of_error (lookUp_view_of_error hb)]
      exact ⟨rfl, hm⟩
  | ok b =>
      rw [bind_of_ok (lookUp_of_ok hb), bind_of_ok (lookUp_view_of_ok hb)]
      exact h b hb hm

/-- A control block is put into a slot: of the process that was there, with its program, or of a
new process with a new program. -/
theorem Kept.put (hm : m.Kept base?) {b c : ControlBlock} (hb : m.table.get slot = .ok b)
    (hnodup : (m.table.put slot c).programs.Nodup) (hknown : c.program < m.heap.programs.length)
    (hpid : c.pid < m.table.nextPid)
    (hc : ∀ {base}, base? = some base → c.program = b.program ∧ c.pid = b.pid ∨
      base.heap.programs.length ≤ c.program ∧ base.table.nextPid ≤ c.pid) :
    ({ m with table := m.table.put slot c } : Machine).Kept base? := by
  obtain ⟨i, hi, hslot⟩ := ProcessTable.exists_index_of_get hb
  refine ⟨⟨hm.heap, hnodup, fun {p} hp => ?_, hm.loaded⟩, fun {d} hd => ?_, fun hbase => ?_⟩
  · rw [ProcessTable.programs_put hi] at hp
    obtain hp | rfl := List.mem_or_eq_of_mem_set hp
    · exact hm.known hp
    · exact hknown
  · rw [ProcessTable.put_of_index? hi] at hd ⊢
    obtain hd | rfl := List.mem_or_eq_of_mem_set hd
    · exact hm.pid_lt hd
    · exact hpid
  · obtain ⟨hle, hpids, hslots⟩ := hm.succeeds hbase
    rw [ProcessTable.put_of_index? hi]
    refine ⟨hle, hpids, fun {j d} hd => ?_⟩
    rw [List.getElem?_set] at hd
    split at hd
    · next hij =>
      subst hij
      obtain ⟨old, hold, hkept⟩ := hslots hslot
      split at hd
      · cases hd
        refine ⟨old, hold, (hc hbase).elim (fun hsame => ?_) .inr⟩
        rwa [hsame.1, hsame.2]
      · cases hd
    · exact hslots hd

/-- A change of a control block that leaves its process and its program alone. -/
theorem mirrors_update {f : ControlBlock → Except Fault ControlBlock}
    {g : Uniproc.ControlBlock → Except Fault Uniproc.ControlBlock}
    (hview : ∀ h b, g (b.view h) = (f b).map (·.view h))
    (hkeep : ∀ {b c}, f b = .ok c → c.program = b.program ∧ c.pid = b.pid) :
    Mirrors base? m (update slot f) (Uniproc.Machine.update slot g) := by
  refine mirrors_lookUp_bind fun b hb => ?_
  rw [hview]
  cases hc : f b with
  | error fault => exact .fail
  | ok c =>
      obtain ⟨hprogram, hpid⟩ := hkeep hc
      have hprograms := ProcessTable.programs_put_of_eq hb hprogram
      obtain ⟨i, _, hslot⟩ := ProcessTable.exists_index_of_get hb
      have hmem : c.program ∈ m.table.programs :=
        List.mem_map.mpr ⟨b, List.mem_of_getElem? hslot, hprogram.symm⟩
      refine Refines.modify ?_ fun hm => ?_
      · simp only [view, ProcessTable.view_put, home, hprograms]
      · exact hm.put hb (hprograms ▸ hm.nodup) (hm.known hmem)
          (hpid ▸ hm.pid_lt (List.mem_of_getElem? hslot)) fun _ => .inl ⟨hprogram, hpid⟩

theorem mirrors_move (t : Transition) :
    Mirrors base? m (update slot (·.move t)) (Uniproc.Machine.update slot (·.move t)) := by
  refine mirrors_update (fun h b => ?_) fun {b c} hc => ?_
  · unfold ControlBlock.move Uniproc.ControlBlock.move
    change (if b.state = t.source then _ else _) = _
    split <;> rfl
  · unfold ControlBlock.move at hc
    split at hc <;> cases hc
    exact ⟨rfl, rfl⟩

theorem mirrors_block (counter value : Int) :
    Mirrors base? m (update slot (·.block counter value))
      (Uniproc.Machine.update slot (·.block counter value)) := by
  refine mirrors_update (fun h b => ?_) fun {b c} hc => ?_
  · unfold ControlBlock.block Uniproc.ControlBlock.block ControlBlock.move
      Uniproc.ControlBlock.move
    change Except.map _ (if b.state = Transition.block.source then _ else _) = _
    split <;> rfl
  · unfold ControlBlock.block ControlBlock.move at hc
    split at hc <;> cases hc
    exact ⟨rfl, rfl⟩

/-- A change of queues and registers. The CPU holds no program then or the one that it has held. -/
theorem mirrors_modify {f : Machine → Machine} {g : Uniproc.Machine → Uniproc.Machine}
    (hview : (f m).view = g m.view) (hheap : (f m).heap = m.heap) (htable : (f m).table = m.table)
    (hcpu : ∀ p, (f m).cpu.program = some p → m.cpu.program = some p) :
    Mirrors base? m (modify f) (modify g) :=
  Refines.modify hview fun hm => hm.of_eq hheap htable fun p hp => hm.loaded (hcpu p hp)

theorem mirrors_requireRunning :
    Mirrors base? m requireRunning Uniproc.Machine.requireRunning := by
  refine Refines.get_bind ?_
  simp only [scheduler_view]
  cases m.scheduler.running with
  | some slot => exact .ok
  | none => exact .fail

theorem mirrors_dispatch : Mirrors base? m dispatch Uniproc.Machine.dispatch := by
  refine Refines.get_bind ?_
  simp only [scheduler_view]
  cases m.scheduler.running with
  | some slot => exact .ok
  | none =>
      cases m.scheduler.ready with
      | nil => exact .ok
      | cons slot rest =>
          refine (mirrors_modify rfl rfl rfl fun _ hp => hp).bind fun _ _ _ => ?_
          refine (mirrors_move .dispatch).bind fun _ _ _ => ?_
          exact (mirrors_modify rfl rfl rfl fun _ hp => hp).bind fun _ _ _ => .ok

theorem mirrors_blockRunning (counter value : Int) :
    Mirrors base? m (blockRunning counter value) (Uniproc.Machine.blockRunning counter value) := by
  refine mirrors_requireRunning.bind fun slot _ _ => ?_
  refine (mirrors_block counter value).bind fun _ _ _ => ?_
  exact (mirrors_modify rfl rfl rfl fun _ hp => hp).bind fun _ _ _ => .ok

theorem mirrors_terminateRunning :
    Mirrors base? m terminateRunning Uniproc.Machine.terminateRunning := by
  refine mirrors_requireRunning.bind fun slot _ _ => ?_
  refine (mirrors_move .terminate).bind fun _ _ _ => ?_
  exact (mirrors_modify rfl rfl rfl fun _ hp => hp).bind fun _ _ _ => .ok

theorem mirrors_unblock : Mirrors base? m unblock Uniproc.Machine.unblock := by
  refine Refines.get_bind ?_
  simp only [scheduler_view]
  cases m.scheduler.blocked with
  | nil => exact .ok
  | cons slot rest =>
      refine (mirrors_modify rfl rfl rfl fun _ hp => hp).bind fun _ _ _ => ?_
      refine (mirrors_move .unblock).bind fun _ _ _ => ?_
      exact (mirrors_modify rfl rfl rfl fun _ hp => hp).bind fun _ _ _ => .ok

theorem mirrors_start : Mirrors base? m (start slot) (Uniproc.Machine.start slot) := by
  refine Refines.get_bind ?_
  simp only [scheduler_view]
  cases m.scheduler.running with
  | some running => exact .fail
  | none =>
      refine mirrors_lookUp_bind fun b _ => ?_
      refine Refines.ite (fun _ => .fail) fun _ => ?_
      exact mirrors_modify rfl rfl rfl fun _ hp => hp

theorem mirrors_enqueue : Mirrors base? m (enqueue slot) (Uniproc.Machine.enqueue slot) := by
  refine mirrors_lookUp_bind fun b _ => ?_
  refine Refines.ite (fun _ => .fail) fun _ => ?_
  refine Refines.get_bind (Refines.ite (fun _ => .fail) fun _ => ?_)
  exact mirrors_modify rfl rfl rfl fun _ hp => hp

theorem mirrors_drawPid : Mirrors base? m drawPid Uniproc.Machine.drawPid := by
  have hkept (hm : m.Kept base?) :
      ({ m with table.nextPid := m.table.nextPid + 1 } : Machine).Kept base? := by
    refine ⟨⟨hm.heap, hm.nodup, hm.known, hm.loaded⟩,
      fun hb => Int.lt_trans (hm.pid_lt hb) (Int.lt_succ _), fun hbase => ?_⟩
    obtain ⟨hle, hpids, hslots⟩ := hm.succeeds hbase
    exact ⟨hle, Int.le_add_one hpids, hslots⟩
  have hmodify : Mirrors base? m
      (modify fun s => { s with table.nextPid := m.table.nextPid + 1 })
      (modify fun s => { s with table.nextPid := m.table.nextPid + 1 }) :=
    Refines.modify rfl hkept
  exact Refines.get_bind (hmodify.bind fun _ _ _ => .ok)

/-- The CPU gets the program itself, which is at home in the slot. -/
theorem mirrors_loadCpu : Mirrors base? m (loadCpu slot) (Uniproc.Machine.loadCpu slot) := by
  refine mirrors_lookUp_bind fun b hb => .of_holds fun hm => ?_
  obtain ⟨i, hi, hslot⟩ := ProcessTable.exists_index_of_get hb
  have hat : m.table.programs[i]? = some b.program := ProcessTable.getElem?_programs hslot
  have hhome : m.table.programs.idxOf? b.program = m.view.table.index? slot := by
    rw [(ProcessTable.idxOf?_eq_some_iff hm.nodup).mpr hat, view, ProcessTable.index?_view, hi]
  refine Refines.modify ?_ fun hm => hm.of_eq rfl rfl fun p hp => ?_
  · change Uniproc.Machine.mk _ _ ⟨_, _, _, m.table.programs.idxOf? b.program⟩ = _
    rw [hhome]
    rfl
  · cases hp
    exact hm.known (List.mem_of_getElem? hat)

theorem update_of_ok {f : ControlBlock → Except Fault ControlBlock} {b c : ControlBlock}
    (hb : m.table.get slot = .ok b) (hc : f b = .ok c) :
    update slot f m = .ok () { m with table := m.table.put slot c } := by
  refine (bind_of_ok (lookUp_of_ok hb) _).trans ?_
  rw [hc]
  rfl

theorem update_view_of_ok {f : Uniproc.ControlBlock → Except Fault Uniproc.ControlBlock}
    {b c : ControlBlock} (hb : m.table.get slot = .ok b)
    (hc : f (b.view m.heap) = .ok (c.view m.heap)) :
    Uniproc.Machine.update slot f m.view =
      .ok () { m.view with table := (m.table.put slot c).view m.heap } := by
  refine (bind_of_ok (lookUp_view_of_ok hb) _).trans ?_
  rw [hc, ProcessTable.view_put]
  rfl

theorem update_of_error {f : ControlBlock → Except Fault ControlBlock} {b : ControlBlock}
    {fault : Fault} (hb : m.table.get slot = .ok b) (hc : f b = .error fault) :
    update slot f m = .error fault m := by
  refine (bind_of_ok (lookUp_of_ok hb) _).trans ?_
  rw [hc]
  rfl

theorem update_view_of_error {f : Uniproc.ControlBlock → Except Fault Uniproc.ControlBlock}
    {b : ControlBlock} {fault : Fault} (hb : m.table.get slot = .ok b)
    (hc : f (b.view m.heap) = .error fault) :
    Uniproc.Machine.update slot f m.view = .error fault m.view := by
  refine (bind_of_ok (lookUp_view_of_ok hb) _).trans ?_
  rw [hc]
  rfl

/-- The program of the process that was in the slot is nobody's any more. -/
theorem home_put {i : Nat} (hnodup : m.table.programs.Nodup) (hi : m.table.index? slot = some i)
    {c : ControlBlock} (hfresh : c.program ∉ m.table.programs)
    (hcpu : m.cpu.program ≠ some c.program) :
    ({ m with table := m.table.put slot c } : Machine).home =
      if m.home = some i then none else m.home := by
  cases hp : m.cpu.program with
  | none => simp [home, hp]
  | some p =>
      have hne : c.program ≠ p := fun heq => hcpu (hp.trans (congrArg some heq.symm))
      simp only [home, hp, Option.bind_some, ProcessTable.programs_put hi]
      refine Option.ext fun j => ?_
      rw [ProcessTable.idxOf?_eq_some_iff (hnodup.set hfresh), List.getElem?_set]
      have hat := ProcessTable.idxOf?_eq_some_iff hnodup (p := p) (i := j)
      by_cases hij : i = j
      · subst hij
        simp [hne]
      · by_cases hhome : m.table.programs.idxOf? p = some i <;> simp [hij, hhome, ← hat]

theorem spawn_of_missing (new : ControlBlock) {fault : Fault}
    (hb : m.table.get slot = .error fault) :
    spawn slot new m = .error fault m ∧
      Uniproc.Machine.spawn slot (new.view m.heap) m.view = .error fault m.view :=
  ⟨bind_of_error (lookUp_of_error hb) _,
    bind_of_error (bind_of_error (lookUp_view_of_error hb) _) _⟩

theorem spawn_of_occupied (new : ControlBlock) {b : ControlBlock} (hb : m.table.get slot = .ok b)
    (hfree : b.isFree = false) :
    spawn slot new m = .error (.ofRefusal (.occupied b.pid b.state)) m ∧
      Uniproc.Machine.spawn slot (new.view m.heap) m.view =
        .error (.ofRefusal (.occupied b.pid b.state)) m.view := by
  have hoccupied : ¬ b.isFree = true := by simp [hfree]
  have hc : b.spawn new = .error (.ofRefusal (.occupied b.pid b.state)) := if_neg hoccupied
  have hview : (b.view m.heap).spawn (new.view m.heap) =
      .error (.ofRefusal (.occupied b.pid b.state)) := if_neg hoccupied
  exact ⟨update_of_error hb hc, bind_of_error (update_view_of_error hb hview) _⟩

/-- A slot gets a new process, with a program that nobody refers to. -/
theorem mirrors_spawn {new : ControlBlock} (hknown : new.program < m.heap.programs.length)
    (hfresh : new.program ∉ m.table.programs) (hcpu : m.cpu.program ≠ some new.program)
    (hpid : new.pid < m.table.nextPid)
    (hlater : ∀ {base}, base? = some base →
      base.heap.programs.length ≤ new.program ∧ base.table.nextPid ≤ new.pid) :
    Mirrors base? m (spawn slot new) (Uniproc.Machine.spawn slot (new.view m.heap)) := by
  intro hm
  cases hb : m.table.get slot with
  | error fault =>
      obtain ⟨hx, hy⟩ := spawn_of_missing new hb
      rw [hx, hy]
      exact ⟨rfl, hm⟩
  | ok b =>
      cases hfree : b.isFree with
      | false =>
          obtain ⟨hx, hy⟩ := spawn_of_occupied new hb hfree
          rw [hx, hy]
          exact ⟨rfl, hm⟩
      | true =>
          obtain ⟨i, hi, _⟩ := ProcessTable.exists_index_of_get hb
          let c : ControlBlock := { new with timeUsed := 0 }
          have hc : b.spawn new = .ok c := if_pos hfree
          have hview : (b.view m.heap).spawn (new.view m.heap) = .ok (c.view m.heap) := if_pos hfree
          have hindex : ((m.table.put slot c).view m.heap).index? slot = some i := by
            rw [ProcessTable.index?_view, ProcessTable.index?_put, hi]
          have hhome := home_put hm.nodup hi (c := c) hfresh hcpu
          rw [spawn, update_of_ok hb hc, Uniproc.Machine.spawn,
            bind_of_ok (update_view_of_ok hb hview)]
          refine ⟨?_, hm.put hb (ProcessTable.programs_put hi c ▸ hm.nodup.set hfresh) hknown hpid
            fun hbase => .inr (hlater hbase)⟩
          change EStateM.Result.ok () _ = EStateM.Result.ok ()
            (if m.home = ((m.table.put slot c).view m.heap).index? slot then _ else _)
          rw [hindex]
          refine congrArg (EStateM.Result.ok ()) ?_
          by_cases hold : m.home = some i
          · rw [if_pos hold] at hhome ⊢
            simp only [view, hhome]
          · rw [if_neg hold] at hhome ⊢
            simp only [view, hhome]

end Machine
end Sharing
end Uniproc
