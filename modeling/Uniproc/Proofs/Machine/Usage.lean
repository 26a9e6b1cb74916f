import Uniproc.Proofs.Machine.Coherence

/-!
The machine's operations under any use. Nobody sees to it here that a new process is queued,
that a slot is queued once or that the running process is the one that was started: any
operation may come after any other, on any slot of the table and after any refusal.
-/

namespace Uniproc

/-- A call of the scheduler or the process table, with a slot of a table of `n`. -/
inductive Operation (n : Nat)
  | spawn (slot : Fin n) (new : ControlBlock)
  | start (slot : Fin n)
  | enqueue (slot : Fin n)
  | dispatch
  | blockRunning (programCounter value : Int)
  | terminateRunning
  | unblock

/-- Does the call, which gives the slot that it has moved, if it tells. -/
def Operation.act {n : Nat} : Operation n → Action Machine (Option Int)
  | .spawn slot new => (fun _ => none) <$> Machine.spawn slot.val new
  | .start slot => (fun _ => none) <$> Machine.start slot.val
  | .enqueue slot => (fun _ => none) <$> Machine.enqueue slot.val
  | .dispatch => Machine.dispatch
  | .blockRunning programCounter value => some <$> Machine.blockRunning programCounter value
  | .terminateRunning => some <$> Machine.terminateRunning
  | .unblock => Machine.unblock

namespace Machine

/-- The machine after one call after the other; a call that fails does not keep the next one
from being made. -/
def afterAll {n : Nat} (m : Machine) (ops : List (Operation n)) : Machine :=
  ops.foldl (fun m op => (op.act.perform m).2) m

/-- What the scheduler promises its users: every slot it has is in the state it has it for, and
in one place; a call that fails has changed nothing; and the calls that can fail for want of a
running process fail for nothing else. -/
structure Reliable (n : Nat) (m : Machine) : Prop where
  running_state {slot : Int} :
    m.scheduler.running = some slot → m.table.stateAt slot = some .running
  ready_state {slot : Int} : slot ∈ m.scheduler.ready → m.table.stateAt slot = some .ready
  blocked_state {slot : Int} : slot ∈ m.scheduler.blocked → m.table.stateAt slot = some .blocked
  nodup_places : m.scheduler.places.Nodup
  unchanged (op : Operation n) {fault : Fault} {m' : Machine} :
    op.act m = .error fault m' → m' = m
  dispatch_ok : ∃ slot? m', dispatch m = .ok slot? m'
  unblock_ok : ∃ slot? m', unblock m = .ok slot? m'
  blockRunning_error_iff (programCounter value : Int) :
    (∃ fault m', blockRunning programCounter value m = .error fault m') ↔
      m.scheduler.running = none
  terminateRunning_error_iff :
    (∃ fault m', terminateRunning m = .error fault m') ↔ m.scheduler.running = none

variable {n : Nat} {m : Machine} {slot : Int} {b new : ControlBlock}

/-- A slot is kept for no state but its own. -/
theorem Consistent.not_mem_of_ne (h : m.Consistent) (hb : m.table.blockAt slot = some b)
    {state : ProcessState} (hne : b.state ≠ state) : slot ∉ m.scheduler.slotsIn state := by
  intro hmem
  have hstate := h.stateAt_eq state hmem
  rw [ProcessTable.stateAt_of_blockAt hb] at hstate
  exact hne (Option.some.inj hstate)

/-- How the slots that are kept for a state change with the block in `slot`: some of them go, and
`slot` stays only in its new state; or `slot`, which was not there, comes at the end. -/
def Follows (m : Machine) (slot : Int) (new : ControlBlock) (s : Scheduler)
    (state : ProcessState) : Prop :=
  ((s.slotsIn state).Sublist (m.scheduler.slotsIn state) ∧
    (slot ∈ s.slotsIn state → new.state = state)) ∨
  (new.state = state ∧ slot ∉ m.scheduler.slotsIn state ∧
    s.slotsIn state = m.scheduler.slotsIn state ++ [slot])

/-- What is kept for another state than the slot's own may stay. -/
theorem Consistent.follows_of_ne (h : m.Consistent) (hb : m.table.blockAt slot = some b)
    {s : Scheduler} {state : ProcessState} (hne : b.state ≠ state)
    (heq : s.slotsIn state = m.scheduler.slotsIn state) : Follows m slot new s state := by
  refine .inl ⟨heq ▸ List.Sublist.refl _, ?_⟩
  intro hmem
  exact absurd (heq ▸ hmem) (h.not_mem_of_ne hb hne)

theorem Consistent.of_put (h : m.Consistent) (hb : m.table.blockAt slot = some b) {s : Scheduler}
    (hfollows : ∀ state, Follows m slot new s state) (c : Cpu) :
    Consistent { table := m.table.put slot new, scheduler := s, cpu := c } where
  stateAt_eq state {other} hmem := by
    rw [ProcessTable.stateAt_of_update (ProcessTable.blockAt_put hb new)]
    rcases hfollows state with ⟨hsub, hslot⟩ | ⟨hslot, _, heq⟩
    · split
      · next hother => rw [hslot (hother ▸ hmem)]
      · exact h.stateAt_eq state (hsub.subset hmem)
    · rw [heq, List.mem_append, List.mem_singleton] at hmem
      split
      · rw [hslot]
      · next hother => exact h.stateAt_eq state (hmem.resolve_right hother)
  nodup state := by
    rcases hfollows state with ⟨hsub, _⟩ | ⟨_, hnew, heq⟩
    · exact (h.nodup state).sublist hsub
    · rw [heq]
      exact (h.nodup state).append (List.nodup_singleton slot) (List.disjoint_singleton.mpr hnew)

/-- A call that succeeds leaves a consistent machine with as many slots, and one that fails has
changed nothing. -/
def Keeps {α : Type} (act : Action Machine α) (m : Machine) : Prop :=
  match act m with
  | .ok _ m' => m'.Consistent ∧ m'.table.capacity = m.table.capacity
  | .error _ m' => m' = m

/-- The call gives `a`, and leaves a consistent machine with as many slots. -/
def Works {α : Type} (act : Action Machine α) (m : Machine) (a : α) : Prop :=
  ∃ m', act m = .ok a m' ∧ m'.Consistent ∧ m'.table.capacity = m.table.capacity

theorem Works.keeps {α : Type} {act : Action Machine α} {a : α} (h : Works act m a) :
    Keeps act m := by
  obtain ⟨m', hok, hm'⟩ := h
  simp only [Keeps, hok]
  exact hm'

theorem Works.exists_ok {α : Type} {act : Action Machine α} {a : α} (h : Works act m a) :
    ∃ m', act m = .ok a m' := by
  obtain ⟨m', hok, _⟩ := h
  exact ⟨m', hok⟩

theorem keeps_of_error {α : Type} {act : Action Machine α} {fault : Fault}
    (h : act m = .error fault m) : Keeps act m := by
  simp only [Keeps, h]

theorem keeps_map {α β : Type} {act : Action Machine α} (h : Keeps act m) (f : α → β) :
    Keeps (f <$> act) m := by
  simp only [Keeps, Functor.map, EStateM.map] at h ⊢
  cases hact : act m with
  | ok a m' => simpa only [hact] using h
  | error fault m' => simpa only [hact] using h

theorem update_eq_error {f : ControlBlock → Except Fault ControlBlock} {fault : Fault}
    (hb : m.table.blockAt slot = some b) (hf : f b = .error fault) :
    update slot f m = .error fault m := by
  unfold update
  rw [Action.bind_of_ok (lookUp_eq hb), hf]
  rfl

/-- A new process is queued for nothing yet, and its slot was not either. -/
theorem keeps_spawn (h : m.Consistent) (hb : m.table.blockAt slot = some b)
    (new : ControlBlock) : Keeps (spawn slot new) m := by
  cases hfree : b.isFree with
  | false =>
      have hspawn : b.spawn new = .error (.ofRefusal (.occupied b.pid b.state)) := by
        rw [ControlBlock.spawn, hfree]
        rfl
      apply keeps_of_error
      unfold spawn
      exact Action.bind_of_error (update_eq_error hb hspawn) _
  | true =>
      have hspawn : b.spawn new = .ok { new with timeUsed := 0 } := by
        rw [ControlBlock.spawn, if_pos hfree]
      -- whether the CPU is cut off from the slot is nothing to the queues
      have hspawned : ∃ c, spawn slot new m =
          .ok () { m with table := m.table.put slot { new with timeUsed := 0 }, cpu := c } := by
        unfold spawn
        rw [Action.bind_of_ok (update_eq hb hspawn)]
        change ∃ c, EStateM.Result.ok () (if m.cpu.home = _ then _ else _) = _
        split
        · exact ⟨_, rfl⟩
        · exact ⟨_, rfl⟩
      obtain ⟨c, hspawned⟩ := hspawned
      refine Works.keeps ⟨_, hspawned, ?_, ?_⟩
      · apply h.of_put hb
        intro state
        have hterminated := (ProcessTable.isFree_eq_true_iff b).mp hfree
        cases state with
        | ready | running | blocked => exact h.follows_of_ne hb (by rw [hterminated]; decide) rfl
        | terminated =>
            refine .inl ⟨List.Sublist.refl _, ?_⟩
            intro hmem
            cases hmem
      · exact ProcessTable.capacity_put _ _ _

theorem keeps_start (h : m.Consistent) (hb : m.table.blockAt slot = some b) :
    Keeps (start slot) m := by
  cases hrun : m.scheduler.running with
  | some running =>
      have hbusy : start slot m = .error (.ofRefusal (.cpuBusy slot running)) m := by
        unfold start
        rw [Action.bind_get]
        simp only [hrun]
        rfl
      exact keeps_of_error hbusy
  | none =>
      by_cases hstate : b.state = .running
      · refine Works.keeps ⟨_, start_eq hrun hb hstate, ?_, ?_⟩
        · rw [← ProcessTable.put_self hb]
          apply h.of_put hb
          intro state
          cases state with
          | running =>
              refine .inr ⟨hstate, ?_, ?_⟩
              · simp [Scheduler.slotsIn, hrun]
              · simp [Scheduler.slotsIn, hrun]
          | ready | blocked | terminated =>
              exact h.follows_of_ne hb (by rw [hstate]; decide) rfl
        · rfl
      · have hrefused : start slot m = .error (.ofRefusal (.notRunning slot b.state)) m := by
          unfold start
          rw [Action.bind_get]
          simp only [hrun]
          rw [Action.bind_of_ok (lookUp_eq hb), if_pos hstate]
          rfl
        exact keeps_of_error hrefused

theorem keeps_enqueue (h : m.Consistent) (hb : m.table.blockAt slot = some b) :
    Keeps (enqueue slot) m := by
  by_cases hstate : b.state = .ready
  · by_cases hmem : slot ∈ m.scheduler.ready
    · have hqueued : enqueue slot m = .error (.ofRefusal (.alreadyQueued slot)) m := by
        unfold enqueue
        rw [Action.bind_of_ok (lookUp_eq hb), if_neg (not_not_intro hstate)]
        change (if slot ∈ m.scheduler.ready then _ else _ : Action Machine Unit) m = _
        rw [if_pos hmem]
        rfl
      exact keeps_of_error hqueued
    · refine Works.keeps ⟨_, enqueue_eq hb hstate hmem, ?_, ?_⟩
      · rw [← ProcessTable.put_self hb]
        apply h.of_put hb
        intro state
        cases state with
        | ready => exact .inr ⟨hstate, hmem, rfl⟩
        | running | blocked | terminated =>
            exact h.follows_of_ne hb (by rw [hstate]; decide) rfl
      · rfl
  · have hrefused : enqueue slot m = .error (.ofRefusal (.notReady slot b.state)) m := by
      unfold enqueue
      rw [Action.bind_of_ok (lookUp_eq hb), if_pos hstate]
      rfl
    exact keeps_of_error hrefused

theorem Consistent.exists_blockAt (h : m.Consistent) (state : ProcessState)
    (hmem : slot ∈ m.scheduler.slotsIn state) :
    ∃ b, m.table.blockAt slot = some b ∧ b.state = state :=
  ProcessTable.exists_blockAt_of_stateAt (h.stateAt_eq state hmem)

/-- The front of a queue is not in the rest of it. -/
theorem Consistent.follows_of_front (h : m.Consistent) {s : Scheduler} {state : ProcessState}
    {rest : List Int} (hfront : m.scheduler.slotsIn state = slot :: rest)
    (hrest : s.slotsIn state = rest) : Follows m slot new s state := by
  have hnodup := h.nodup state
  rw [hfront, List.nodup_cons] at hnodup
  refine .inl ⟨?_, ?_⟩
  · rw [hrest, hfront]
    exact List.sublist_cons_self slot rest
  · intro hmem
    exact absurd (hrest ▸ hmem) hnodup.1

/-- The front of the ready queue is ready, so that nothing keeps it from getting the CPU. -/
theorem Consistent.works_dispatch (h : m.Consistent) : ∃ slot?, Works dispatch m slot? := by
  cases hrun : m.scheduler.running with
  | some slot => exact ⟨none, m, dispatch_stay (by simp [next?, hrun]), h, rfl⟩
  | none =>
      cases hready : m.scheduler.ready with
      | nil => exact ⟨none, m, dispatch_stay (by simp [next?, hready]), h, rfl⟩
      | cons slot rest =>
          obtain ⟨b, hb, hstate⟩ :=
            h.exists_blockAt .ready (hready ▸ List.mem_cons_self)
          refine ⟨some slot, _, dispatch_switch hrun hready hb hstate, ?_, ?_⟩
          · apply h.of_put hb
            intro state
            cases state with
            | running =>
                refine .inr ⟨rfl, ?_, ?_⟩
                · simp [Scheduler.slotsIn, hrun]
                · simp [Scheduler.slotsIn, afterSwitch, hrun]
            | ready => exact h.follows_of_front hready rfl
            | blocked | terminated => exact h.follows_of_ne hb (by rw [hstate]; decide) rfl
          · exact ProcessTable.capacity_put _ _ _

theorem Consistent.works_unblock (h : m.Consistent) : ∃ slot?, Works unblock m slot? := by
  cases hblocked : m.scheduler.blocked with
  | nil => exact ⟨none, m, unblock_stay hblocked, h, rfl⟩
  | cons slot rest =>
      obtain ⟨b, hb, hstate⟩ :=
        h.exists_blockAt .blocked (hblocked ▸ List.mem_cons_self)
      refine ⟨some slot, _, unblock_wake hblocked hb hstate, ?_, ?_⟩
      · apply h.of_put hb
        intro state
        cases state with
        | ready => exact .inr ⟨rfl, h.not_mem_of_ne hb (by rw [hstate]; decide), rfl⟩
        | blocked => exact h.follows_of_front hblocked rfl
        | running | terminated => exact h.follows_of_ne hb (by rw [hstate]; decide) rfl
      · exact ProcessTable.capacity_put _ _ _

theorem requireRunning_idle (hidle : m.scheduler.running = none) :
    requireRunning m = .error (.ofRefusal .nothingRunning) m := by
  simp only [requireRunning, Action.bind_get, hidle]
  rfl

/-- The running slot gives the CPU up, and is kept from then on for its new state, if at all. -/
theorem Consistent.of_stop (h : m.Consistent) (hrun : m.scheduler.running = some slot)
    (hb : m.table.blockAt slot = some b) (hstate : b.state = .running) {blocked : List Int}
    (hblocked : Follows m slot new { m.scheduler with blocked, running := none } .blocked) :
    Consistent
      { m with
        table := m.table.put slot new
        scheduler := { m.scheduler with blocked, running := none } } := by
  apply h.of_put hb
  intro state
  cases state with
  | running =>
      have hfront : m.scheduler.slotsIn .running = [slot] := by rw [Scheduler.slotsIn, hrun]; rfl
      exact h.follows_of_front hfront rfl
  | ready | terminated => exact h.follows_of_ne hb (by rw [hstate]; decide) rfl
  | blocked => exact hblocked

theorem blockRunning_idle (hidle : m.scheduler.running = none) (programCounter value : Int) :
    blockRunning programCounter value m = .error (.ofRefusal .nothingRunning) m := by
  unfold blockRunning
  exact Action.bind_of_error (requireRunning_idle hidle) _

theorem terminateRunning_idle (hidle : m.scheduler.running = none) :
    terminateRunning m = .error (.ofRefusal .nothingRunning) m := by
  unfold terminateRunning
  exact Action.bind_of_error (requireRunning_idle hidle) _

theorem Consistent.works_blockRunning (h : m.Consistent)
    (hrun : m.scheduler.running = some slot) (programCounter value : Int) :
    Works (blockRunning programCounter value) m slot := by
  obtain ⟨b, hb, hstate⟩ := h.exists_blockAt .running (Option.mem_toList.mpr hrun)
  refine ⟨_, blockRunning_eq hrun hb hstate programCounter value, ?_, ?_⟩
  · apply h.of_stop hrun hb hstate
    exact .inr ⟨rfl, h.not_mem_of_ne hb (by rw [hstate]; decide), rfl⟩
  · exact ProcessTable.capacity_put _ _ _

theorem Consistent.works_terminateRunning (h : m.Consistent)
    (hrun : m.scheduler.running = some slot) : Works terminateRunning m slot := by
  obtain ⟨b, hb, hstate⟩ := h.exists_blockAt .running (Option.mem_toList.mpr hrun)
  refine ⟨_, terminateRunning_eq hrun hb hstate, ?_, ?_⟩
  · apply h.of_stop hrun hb hstate
    exact h.follows_of_ne hb (by rw [hstate]; decide) rfl
  · exact ProcessTable.capacity_put _ _ _

theorem keeps_blockRunning (h : m.Consistent) (programCounter value : Int) :
    Keeps (blockRunning programCounter value) m := by
  cases hrun : m.scheduler.running with
  | none => exact keeps_of_error (blockRunning_idle hrun programCounter value)
  | some slot => exact (h.works_blockRunning hrun programCounter value).keeps

theorem keeps_terminateRunning (h : m.Consistent) : Keeps terminateRunning m := by
  cases hrun : m.scheduler.running with
  | none => exact keeps_of_error (terminateRunning_idle hrun)
  | some slot => exact (h.works_terminateRunning hrun).keeps

theorem exists_blockAt_of_lt (hn : m.table.capacity = n) (slot : Fin n) :
    ∃ b, m.table.blockAt slot.val = some b := by
  have hlt : slot.val < m.table.slots.length := by
    rw [← ProcessTable.capacity, hn]
    exact slot.isLt
  refine ⟨m.table.slots[slot.val], ?_⟩
  rw [ProcessTable.blockAt, if_pos (Int.natCast_nonneg _), Int.toNat_natCast,
    List.getElem?_eq_getElem hlt]

theorem keeps_act (h : m.Consistent) (hn : m.table.capacity = n) (op : Operation n) :
    Keeps op.act m := by
  cases op with
  | spawn slot new =>
      obtain ⟨b, hb⟩ := exists_blockAt_of_lt hn slot
      exact keeps_map (keeps_spawn h hb new) _
  | start slot =>
      obtain ⟨b, hb⟩ := exists_blockAt_of_lt hn slot
      exact keeps_map (keeps_start h hb) _
  | enqueue slot =>
      obtain ⟨b, hb⟩ := exists_blockAt_of_lt hn slot
      exact keeps_map (keeps_enqueue h hb) _
  | dispatch =>
      obtain ⟨slot?, hworks⟩ := h.works_dispatch
      exact hworks.keeps
  | blockRunning programCounter value =>
      exact keeps_map (keeps_blockRunning h programCounter value) _
  | terminateRunning => exact keeps_map (keeps_terminateRunning h) _
  | unblock =>
      obtain ⟨slot?, hworks⟩ := h.works_unblock
      exact hworks.keeps

/-- One call, whether it has failed or not. -/
theorem consistent_perform (h : m.Consistent) (hn : m.table.capacity = n) (op : Operation n) :
    (op.act.perform m).2.Consistent ∧ (op.act.perform m).2.table.capacity = n := by
  have hkeeps := keeps_act h hn op
  simp only [Keeps] at hkeeps
  rw [Action.perform_snd]
  cases hact : op.act m with
  | ok slot? m' =>
      simp only [hact] at hkeeps
      exact ⟨hkeeps.1, hkeeps.2.trans hn⟩
  | error fault m' =>
      simp only [hact] at hkeeps
      exact hkeeps ▸ ⟨h, hn⟩

theorem consistent_afterAll (h : m.Consistent) (hn : m.table.capacity = n)
    (ops : List (Operation n)) :
    (m.afterAll ops).Consistent ∧ (m.afterAll ops).table.capacity = n := by
  induction ops generalizing m with
  | nil => exact ⟨h, hn⟩
  | cons op ops ih =>
      obtain ⟨hop, hcapacity⟩ := consistent_perform h hn op
      exact ih hop hcapacity

theorem Consistent.reliable (h : m.Consistent) (hn : m.table.capacity = n) : m.Reliable n where
  running_state hrun := h.stateAt_eq .running (Option.mem_toList.mpr hrun)
  ready_state hmem := h.stateAt_eq .ready hmem
  blocked_state hmem := h.stateAt_eq .blocked hmem
  nodup_places := h.nodup_places
  unchanged op {fault m'} herror := by
    have hkeeps := keeps_act h hn op
    simpa only [Keeps, herror] using hkeeps
  dispatch_ok := by
    obtain ⟨slot?, hworks⟩ := h.works_dispatch
    exact ⟨slot?, hworks.exists_ok⟩
  unblock_ok := by
    obtain ⟨slot?, hworks⟩ := h.works_unblock
    exact ⟨slot?, hworks.exists_ok⟩
  blockRunning_error_iff programCounter value := by
    cases hrun : m.scheduler.running with
    | none => simp [blockRunning_idle hrun]
    | some slot =>
        obtain ⟨m', hdone⟩ := (h.works_blockRunning hrun programCounter value).exists_ok
        simp [hdone]
  terminateRunning_error_iff := by
    cases hrun : m.scheduler.running with
    | none => simp [terminateRunning_idle hrun]
    | some slot =>
        obtain ⟨m', hdone⟩ := (h.works_terminateRunning hrun).exists_ok
        simp [hdone]

/-- In a table of free slots nothing is kept for anything. -/
theorem consistent_start (table : ProcessTable) : Consistent { table } where
  stateAt_eq state {slot} hmem := by
    cases state <;> cases hmem
  nodup state := by
    cases state <;> exact List.nodup_nil

theorem reliable_of_ofCapacity {capacity : Int} (h : 1 ≤ capacity) :
    ∃ m, ofCapacity capacity = .ok m ∧
      ∀ past : List (Operation capacity.toNat), (m.afterAll past).Reliable capacity.toNat := by
  have htable : ProcessTable.ofCapacity capacity =
      .ok { slots := List.replicate capacity.toNat {} } := by
    rw [ProcessTable.ofCapacity, if_neg (by omega)]
  have hn : ProcessTable.capacity { slots := List.replicate capacity.toNat {} } =
      capacity.toNat := List.length_replicate
  refine ⟨_, by rw [ofCapacity, htable]; rfl, ?_⟩
  intro past
  obtain ⟨hconsistent, hcapacity⟩ := consistent_afterAll (consistent_start _) hn past
  exact hconsistent.reliable hcapacity

/-- Two processes that nobody queued, one of them blocked, and calls that fail in between. -/
def misuseDemo : List (Operation 3) :=
  [.spawn 0 { pid := 7, state := .running }, .spawn 1 { pid := 7, state := .blocked }, .enqueue 1,
    .terminateRunning, .start 0, .start 0, .blockRunning 4 9, .spawn 0 {}, .unblock,
    .spawn 2 { pid := -2, state := .ready }, .enqueue 0, .enqueue 2, .dispatch]

theorem reliable_of_ofCapacity_misuse : (1 : Int) ≤ 3 ∧ ∃ m, ofCapacity 3 = .ok m ∧
    (m.afterAll misuseDemo).scheduler = { running := some 0, ready := [2], switches := 1 } ∧
    (m.afterAll misuseDemo).Reliable 3 := by
  obtain ⟨m, hm, hreliable⟩ := reliable_of_ofCapacity (by decide : (1 : Int) ≤ 3)
  refine ⟨by decide, m, hm, ?_, hreliable misuseDemo⟩
  cases hm
  decide +kernel

end Machine
end Uniproc
