import Mathlib.Data.List.Nodup
import Uniproc.Proofs.Machine.Effect

/-!
Processes that pass from one state to another between two tables, and what the queues have
to do with it. Whoever has come into a queue and has not left it is still there, behind all
that came before: so it is after every effect, after every unblocking, and when the CPU is
given away on top of either.
-/

namespace Uniproc
namespace ProcessTable

/-- All slots, in order. -/
def positions (t : ProcessTable) : List Int :=
  (List.range t.capacity).map Int.ofNat

/-- A slot, and the number of the process in it. -/
def occupant (t : ProcessTable) (slot : Int) : Int × Option Int :=
  (slot, (t.blockAt slot).map (·.pid))

/-- The processes that had one of the states `source` in this table and have one of the
states `target` in a later one. -/
def passed (t u : ProcessTable) (source target : List ProcessState) : List (Int × Option Int) :=
  (u.positions.filter fun slot =>
    (t.stateAt slot).any (· ∈ source) && (u.stateAt slot).any (· ∈ target)).map u.occupant

/-- The processes that have come into the ready queue. Some may have the CPU by now. -/
def enqueued (t u : ProcessTable) : List (Int × Option Int) :=
  t.passed u [.terminated, .blocked] [.ready, .running]

/-- The processes that have got the CPU. -/
def dispatched (t u : ProcessTable) : List (Int × Option Int) :=
  t.passed u [.terminated, .blocked, .ready] [.running]

/-- The processes that have come into the blocked queue. -/
def stopped (t u : ProcessTable) : List (Int × Option Int) :=
  t.passed u [.running] [.blocked]

/-- The processes that have left the blocked queue. -/
def awoken (t u : ProcessTable) : List (Int × Option Int) :=
  t.passed u [.blocked] [.ready, .running]

variable {t u v : ProcessTable} {slot : Int} {b c : ControlBlock}
  {source target : List ProcessState}

theorem mem_positions_of_stateAt {state : ProcessState} (h : t.stateAt slot = some state) :
    slot ∈ t.positions := by
  obtain ⟨b, hb, _⟩ := exists_blockAt_of_stateAt h
  obtain ⟨h0, hlt⟩ := bounds_of_blockAt hb
  exact List.mem_map.mpr ⟨slot.toNat, List.mem_range.mpr hlt, Int.toNat_of_nonneg h0⟩

theorem nodup_positions (t : ProcessTable) : t.positions.Nodup :=
  List.nodup_range.map fun _ _ h => Int.ofNat.inj h

theorem passed_eq_nil (h : ∀ slot s s', t.stateAt slot = some s → u.stateAt slot = some s' →
    s ∈ source → s' ∉ target) : t.passed u source target = [] := by
  rw [passed, List.map_eq_nil_iff, List.filter_eq_nil_iff]
  intro slot _ hboth
  simp only [Bool.and_eq_true, Option.any_eq_true, decide_eq_true_eq] at hboth
  obtain ⟨⟨s, hs, hsource⟩, s', hs', htarget⟩ := hboth
  exact h slot s s' hs hs' hsource htarget

/-- One process has passed, and no other. -/
theorem passed_eq_singleton {s s' : ProcessState} (hs : t.stateAt slot = some s)
    (hs' : u.stateAt slot = some s') (hsource : s ∈ source) (htarget : s' ∈ target)
    (hother : ∀ other r r', other ≠ slot → t.stateAt other = some r →
      u.stateAt other = some r' → r ∈ source → r' ∉ target) :
    t.passed u source target = [u.occupant slot] := by
  have hfilter : (u.positions.filter fun slot => (t.stateAt slot).any (· ∈ source) &&
      (u.stateAt slot).any (· ∈ target)) = [slot] := by
    refine List.perm_singleton.mp ((List.perm_ext_iff_of_nodup (u.nodup_positions.filter _)
      (List.nodup_singleton slot)).mpr fun other => ?_)
    simp only [List.mem_filter, Bool.and_eq_true, Option.any_eq_true, decide_eq_true_eq,
      List.mem_singleton]
    constructor
    · rintro ⟨_, ⟨r, hr, hrsource⟩, r', hr', hrtarget⟩
      by_contra hne
      exact hother other r r' hne hr hr' hrsource hrtarget
    · rintro rfl
      exact ⟨mem_positions_of_stateAt hs', ⟨s, hs, hsource⟩, s', hs', htarget⟩
  rw [passed, hfilter, List.map_singleton]

theorem passed_self (hdisjoint : ∀ s ∈ source, s ∉ target) : t.passed t source target = [] := by
  refine passed_eq_nil fun slot s s' hs hs' hsource => ?_
  rw [hs] at hs'
  cases hs'
  exact hdisjoint s hsource

/-- Between tables that differ in one slot, only the process there can have passed. -/
theorem passed_of_update (hdisjoint : ∀ s ∈ source, s ∉ target) (hb : t.blockAt slot = some b)
    (hu : ∀ other, u.blockAt other = if other = slot then some c else t.blockAt other) :
    t.passed u source target =
      if b.state ∈ source ∧ c.state ∈ target then [u.occupant slot] else [] := by
  have hstate := stateAt_of_update hu
  have hother (other : Int) (r r' : ProcessState) (hne : other ≠ slot)
      (hr : t.stateAt other = some r) (hr' : u.stateAt other = some r') (hsource : r ∈ source) :
      r' ∉ target := by
    rw [hstate, if_neg hne, hr] at hr'
    cases hr'
    exact hdisjoint r hsource
  split
  · next hboth =>
    exact passed_eq_singleton (stateAt_of_blockAt hb) ((hstate slot).trans (if_pos rfl)) hboth.1
      hboth.2 hother
  · next hneither =>
    refine passed_eq_nil fun other r r' hr hr' hsource => ?_
    by_cases hslot : other = slot
    · subst hslot
      rw [stateAt_of_blockAt hb] at hr
      rw [hstate, if_pos rfl] at hr'
      cases hr
      cases hr'
      exact fun htarget => hneither ⟨hsource, htarget⟩
    · exact hother other r r' hslot hr hr' hsource

/-- A table in which the same processes are in the states that count serves as well. -/
theorem passed_congr (hcapacity : v.capacity = u.capacity)
    (hoccupant : ∀ slot, v.occupant slot = u.occupant slot)
    (hclass : ∀ slot,
      (v.stateAt slot).any (· ∈ target) = (u.stateAt slot).any (· ∈ target)) :
    t.passed v source target = t.passed u source target := by
  have hfun : v.occupant = u.occupant := funext hoccupant
  simp only [passed, positions, hcapacity, hclass, hfun]

/-- The slots that are not changed keep their processes, and a process keeps its number. -/
theorem occupant_of_update (hb : t.blockAt slot = some b) (hpid : c.pid = b.pid)
    (hu : ∀ other, u.blockAt other = if other = slot then some c else t.blockAt other)
    (other : Int) : u.occupant other = t.occupant other := by
  rw [occupant, occupant, hu]
  split
  · next heq => rw [heq, hb, Option.map_some, Option.map_some, hpid]
  · rfl

end ProcessTable

namespace Machine

/-- Both queues, first come, first served: what was in a queue and what has come into it is
what has left it and what is in it now, in this order. -/
structure Queued (m m' : Machine) : Prop where
  ready : m.scheduler.ready.map m.table.occupant ++ m.table.enqueued m'.table =
    m.table.dispatched m'.table ++ m'.scheduler.ready.map m'.table.occupant
  blocked : m.scheduler.blocked.map m.table.occupant ++ m.table.stopped m'.table =
    m.table.awoken m'.table ++ m'.scheduler.blocked.map m'.table.occupant
  switches : m'.scheduler.switches =
    m.scheduler.switches + (m.table.dispatched m'.table).length
  dispatched_le : (m.table.dispatched m'.table).length ≤ 1
  /-- Nobody goes from the CPU to the ready queue. -/
  waited {slot : Int} : m'.table.stateAt slot = some .ready →
    ∃ s, m.table.stateAt slot = some s ∧ s ≠ .running

variable {m m' : Machine} {slot : Int} {b c : ControlBlock}

theorem Queued.refl (m : Machine) : Queued m m := by
  have hnone {source target : List ProcessState} (h : ∀ s ∈ source, s ∉ target) :
      m.table.passed m.table source target = [] := ProcessTable.passed_self h
  constructor
  case ready =>
    rw [ProcessTable.enqueued, ProcessTable.dispatched, hnone (by decide), hnone (by decide),
      List.append_nil, List.nil_append]
  case blocked =>
    rw [ProcessTable.stopped, ProcessTable.awoken, hnone (by decide), hnone (by decide),
      List.append_nil, List.nil_append]
  case switches =>
    rw [ProcessTable.dispatched, hnone (by decide)]
    rfl
  case dispatched_le =>
    rw [ProcessTable.dispatched, hnone (by decide)]
    exact Nat.zero_le 1
  case waited =>
    intro slot hready
    exact ⟨.ready, hready, by decide⟩

/-- The CPU has no part in it. -/
theorem Queued.congr {n n' : Machine} (h : Queued m m')
    (hbefore : n.table = m.table ∧ n.scheduler = m.scheduler)
    (hafter : n'.table = m'.table ∧ n'.scheduler = m'.scheduler) : Queued n n' := by
  obtain ⟨t, s, _⟩ := n
  obtain ⟨t', s', _⟩ := n'
  obtain ⟨rfl, rfl⟩ := hbefore
  obtain ⟨rfl, rfl⟩ := hafter
  exact ⟨h.ready, h.blocked, h.switches, h.dispatched_le, h.waited⟩

/-- An effect in one slot keeps the order if the queues change as the state there does. -/
theorem queued_of_update (hb : m.table.blockAt slot = some b)
    (hu : ∀ other, m'.table.blockAt other = if other = slot then some c else m.table.blockAt other)
    (hpid : c.pid = b.pid ∨ slot ∉ m.scheduler.ready ∧ slot ∉ m.scheduler.blocked)
    (hready : m.scheduler.ready ++
        (if b.state ∈ [.terminated, .blocked] ∧ c.state ∈ [.ready, .running] then [slot] else []) =
      (if b.state ∈ [.terminated, .blocked, .ready] ∧ c.state ∈ [.running] then [slot] else []) ++
        m'.scheduler.ready)
    (hblocked : m.scheduler.blocked ++
        (if b.state ∈ [.running] ∧ c.state ∈ [.blocked] then [slot] else []) =
      (if b.state ∈ [.blocked] ∧ c.state ∈ [.ready, .running] then [slot] else []) ++
        m'.scheduler.blocked)
    (hswitches : m'.scheduler.switches = m.scheduler.switches +
      if b.state ∈ [.terminated, .blocked, .ready] ∧ c.state ∈ [.running] then 1 else 0)
    (hwaited : c.state = .ready → b.state ≠ .running) : Queued m m' := by
  have hold {queue : List Int} (hqueue : c.pid = b.pid ∨ slot ∉ queue) :
      queue.map m.table.occupant = queue.map m'.table.occupant := by
    refine List.map_congr_left fun other hmem => ?_
    obtain hpid | hnot := hqueue
    · exact (ProcessTable.occupant_of_update hb hpid hu other).symm
    · have hne : other ≠ slot := fun heq => hnot (heq ▸ hmem)
      rw [ProcessTable.occupant, ProcessTable.occupant, hu, if_neg hne]
  have hpassed {source target : List ProcessState} (hdisjoint : ∀ s ∈ source, s ∉ target) :
      m.table.passed m'.table source target =
        (if b.state ∈ source ∧ c.state ∈ target then [slot] else []).map m'.table.occupant := by
    rw [ProcessTable.passed_of_update hdisjoint hb hu]
    split <;> rfl
  constructor
  case ready =>
    rw [ProcessTable.enqueued, ProcessTable.dispatched, hpassed (by decide), hpassed (by decide),
      hold (hpid.imp_right And.left), ← List.map_append, ← List.map_append, hready]
  case blocked =>
    rw [ProcessTable.stopped, ProcessTable.awoken, hpassed (by decide), hpassed (by decide),
      hold (hpid.imp_right And.right), ← List.map_append, ← List.map_append, hblocked]
  case switches =>
    rw [ProcessTable.dispatched, hpassed (by decide), hswitches]
    split <;> rfl
  case dispatched_le =>
    rw [ProcessTable.dispatched, hpassed (by decide)]
    split <;> simp
  case waited =>
    intro other hready
    rw [ProcessTable.stateAt_of_update hu] at hready
    split at hready
    · next heq =>
      rw [heq]
      exact ⟨b.state, ProcessTable.stateAt_of_blockAt hb, hwaited (Option.some.inj hready)⟩
    · exact ⟨.ready, hready, by decide⟩

theorem queued_affect (h : m.Scheduled) (hrun : m.scheduler.running = some slot)
    (hb : m.table.blockAt slot = some b) {e : Effect} (he : m.Admits e) (tick : Nat) :
    Queued m (m.affect slot b tick e) := by
  have hstate := h.state_eq_running hrun hb
  have hreplace (p : Program) : Queued m (m.afterReplace slot b p) := by
    refine queued_of_update hb (blockAt_afterReplace hb p) (.inl rfl) ?_ ?_ ?_ ?_ <;>
      simp [hstate, afterReplace]
  cases e with
  | compute _ => exact (Queued.refl m).congr ⟨rfl, rfl⟩ ⟨rfl, rfl⟩
  | refuse | keep _ => exact .refl m
  | block =>
      refine queued_of_update hb (blockAt_afterBlock hb) (.inl rfl) ?_ ?_ ?_ ?_ <;>
        simp [hstate, affect, afterBlock]
  | finish =>
      refine queued_of_update hb (blockAt_afterEnd hb) (.inl rfl) ?_ ?_ ?_ ?_ <;>
        simp [hstate, affect, afterEnd]
  | spawn child offset =>
      obtain ⟨old, hold, hfree⟩ := ProcessTable.blockAt_of_allocate he
      have hterminated := (ProcessTable.isFree_eq_true_iff old).mp hfree
      refine queued_of_update hold (blockAt_afterFork hold b offset tick)
        (.inr (h.not_mem_of_free hold hfree).2) ?_ ?_ ?_ ?_ <;>
        simp [hterminated, affect, afterFork, newborn]
  | install p => exact (hreplace p).congr ⟨rfl, rfl⟩ ⟨rfl, rfl⟩
  | lose _ => exact (hreplace {}).congr ⟨rfl, rfl⟩ ⟨rfl, rfl⟩
  | abort _ => exact hreplace {}

theorem queued_afterUnblock (h : m.Scheduled) : Queued m m.afterUnblock := by
  obtain ⟨_, heq⟩ | ⟨slot, b, rest, hblocked, hb, hstate, heq⟩ := h.afterUnblock_cases
  · rw [heq]
    exact .refl m
  · rw [heq]
    refine queued_of_update hb (blockAt_afterWake hb rest) (.inl rfl) ?_ ?_ ?_ ?_ <;>
      simp [hstate, hblocked, afterWake]

/-- Who gets the CPU has been in the ready queue, so this is no passage to where it counts as
much as the CPU. -/
theorem Scheduled.passed_afterDispatch (h : m.Scheduled) {source target : List ProcessState}
    (hclass : ProcessState.ready ∈ target ↔ ProcessState.running ∈ target) (t : ProcessTable) :
    t.passed m.afterDispatch.table source target = t.passed m.table source target := by
  obtain ⟨_, heq⟩ | ⟨slot, b, rest, _, _, _, hb, hstate, heq⟩ := h.afterDispatch_cases
  · rw [heq]
  · rw [heq]
    have hu := blockAt_afterSwitch hb rest
    refine ProcessTable.passed_congr (ProcessTable.capacity_put _ _ _)
      (ProcessTable.occupant_of_update hb (by rfl) hu) fun other => ?_
    rw [ProcessTable.stateAt_of_update hu]
    split
    · next hother =>
      rw [hother, ProcessTable.stateAt_of_blockAt hb, hstate, Option.any_some, Option.any_some]
      exact decide_eq_decide.mpr hclass.symm
    · rfl

/-- The CPU can be given away on top of it: whoever gets the CPU was at the front of the
ready queue. -/
theorem Queued.afterDispatch (h : Queued m m') (hs : m'.Scheduled) :
    Queued m m'.afterDispatch := by
  obtain ⟨_, heq⟩ | ⟨slot, b, rest, _, hidle, hready, hb, hstate, heq⟩ := hs.afterDispatch_cases
  · rwa [heq]
  rw [heq]
  have hu := blockAt_afterSwitch hb rest
  have hstates := ProcessTable.stateAt_of_update hu
  have hoccupant := ProcessTable.occupant_of_update hb (by rfl) hu
  have hqueued {source target : List ProcessState}
      (hclass : ProcessState.ready ∈ target ↔ ProcessState.running ∈ target) :
      m.table.passed (m'.afterSwitch slot b rest).table source target =
        m.table.passed m'.table source target :=
    heq ▸ hs.passed_afterDispatch hclass m.table
  have hat : m'.table.stateAt slot = some .ready := by
    rw [ProcessTable.stateAt_of_blockAt hb, hstate]
  have hnobody (other : Int) : m'.table.stateAt other ≠ some .running := by
    rw [ne_eq, ← hs.running_iff, hidle]
    exact (Option.some_ne_none other).symm
  have hbefore : m.table.dispatched m'.table = [] := by
    refine ProcessTable.passed_eq_nil fun other s s' _ hs' _ htarget => hnobody other ?_
    rw [hs', List.mem_singleton.mp htarget]
  have hafter : m.table.dispatched (m'.afterSwitch slot b rest).table =
      [(m'.afterSwitch slot b rest).table.occupant slot] := by
    obtain ⟨s, hold, hne⟩ := h.waited hat
    refine ProcessTable.passed_eq_singleton hold ((hstates slot).trans (if_pos rfl)) ?_
      List.mem_cons_self fun other r r' hother _ hr' _ htarget => hnobody other ?_
    · cases s with
      | running => exact absurd rfl hne
      | terminated | blocked | ready => decide
    · rw [hstates, if_neg hother] at hr'
      rw [hr', List.mem_singleton.mp htarget]
  have hsame : (m'.afterSwitch slot b rest).table.occupant = m'.table.occupant := funext hoccupant
  have hline := h.ready
  rw [hbefore, hready, List.nil_append, List.map_cons] at hline
  constructor
  case ready =>
    rw [ProcessTable.enqueued, hqueued (by decide), hafter, hsame]
    exact hline
  case blocked =>
    rw [ProcessTable.stopped, ProcessTable.awoken, hqueued (by decide), hqueued (by decide), hsame]
    exact h.blocked
  case switches =>
    have hswitches := h.switches
    rw [hbefore] at hswitches
    rw [hafter]
    exact congrArg (· + 1) hswitches
  case dispatched_le =>
    rw [hafter]
    exact Nat.le_refl 1
  case waited =>
    intro other hready
    rw [hstates] at hready
    split at hready
    · cases hready
    · exact h.waited hready

/-- Who passes by an effect of the process in `slot`: this process, if it blocks or ends, or
its child. -/
def passengers (m : Machine) (slot : Int) (b : ControlBlock) (source target : List ProcessState) :
    Effect → List (Int × Option Int)
  | .block => if .running ∈ source ∧ .blocked ∈ target then [(slot, some b.pid)] else []
  | .finish => if .running ∈ source ∧ .terminated ∈ target then [(slot, some b.pid)] else []
  | .spawn child _ =>
      if .terminated ∈ source ∧ .ready ∈ target then [((child : Int), some m.table.nextPid)] else []
  | _ => []

theorem passed_affect (h : m.Scheduled) (hrun : m.scheduler.running = some slot)
    (hb : m.table.blockAt slot = some b) {e : Effect} (he : m.Admits e) (tick : Nat)
    {source target : List ProcessState} (hdisjoint : ∀ s ∈ source, s ∉ target) :
    m.table.passed (m.affect slot b tick e).table source target =
      m.passengers slot b source target e := by
  have hstate := h.state_eq_running hrun hb
  have hreplace (p : Program) :
      m.table.passed (m.afterReplace slot b p).table source target = [] := by
    rw [ProcessTable.passed_of_update hdisjoint hb (blockAt_afterReplace hb p)]
    exact if_neg fun hboth => hdisjoint _ hboth.1 hboth.2
  cases e with
  | compute _ | refuse | keep _ => exact ProcessTable.passed_self hdisjoint
  | block =>
      have hu := blockAt_afterBlock hb
      have hoccupant : (m.afterBlock slot b).table.occupant slot = (slot, some b.pid) := by
        rw [ProcessTable.occupant, hu, if_pos rfl]
        rfl
      rw [affect, ProcessTable.passed_of_update hdisjoint hb hu, hoccupant, hstate]
      rfl
  | finish =>
      have hu := blockAt_afterEnd hb
      have hoccupant : (m.afterEnd slot b).table.occupant slot = (slot, some b.pid) := by
        rw [ProcessTable.occupant, hu, if_pos rfl]
        rfl
      rw [affect, ProcessTable.passed_of_update hdisjoint hb hu, hoccupant, hstate]
      rfl
  | spawn child offset =>
      obtain ⟨old, hold, hfree⟩ := ProcessTable.blockAt_of_allocate he
      have hu := blockAt_afterFork hold b offset tick
      have hoccupant : (m.afterFork child b offset tick).table.occupant child =
          ((child : Int), some m.table.nextPid) := by
        rw [ProcessTable.occupant, hu, if_pos rfl]
        rfl
      rw [affect, ProcessTable.passed_of_update hdisjoint hold hu, hoccupant,
        (ProcessTable.isFree_eq_true_iff old).mp hfree]
      rfl
  | install p => exact hreplace p
  | lose _ | abort _ => exact hreplace {}

/-- The process that an unblocking passes on was at the front of the blocked queue. -/
theorem Scheduled.passed_afterUnblock (h : m.Scheduled) {source target : List ProcessState}
    (hdisjoint : ∀ s ∈ source, s ∉ target) :
    m.table.passed m.afterUnblock.table source target =
      if ProcessState.blocked ∈ source ∧ ProcessState.ready ∈ target then
        m.scheduler.blocked.head?.toList.map m.table.occupant else [] := by
  obtain ⟨hblocked, heq⟩ | ⟨slot, b, rest, hblocked, hb, hstate, heq⟩ := h.afterUnblock_cases
  · rw [heq, ProcessTable.passed_self hdisjoint, hblocked]
    exact (ite_self _).symm
  · have hu := blockAt_afterWake hb rest
    rw [heq, ProcessTable.passed_of_update hdisjoint hb hu, hstate, hblocked,
      ProcessTable.occupant_of_update hb (by rfl) hu]
    rfl

end Machine
end Uniproc
