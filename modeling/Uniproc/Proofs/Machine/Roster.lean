import Mathlib.Data.Finset.Card
import Mathlib.Order.Interval.Finset.Nat
import Mathlib.Data.List.ReduceOption
import Mathlib.Algebra.BigOperators.Group.List.Basic
import Mathlib.Algebra.Ring.Int.Defs
import Uniproc.Proofs.Machine.Effect

/-!
The roster of a machine: which process is in which slot. Of all operations only a fork and
an end change it; a fork enters a process under the next number, in the lowest free slot.
-/

namespace Uniproc

/-- What a process is given when it is made and keeps until it ends. -/
structure Identity where
  pid : Int
  parent : Option Int
  priority : Int
  startTime : Int
  timeUsed : Int
deriving DecidableEq, Repr, Inhabited

def ControlBlock.identity (b : ControlBlock) : Identity where
  pid := b.pid
  parent := b.parent
  priority := b.priority
  startTime := b.startTime
  timeUsed := b.timeUsed

/-- The process of a control block, if it has not ended. -/
def ControlBlock.process? (b : ControlBlock) : Option Identity :=
  if b.isFree then none else some b.identity

structure Roster where
  slots : List (Option Identity)
  nextPid : Int

def ProcessTable.roster (t : ProcessTable) : Roster where
  slots := t.slots.map (·.process?)
  nextPid := t.nextPid

namespace Roster

/-- A process that is entered draws a number. -/
def enter (r : Roster) (slot : Nat) (i : Identity) : Roster where
  slots := r.slots.set slot (some i)
  nextPid := r.nextPid + 1

def leave (r : Roster) (slot : Nat) : Roster :=
  { r with slots := r.slots.set slot none }

/-- The roster after an effect of the process in `slot`; a child is entered as `new`. -/
def affect (r : Roster) (slot : Nat) (new : Identity) : Effect → Roster
  | .finish => r.leave slot
  | .spawn child _ => r.enter child new
  | _ => r

def processes (r : Roster) : List Identity :=
  r.slots.reduceOption

/-- The numbers of processes are all different, and so low that they and the slots are
below the next one. -/
structure Numbered (r : Roster) : Prop where
  nextPid_pos : 0 < r.nextPid
  pid_bounds {slot : Nat} {i : Identity} :
    r.slots[slot]? = some (some i) → 0 ≤ i.pid ∧ i.pid < r.nextPid
  slot_inj {slot other : Nat} {i j : Identity} : r.slots[slot]? = some (some i) →
    r.slots[other]? = some (some j) → i.pid = j.pid → slot = other
  slot_lt {slot : Nat} {i : Identity} :
    r.slots[slot]? = some (some i) → (slot : Int) < r.nextPid

variable {r : Roster} {slot : Nat} {i j : Identity}

theorem mem_processes_iff : i ∈ r.processes ↔ ∃ slot : Nat, r.slots[slot]? = some (some i) := by
  rw [processes, List.reduceOption_mem_iff, List.mem_iff_getElem?]

theorem sum_reduceOption (f : Identity → Int) (l : List (Option Identity)) :
    (l.reduceOption.map f).sum = (l.map fun i? => i?.elim 0 f).sum := by
  induction l with
  | nil => rfl
  | cons i? rest ih => cases i? <;> simp [ih]

/-- A change of one slot takes its old share of a sum away and adds the new one. -/
theorem sum_set (f : Identity → Int) {l : List (Option Identity)} {old : Option Identity}
    (h : l[slot]? = some old) (new : Option Identity) :
    ((l.set slot new).reduceOption.map f).sum =
      (l.reduceOption.map f).sum - old.elim 0 f + new.elim 0 f := by
  obtain ⟨hlt, hold⟩ := List.getElem?_eq_some_iff.mp h
  have hmap : slot < (l.map fun i? : Option Identity => i?.elim 0 f).length := by
    rwa [List.length_map]
  rw [sum_reduceOption, sum_reduceOption, List.map_set, List.sum_set', dif_pos hmap,
    List.getElem_map, hold]
  omega

theorem sum_leave (f : Identity → Int) (h : r.slots[slot]? = some (some i)) :
    ((r.leave slot).processes.map f).sum = (r.processes.map f).sum - f i :=
  (sum_set f h none).trans (Int.add_zero _)

theorem sum_enter (f : Identity → Int) (h : r.slots[slot]? = some none) (i : Identity) :
    ((r.enter slot i).processes.map f).sum = (r.processes.map f).sum + f i := by
  refine (sum_set f h (some i)).trans ?_
  rw [Option.elim_none, Option.elim_some, Int.sub_zero]
  rfl

theorem length_processes (r : Roster) :
    (r.processes.length : Int) = (r.processes.map fun _ => (1 : Int)).sum := by
  simp

/-- What is in a slot after a change, is new or was there before. -/
theorem getElem?_set_cases {other : Nat} {i? : Option Identity}
    (h : (r.slots.set slot i?)[other]? = some (some j)) :
    (other = slot ∧ i? = some j) ∨ (other ≠ slot ∧ r.slots[other]? = some (some j)) := by
  rw [List.getElem?_set] at h
  split at h
  · next heq =>
    split at h
    · exact .inl ⟨heq.symm, Option.some.inj h⟩
    · cases h
  · next hne => exact .inr ⟨Ne.symm hne, h⟩

theorem Numbered.leave (h : r.Numbered) (slot : Nat) : (r.leave slot).Numbered := by
  have hbefore {other : Nat} {j : Identity} (hj : (r.leave slot).slots[other]? = some (some j)) :
      r.slots[other]? = some (some j) := by
    obtain ⟨_, hnone⟩ | ⟨_, hold⟩ := getElem?_set_cases hj
    · cases hnone
    · exact hold
  exact
    { nextPid_pos := h.nextPid_pos
      pid_bounds := fun hi => h.pid_bounds (hbefore hi)
      slot_inj := fun hi hj => h.slot_inj (hbefore hi) (hbefore hj)
      slot_lt := fun hi => h.slot_lt (hbefore hi) }

/-- So many processes have as many numbers. -/
theorem Numbered.slot_le (h : r.Numbered)
    (hbelow : ∀ k < slot, ∃ i, r.slots[k]? = some (some i)) : (slot : Int) ≤ r.nextPid := by
  choose! process hprocess using hbelow
  have hmaps : Set.MapsTo (fun k => (process k).pid.toNat) (Finset.range slot)
      (Finset.range r.nextPid.toNat) := by
    intro k hk
    have hbounds := h.pid_bounds (hprocess k (Finset.mem_range.mp hk))
    simp only [Finset.coe_range, Set.mem_Iio]
    omega
  have hinj : Set.InjOn (fun k => (process k).pid.toNat) (Finset.range slot) := by
    intro k hk l hl heq
    have hk' := hprocess k (Finset.mem_range.mp hk)
    have hl' := hprocess l (Finset.mem_range.mp hl)
    have hkb := h.pid_bounds hk'
    have hlb := h.pid_bounds hl'
    exact h.slot_inj hk' hl' (by dsimp only at heq; omega)
  have hcard := Finset.card_le_card_of_injOn _ hmaps hinj
  rw [Finset.card_range, Finset.card_range] at hcard
  have hpos := h.nextPid_pos
  omega

theorem Numbered.enter (h : r.Numbered) (hbelow : ∀ k < slot, ∃ i, r.slots[k]? = some (some i))
    (hpid : i.pid = r.nextPid) : (r.enter slot i).Numbered := by
  have hpos := h.nextPid_pos
  have hslot := h.slot_le hbelow
  constructor
  case nextPid_pos =>
    change 0 < r.nextPid + 1
    omega
  case pid_bounds =>
    intro other j hj
    change 0 ≤ j.pid ∧ j.pid < r.nextPid + 1
    obtain ⟨_, hnew⟩ | ⟨_, hold⟩ := getElem?_set_cases hj
    · cases hnew
      omega
    · have hbounds := h.pid_bounds hold
      omega
  case slot_inj =>
    intro k l j j' hj hj' heq
    obtain ⟨hk, hnew⟩ | ⟨_, hold⟩ := getElem?_set_cases hj <;>
      obtain ⟨hl, hnew'⟩ | ⟨_, hold'⟩ := getElem?_set_cases hj'
    · exact hk.trans hl.symm
    · cases hnew
      have hbounds := h.pid_bounds hold'
      omega
    · cases hnew'
      have hbounds := h.pid_bounds hold
      omega
    · exact h.slot_inj hold hold' heq
  case slot_lt =>
    intro other j hj
    change (other : Int) < r.nextPid + 1
    obtain ⟨hother, _⟩ | ⟨_, hold⟩ := getElem?_set_cases hj
    · omega
    · have hlt := h.slot_lt hold
      omega

end Roster

namespace ControlBlock

theorem process?_of_live {b : ControlBlock} (h : b.state ≠ .terminated) :
    b.process? = some b.identity := by
  rw [process?, (ProcessTable.isFree_eq_false_iff b).mpr h]
  rfl

theorem process?_of_terminated {b : ControlBlock} (h : b.state = .terminated) :
    b.process? = none := by
  rw [process?, (ProcessTable.isFree_eq_true_iff b).mpr h]
  rfl

end ControlBlock

namespace ProcessTable

variable {t : ProcessTable} {slot : Int} {b old : ControlBlock}

theorem roster_put (h : t.blockAt slot = some old) (b : ControlBlock) :
    (t.put slot b).roster =
      { t.roster with slots := t.roster.slots.set slot.toNat b.process? } := by
  simp only [roster, put_of_blockAt h, List.map_set]

/-- A control block of the same process leaves the roster as it is. -/
theorem roster_put_of_eq (h : t.blockAt slot = some old) (hb : b.process? = old.process?) :
    (t.put slot b).roster = t.roster := by
  obtain ⟨hlt, hold⟩ := List.getElem?_eq_some_iff.mp (getElem?_of_blockAt h)
  have hset : t.roster.slots.set slot.toNat old.process? = t.roster.slots := by
    have hlen : slot.toNat < t.roster.slots.length := by rwa [roster, List.length_map]
    have hat : t.roster.slots[slot.toNat] = old.process? := by
      simp only [roster, List.getElem_map, hold]
    rw [← hat, List.set_getElem_self]
  rw [roster_put h, hb, hset]

theorem getElem?_roster (h : t.blockAt slot = some b) :
    t.roster.slots[slot.toNat]? = some b.process? := by
  rw [roster, List.getElem?_map, getElem?_of_blockAt h, Option.map_some]

theorem getElem?_roster_of_allocate {child : Nat} (h : t.allocate = .ok child) :
    t.roster.slots[child]? = some none := by
  obtain ⟨old, hold, hfree⟩ := blockAt_of_allocate h
  have hat := getElem?_roster hold
  rwa [ControlBlock.process?, if_pos hfree] at hat

theorem live_of_getElem?_roster {k : Nat} {i : Identity}
    (h : t.roster.slots[k]? = some (some i)) : ∃ b, t.Live k b ∧ b.identity = i := by
  rw [roster, List.getElem?_map] at h
  obtain ⟨b, hb, hprocess⟩ := Option.map_eq_some_iff.mp h
  rw [ControlBlock.process?] at hprocess
  split at hprocess
  · cases hprocess
  · next hfree =>
    refine ⟨b, ⟨?_, by simpa using hfree⟩, Option.some.inj hprocess⟩
    simpa only [blockAt, Int.natCast_nonneg, if_true, Int.toNat_natCast] using hb

theorem getElem?_roster_of_live (h : t.Live slot b) :
    t.roster.slots[slot.toNat]? = some (some b.identity) := by
  rw [getElem?_roster h.1, ControlBlock.process?, h.2]
  rfl

end ProcessTable

namespace Machine

variable {m : Machine} {slot : Int} {b : ControlBlock}

theorem roster_afterDispatch (h : m.Scheduled) : m.afterDispatch.table.roster = m.table.roster := by
  obtain ⟨_, heq⟩ | ⟨slot, b, rest, _, _, _, hb, hstate, heq⟩ := h.afterDispatch_cases
  · rw [heq]
  · rw [heq]
    refine ProcessTable.roster_put_of_eq hb ?_
    rw [ControlBlock.process?_of_live (by simp), ControlBlock.process?_of_live (by simp [hstate])]
    rfl

theorem roster_afterUnblock (h : m.Scheduled) : m.afterUnblock.table.roster = m.table.roster := by
  obtain ⟨_, heq⟩ | ⟨slot, b, rest, _, hb, hstate, heq⟩ := h.afterUnblock_cases
  · rw [heq]
  · rw [heq]
    refine ProcessTable.roster_put_of_eq hb ?_
    rw [ControlBlock.process?_of_live (by simp), ControlBlock.process?_of_live (by simp [hstate])]
    rfl

theorem roster_affect (h : m.Scheduled) (hrun : m.scheduler.running = some slot)
    (hb : m.table.blockAt slot = some b) {e : Effect} (he : m.Admits e) (tick : Nat) :
    (m.affect slot b tick e).table.roster =
      m.table.roster.affect slot.toNat (m.newborn b tick).identity e := by
  have hstate := h.state_eq_running hrun hb
  have hlive : b.process? = some b.identity := ControlBlock.process?_of_live (by simp [hstate])
  have hreplace (p : Program) : (m.afterReplace slot b p).table.roster = m.table.roster :=
    ProcessTable.roster_put_of_eq hb rfl
  cases e with
  | compute _ | refuse | keep _ => rfl
  | block =>
      refine ProcessTable.roster_put_of_eq hb ?_
      rw [hlive, ControlBlock.process?_of_live (by simp)]
      rfl
  | finish =>
      refine (ProcessTable.roster_put hb _).trans ?_
      rw [ControlBlock.process?_of_terminated rfl]
      rfl
  | spawn child offset =>
      obtain ⟨old, hold, _⟩ := ProcessTable.blockAt_of_allocate he
      refine (ProcessTable.roster_put
        (t := { m.table with nextPid := m.table.nextPid + 1 }) hold _).trans ?_
      rw [ControlBlock.process?_of_live (by simp [newborn])]
      rfl
  | install p => exact hreplace p
  | lose _ | abort _ => exact hreplace {}

end Machine
end Uniproc
