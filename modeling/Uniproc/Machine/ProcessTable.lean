import Uniproc.Machine.ControlBlock

/-!
The process table: a fixed number of slots for processes and the next process
number. A slot is used again when its process has ended, a number never.
-/

namespace Uniproc

/-- The slot of the first process, which has the number 0. -/
def initSlot : Int := 0

def initPid : Int := 0

structure ProcessTable where
  slots : List ControlBlock
  nextPid : Int := initPid + 1
deriving DecidableEq, Repr, Inhabited

namespace ProcessTable

/-- A table of free slots; there is at least one. -/
def ofCapacity (capacity : Int) : Except Fault ProcessTable :=
  if capacity < 1 then .error .capacity
  else .ok { slots := List.replicate capacity.toNat {} }

def capacity (t : ProcessTable) : Nat :=
  t.slots.length

def index? (t : ProcessTable) (slot : Int) : Option Nat :=
  resolveIndex t.capacity slot

def get (t : ProcessTable) (slot : Int) : Except Fault ControlBlock :=
  match (t.index? slot).bind (t.slots[·]?) with
  | some b => .ok b
  | none => .error (.ofPosition slot)

/-- The table with another control block in a slot. -/
def put (t : ProcessTable) (slot : Int) (b : ControlBlock) : ProcessTable :=
  match t.index? slot with
  | some i => { t with slots := t.slots.set i b }
  | none => t

/-- The lowest free slot. It stays free until a process is put there. -/
def allocate (t : ProcessTable) : Except Fault Nat :=
  match t.slots.findIdx? (·.isFree) with
  | some i => .ok i
  | none => .error .noFreeSlot

def liveSlots (t : ProcessTable) : List Nat :=
  (List.range t.capacity).filter fun i => t.slots[i]?.any (!·.isFree)

@[simp] theorem capacity_put (t : ProcessTable) (slot : Int) (b : ControlBlock) :
    (t.put slot b).capacity = t.capacity := by
  simp only [put, capacity]
  split <;> simp

end ProcessTable
end Uniproc
