import Uniproc.Proofs.Simulation.Books

/-!
Histories of runs: what every moment of a run has in common, and what adds up over all of
them. A process that is there after a call and was not there before is a child, and only a
fork makes one.
-/

namespace Uniproc

def ProcessView.identity (v : ProcessView) : Identity where
  pid := v.pid
  parent := v.parent
  priority := v.priority
  startTime := v.startTime
  timeUsed := v.timeUsed

def Roster.pids (r : Roster) : List Int :=
  r.processes.map (·.pid)

namespace Roster

variable {r : Roster} {slot : Nat} {i : Identity} {p : Int}

theorem mem_pids_iff :
    p ∈ r.pids ↔ ∃ (slot : Nat) (i : Identity), r.slots[slot]? = some (some i) ∧ i.pid = p := by
  rw [pids, List.mem_map]
  constructor
  · rintro ⟨i, hmem, hp⟩
    obtain ⟨slot, hi⟩ := mem_processes_iff.mp hmem
    exact ⟨slot, i, hi, hp⟩
  · rintro ⟨slot, i, hi, hp⟩
    exact ⟨i, mem_processes_iff.mpr ⟨slot, hi⟩, hp⟩

theorem mem_pids_of_leave (h : p ∈ (r.leave slot).pids) : p ∈ r.pids := by
  obtain ⟨other, j, hj, hp⟩ := mem_pids_iff.mp h
  obtain ⟨_, hnone⟩ | ⟨_, hold⟩ := getElem?_set_cases hj
  · cases hnone
  · exact mem_pids_iff.mpr ⟨other, j, hold, hp⟩

theorem Numbered.not_mem_leave (h : r.Numbered) (hi : r.slots[slot]? = some (some i)) :
    i.pid ∉ (r.leave slot).pids := by
  intro hmem
  obtain ⟨other, j, hj, hp⟩ := mem_pids_iff.mp hmem
  obtain ⟨_, hnone⟩ | ⟨hne, hold⟩ := getElem?_set_cases hj
  · cases hnone
  · exact hne (h.slot_inj hold hi hp)

/-- Who leaves a slot is the only one who leaves. -/
theorem mem_pids_leave (hp : p ∈ r.pids) (hne : ∀ i, r.slots[slot]? = some (some i) → i.pid ≠ p) :
    p ∈ (r.leave slot).pids := by
  obtain ⟨other, j, hj, hpid⟩ := mem_pids_iff.mp hp
  have hslot : slot ≠ other := by
    rintro rfl
    exact hne j hj hpid
  exact mem_pids_iff.mpr ⟨other, j, (List.getElem?_set_ne hslot).trans hj, hpid⟩

/-- Who enters a free slot takes nobody's place. -/
theorem mem_pids_enter (hp : p ∈ r.pids) (hfree : r.slots[slot]? = some none) (i : Identity) :
    p ∈ (r.enter slot i).pids := by
  obtain ⟨other, j, hj, hpid⟩ := mem_pids_iff.mp hp
  have hslot : slot ≠ other := by
    rintro rfl
    cases hfree.symm.trans hj
  exact mem_pids_iff.mpr ⟨other, j, (List.getElem?_set_ne hslot).trans hj, hpid⟩

theorem mem_pids_of_enter (h : p ∈ (r.enter slot i).pids) : p = i.pid ∨ p ∈ r.pids := by
  obtain ⟨other, j, hj, hp⟩ := mem_pids_iff.mp h
  obtain ⟨_, hnew⟩ | ⟨_, hold⟩ := getElem?_set_cases hj
  · cases hnew
    exact .inl hp.symm
  · exact .inr (mem_pids_iff.mpr ⟨other, j, hold, hp⟩)

theorem pid_mem_enter {old : Option Identity} (h : r.slots[slot]? = some old) (i : Identity) :
    i.pid ∈ (r.enter slot i).pids := by
  obtain ⟨hlt, _⟩ := List.getElem?_eq_some_iff.mp h
  exact mem_pids_iff.mpr ⟨slot, i, List.getElem?_set_self hlt, rfl⟩

theorem Numbered.lt_of_mem (h : r.Numbered) (hp : p ∈ r.pids) : p < r.nextPid := by
  obtain ⟨slot, i, hi, rfl⟩ := mem_pids_iff.mp hp
  exact (h.pid_bounds hi).2

end Roster

/-- Only a fork brings a process that was not there, and that has the next number. -/
theorem Books.Booked.find?_pids {k k' : Books} (h : k.Booked k') (hs : k.Sound) :
    (k'.roster.pids.find? fun p => decide (p ∉ k.roster.pids)) =
      if k'.roster.nextPid = k.roster.nextPid then none else some k.roster.nextPid := by
  cases h with
  | same | pass =>
      rw [if_pos rfl, List.find?_eq_none]
      intro p hp
      simpa using hp
  | finish =>
      refine Eq.trans ?_ (if_pos rfl).symm
      rw [List.find?_eq_none]
      intro p hp
      simpa using Roster.mem_pids_of_leave hp
  | @fork slot child i hi hfree hbelow =>
      have hnew := Roster.pid_mem_enter hfree ⟨k.roster.nextPid, some i.pid, i.priority, k.tick, 0⟩
      have hfresh : k.roster.nextPid ∉ k.roster.pids := fun hmem =>
        absurd (hs.numbered.lt_of_mem hmem) (Int.lt_irrefl _)
      have hne : k.roster.nextPid + 1 ≠ k.roster.nextPid := by omega
      refine Eq.trans ?_ (if_neg hne).symm
      cases hfind : ((k.roster.enter child ⟨k.roster.nextPid, some i.pid, i.priority, k.tick,
          0⟩).pids.find? fun p => decide (p ∉ k.roster.pids)) with
      | none =>
          rw [List.find?_eq_none] at hfind
          exact absurd (hfind _ hnew) (by simpa using hfresh)
      | some p =>
          have hnot : p ∉ k.roster.pids := by simpa using List.find?_some hfind
          have hp := (Roster.mem_pids_of_enter (List.mem_of_find?_eq_some hfind)).resolve_right hnot
          rw [hp]

/-- Whoever is there was there before or has the number that was the next one. -/
theorem Books.Booked.mem_pids {k k' : Books} {p : Int} (h : k.Booked k')
    (hp : p ∈ k'.roster.pids) : p ∈ k.roster.pids ∨
      (p = k.roster.nextPid ∧ k'.roster.nextPid = k.roster.nextPid + 1) := by
  cases h with
  | same | pass => exact .inl hp
  | finish => exact .inl (Roster.mem_pids_of_leave hp)
  | fork =>
      obtain hnew | hold := Roster.mem_pids_of_enter hp
      · exact .inr ⟨hnew, rfl⟩
      · exact .inl hold

theorem Books.Booked.nextPid {k k' : Books} (h : k.Booked k') :
    k'.roster.nextPid = k.roster.nextPid ∨
      (k'.roster.nextPid = k.roster.nextPid + 1 ∧ k'.tick = k.tick + 1) := by
  cases h with
  | same | pass | finish => exact .inl rfl
  | fork => exact .inr ⟨rfl, rfl⟩

theorem Books.Booked.tick_bounds {k k' : Books} (h : k.Booked k') :
    k.tick ≤ k'.tick ∧ k'.tick ≤ k.tick + 1 := by
  cases h <;> exact ⟨by simp, by simp⟩

namespace Simulation

/-- The numbers of all processes that have not ended. -/
def livePids (sim : Simulation) : List Int :=
  sim.snapshot.processes.map (·.pid)

namespace Moment

def instruction? (x : Moment) : Option Instruction :=
  match x.response with
  | .ok (.report r) => r.instruction
  | _ => none

/-- The process that has been made. -/
def child? (x : Moment) : Option Int :=
  x.after.livePids.find? fun p => decide (p ∉ x.before.livePids)

/-- An instruction to fork has been carried out and a child is there. -/
def forked (x : Moment) : Bool :=
  x.instruction?.any (·.opcode = .fork) && x.child?.isSome

def advances (x : Moment) : Bool :=
  decide (x.before.tick < x.after.tick)

/-- A call that came in good order and has made its entry in the books, which is none if
it has stopped. -/
structure Entered (x : Moment) : Prop where
  underway : x.before.Underway
  sound : x.before.books.Sound
  happened : Happened x.before x
  booked : x.before.books.Booked x.after.books
  books_eq {fault : Fault} : x.response = .error fault → x.after.books = x.before.books

end Moment

variable {sim : Simulation} {requests : List Request}

/-- The snapshot lists the processes of the roster. -/
theorem map_identity_snapshot (sim : Simulation) :
    sim.snapshot.processes.map ProcessView.identity = sim.books.roster.processes := by
  have hview (x : ControlBlock × Nat) :
      (if x.1.isFree then none else some (viewBlock x.2 x.1)).map ProcessView.identity =
        (ControlBlock.process? ∘ Prod.fst) x := by
    rw [Function.comp_apply, ControlBlock.process?]
    split <;> rfl
  have hslots : sim.books.roster.processes =
      sim.machine.table.slots.filterMap ControlBlock.process? := by
    simp only [books, Roster.processes, ProcessTable.roster, List.reduceOption, List.filterMap_map]
    rfl
  simp only [snapshot, List.map_filterMap, hview]
  rw [hslots, ← List.filterMap_map, List.zipIdx_map_fst]

theorem livePids_eq (sim : Simulation) : sim.livePids = sim.books.roster.pids := by
  rw [Roster.pids, ← map_identity_snapshot, List.map_map]
  rfl

theorem length_snapshot (sim : Simulation) :
    sim.snapshot.processes.length = sim.books.roster.processes.length := by
  rw [← map_identity_snapshot, List.length_map]

theorem exists_fork_of_spawn {files : FileView} {i? : Option Instruction} {child : Nat}
    {offset : Int} (h : sim.effectAt files i? = .spawn child offset) :
    ∃ i, i? = some i ∧ i.opcode = .fork :=
  exists_stems_of_effectAt h (by simp)

/-- A turn after which there is another next number was one of a fork. -/
theorem Turned.forked {files : FileView} {slot : Int} {b : ControlBlock} {report : StepReport}
    {s : Simulation} (h : Turned files slot b sim (.ok report s)) (hc : sim.machine.Coherent)
    (hrun : sim.machine.scheduler.running = some slot)
    (hb : sim.machine.table.blockAt slot = some b)
    (hne : s.machine.table.nextPid ≠ sim.machine.table.nextPid) :
    ∃ i, report.instruction = some i ∧ i.opcode = .fork := by
  cases h with
  | @done i? mid e hnext hmid he hdone =>
      subst hmid
      have hroster := Machine.roster_affect (coherent_fetchedBy hc hrun i?).toScheduled
        (by rwa [scheduler_fetchedBy]) (by rwa [table_fetchedBy])
        (he ▸ admits_effectAt (sim.fetchedBy i?) files i?) (sim.fetchedBy i?).tick
      have hnext := congrArg Roster.nextPid hroster
      change ((sim.fetchedBy i?).affect slot b e).machine.table.nextPid = _ at hnext
      cases e with
      | spawn child offset => exact exists_fork_of_spawn he
      | _ =>
          refine absurd (hnext.trans ?_) hne
          change (sim.fetchedBy i?).machine.table.nextPid = _
          rw [table_fetchedBy]

namespace Moment

variable {x : Moment}

theorem Entered.child?_eq (h : x.Entered) : x.child? =
    if x.after.machine.table.nextPid = x.before.machine.table.nextPid then none
    else some x.before.machine.table.nextPid := by
  rw [child?, livePids_eq, livePids_eq]
  exact h.booked.find?_pids h.sound

theorem Entered.forked_iff (hx : x.Entered) : x.forked = true ↔
    x.after.machine.table.nextPid ≠ x.before.machine.table.nextPid := by
  rw [forked, Bool.and_eq_true, hx.child?_eq]
  constructor
  · rintro ⟨_, hsome⟩ heq
    rw [if_pos heq] at hsome
    cases hsome
  · intro hne
    rw [if_neg hne]
    refine ⟨?_, rfl⟩
    obtain ⟨before, request, response, after⟩ := x
    have hsame (heq : after.books = before.books) : after.machine.table.nextPid =
        before.machine.table.nextPid := congrArg (·.roster.nextPid) heq
    have hc : before.machine.Coherent := hx.underway.coherent
    have hhappened : Happened before ⟨before, request, response, after⟩ := hx.happened
    cases hhappened with
    | stepped h =>
        cases h with
        | idle => exact absurd rfl hne
        | @done slot b report s hrun hb h =>
            have hc' : s.elapsed.machine.Coherent := (h.moves hrun hb).coherent hc
            have hnext := congrArg (·.roster.nextPid) (books_dispatched hc'.toScheduled)
            change s.elapsed.dispatched.machine.table.nextPid = s.machine.table.nextPid at hnext
            change s.elapsed.dispatched.machine.table.nextPid ≠ _ at hne
            obtain ⟨i, hi, hop⟩ := h.forked hc hrun hb (hnext ▸ hne)
            simp only [instruction?, hi, Option.any_some, hop, decide_true]
    | unblocked h => exact absurd (hsame (h.books_eq hc)) hne
    | stopped | stuck => exact absurd (hsame (hx.books_eq rfl)) hne

theorem Entered.child?_eq_forked (hx : x.Entered) : x.child? =
    if x.forked then some x.before.machine.table.nextPid else none := by
  rw [hx.child?_eq]
  by_cases heq : x.after.machine.table.nextPid = x.before.machine.table.nextPid
  · have hnot : ¬ x.forked = true := fun hfork => hx.forked_iff.mp hfork heq
    rw [if_pos heq, if_neg hnot]
  · rw [if_neg heq, if_pos (hx.forked_iff.mpr heq)]

/-- A process that was not there is the child. -/
theorem Entered.child?_of_new {p : Int} (hx : x.Entered) (hafter : p ∈ x.after.livePids)
    (hbefore : p ∉ x.before.livePids) : x.child? = some p := by
  rw [livePids_eq] at hafter hbefore
  obtain ⟨hp, hnext⟩ := (hx.booked.mem_pids hafter).resolve_left hbefore
  have hne : x.after.machine.table.nextPid ≠ x.before.machine.table.nextPid := by
    change x.after.books.roster.nextPid ≠ x.before.books.roster.nextPid
    omega
  rw [hx.child?_eq, if_neg hne, hp]
  rfl

/-- Whoever has ended does not come back. -/
theorem Entered.not_mem_after {p : Int} (hx : x.Entered)
    (hlt : p < x.before.machine.table.nextPid) (hnot : p ∉ x.before.livePids) :
    p ∉ x.after.livePids := by
  intro hmem
  rw [livePids_eq] at hmem hnot
  obtain hold | ⟨hp, _⟩ := hx.booked.mem_pids hmem
  · exact hnot hold
  · change p = x.before.machine.table.nextPid at hp
    omega

theorem Entered.nextPid_eq (hx : x.Entered) : x.after.machine.table.nextPid =
    x.before.machine.table.nextPid + if x.forked then 1 else 0 := by
  have hforked := hx.forked_iff
  obtain heq | ⟨heq, _⟩ := hx.booked.nextPid
  · have hnot : ¬ x.forked = true := fun hfork => hforked.mp hfork heq
    rw [if_neg hnot, Int.add_zero]
    exact heq
  · have hne : x.after.machine.table.nextPid ≠ x.before.machine.table.nextPid := by
      change x.after.books.roster.nextPid ≠ x.before.books.roster.nextPid
      omega
    rw [if_pos (hforked.mpr hne)]
    exact heq

end Moment

theorem entered_happen (hu : sim.Underway) (hs : sim.books.Sound) {q : Request}
    (hok : (∃ answer, (sim.happen q).response = .ok answer) ∨
      sim.tick + 1 < Numeral.writingBound) : (sim.happen q).Entered := by
  have hx := happened hu q
  have hbooks (ht : sim.tick + 1 < Numeral.writingBound) {fault : Fault}
      (hfault : (sim.happen q).response = .error fault) :
      (sim.happen q).after.books = sim.books := hx.books_eq hu hs ht hfault
  refine ⟨hu, hs, hx, ?_, fun hfault => ?_⟩
  · cases hresponse : (sim.happen q).response with
    | ok answer => exact hx.booked hu hresponse
    | error fault =>
        have ht := hok.resolve_left (by simp [hresponse])
        rw [hbooks ht hresponse]
        exact .same
  · exact hbooks (hok.resolve_left (by simp [hfault])) hfault

/-- Every call makes its entry if all of them return, or if there are not so many of them
that ticks cannot be written. -/
theorem entered_of_mem_history (hu : sim.Underway) (hs : sim.books.Sound)
    (hok : (∀ x ∈ history sim requests, ∃ answer, x.response = .ok answer) ∨
      sim.tick + requests.length < Numeral.writingBound) :
    ∀ x ∈ history sim requests, x.Entered := by
  induction requests generalizing sim with
  | nil => simp [history]
  | cons q rest ih =>
      simp only [history, List.forall_mem_cons, List.length_cons] at hok ⊢
      have hentered := entered_happen hu hs (hok.imp (·.1) fun ht => by omega)
      have htick : (sim.happen q).after.tick ≤ sim.tick + 1 := hentered.booked.tick_bounds.2
      exact ⟨hentered, ih (hentered.happened.underway hu) (hentered.booked.sound hs)
        (hok.imp (·.2) fun ht => by omega)⟩

/-- What the calls change adds up. -/
theorem run_eq_add_sum {f : Simulation → Int} {g : Moment → Int}
    (h : ∀ x ∈ history sim requests, f x.after = f x.before + g x) :
    f (run sim requests) = f sim + ((history sim requests).map g).sum := by
  induction requests generalizing sim with
  | nil => exact (Int.add_zero _).symm
  | cons q rest ih =>
      simp only [history, List.forall_mem_cons, List.map_cons, List.sum_cons] at h ⊢
      have hrest := ih h.2
      rw [h.1] at hrest
      change f (run (sim.happen q).after rest) = _
      rw [hrest, Int.add_assoc]
      rfl

/-- What every call keeps holds at the end. -/
theorem run_of_history {P : Simulation → Prop}
    (h : ∀ x ∈ history sim requests, P x.before → P x.after) (hp : P sim) :
    P (run sim requests) := by
  induction requests generalizing sim with
  | nil => exact hp
  | cons q rest ih =>
      simp only [history, List.forall_mem_cons] at h
      exact ih h.2 (h.1 hp)

theorem sound_run (h : ∀ x ∈ history sim requests, x.Entered) (hs : sim.books.Sound) :
    (run sim requests).books.Sound :=
  run_of_history (P := fun s => s.books.Sound)
    (fun x hx _ => (h x hx).booked.sound (h x hx).sound) hs

/-- No call takes more than one tick. -/
theorem tick_run_le (h : ∀ x ∈ history sim requests, x.Entered) :
    (run sim requests).tick ≤ sim.tick + requests.length := by
  induction requests generalizing sim with
  | nil => exact Nat.le_refl _
  | cons q rest ih =>
      rw [history, List.forall_mem_cons] at h
      have hfirst : (sim.happen q).after.tick ≤ sim.tick + 1 := h.1.booked.tick_bounds.2
      have hrest : (run sim (q :: rest)).tick ≤ (sim.happen q).after.tick + rest.length := ih h.2
      rw [List.length_cons]
      omega

section Launch

variable {settings : Settings} {loader : Loader} {program : Program}

/-- A table without processes, before the first number is drawn. -/
def emptyRoster (settings : Settings) : Roster where
  slots := List.replicate settings.tableCapacity.toNat none
  nextPid := initPid

def initIdentity : Identity :=
  ⟨initPid, none, 0, 0, 0⟩

theorem roster_launched (h : 1 ≤ settings.tableCapacity) :
    (launched settings loader program).books.roster =
      (emptyRoster settings).enter initSlot.toNat initIdentity := by
  have hempty :
      { slots := List.replicate settings.tableCapacity.toNat {} : ProcessTable }.roster.slots =
        (emptyRoster settings).slots := List.map_replicate
  refine (ProcessTable.roster_put (blockAt_initSlot (by omega)) _).trans ?_
  rw [hempty]
  rfl

theorem getElem?_launched (hcapacity : 1 ≤ settings.tableCapacity) {slot : Nat} {i : Identity}
    (h : (launched settings loader program).books.roster.slots[slot]? = some (some i)) :
    slot = 0 ∧ i = initIdentity := by
  rw [roster_launched hcapacity] at h
  obtain ⟨hslot, hi⟩ | ⟨_, hold⟩ := Roster.getElem?_set_cases h
  · exact ⟨hslot, (Option.some.inj hi).symm⟩
  · cases List.eq_of_mem_replicate (List.mem_of_getElem? hold)

theorem sum_launched (h : 1 ≤ settings.tableCapacity) (f : Identity → Int) :
    ((launched settings loader program).books.roster.processes.map f).sum = f initIdentity := by
  have hfree : (emptyRoster settings).slots[initSlot.toNat]? = some none :=
    List.getElem?_replicate_of_lt (by change 0 < _; omega)
  rw [roster_launched h, Roster.sum_enter f hfree]
  simp [emptyRoster, Roster.processes]

theorem sound_launched (h : 1 ≤ settings.tableCapacity) (loader : Loader) (program : Program) :
    (launched settings loader program).books.Sound := by
  have hnext : (launched settings loader program).books.roster.nextPid = 1 := by
    rw [roster_launched h]
    rfl
  constructor
  case numbered =>
    constructor
    case nextPid_pos => omega
    case pid_bounds =>
      intro slot i hi
      obtain ⟨_, rfl⟩ := getElem?_launched h hi
      rw [hnext]
      decide
    case slot_inj =>
      intro slot other i j hi hj _
      exact (getElem?_launched h hi).1.trans (getElem?_launched h hj).1.symm
    case slot_lt =>
      intro slot i hi
      obtain ⟨rfl, _⟩ := getElem?_launched h hi
      omega
  case nextPid_le =>
    rw [hnext]
    rfl
  case started =>
    intro slot i hi
    obtain ⟨_, rfl⟩ := getElem?_launched h hi
    exact ⟨Int.le_refl 0, Int.le_refl 0⟩
  case parents =>
    intro slot i p hi hp
    obtain ⟨_, rfl⟩ := getElem?_launched h hi
    cases hp
  case unused =>
    intro slot i hi
    obtain ⟨_, rfl⟩ := getElem?_launched h hi
    exact ⟨rfl, rfl⟩
  case terminated_nonneg => exact Int.le_refl 0
  case terminated_le => exact Int.le_refl 0
  case total_le => exact Int.le_refl 0
  case balance =>
    rw [Roster.length_processes, sum_launched h, hnext]
    rfl

end Launch

end Simulation
end Uniproc
