import Uniproc.Proofs.Reporting
import Uniproc.Proofs.Numeral
import Uniproc.Proofs.Simulation.Lineage
import Uniproc.Proofs.Simulation.Windows

/-!
What the state report tells. A numeral ends where anything else than a sign or a digit stands, so
that a line of the report can be that of one process only, and the report that of one snapshot
only, as long as no number in it looks like one that is missing. In no state that a simulation can
come to does one look so.
-/

namespace Uniproc

theorem intercalate_cons {α : Type} (separator first : List α) (l : List (List α)) :
    separator.intercalate (first :: l) = first ++ l.flatMap (separator ++ ·) := by
  induction l generalizing first with
  | nil => rw [List.intercalate_singleton, List.flatMap_nil, List.append_nil]
  | cons second rest ih =>
      rw [List.intercalate_cons_cons, ih, List.flatMap_cons, List.append_assoc, List.append_assoc]

/-- What follows starts a line, if anything follows. -/
def StartsLine (rest : List Char) : Prop :=
  ∀ c, rest.head? = some c → c = '\n'

theorem startsLine_nil : StartsLine [] := by
  intro c hc
  cases hc

theorem startsLine_newline (rest : List Char) : StartsLine ("\n".toList ++ rest) := by
  intro c hc
  cases hc
  rfl

theorem StartsLine.stops {rest : List Char} (h : StartsLine rest) : Numeral.Stops rest := by
  intro c hc
  rw [h c hc]
  rfl

/-- The number is missing or not negative. -/
def Unsigned (n? : Option Int) : Prop :=
  ∀ n, n? = some n → 0 ≤ n

/-- A number that is not negative is not like one that is missing. -/
theorem getD_missing_inj {a b : Option Int} (ha : Unsigned a) (hb : Unsigned b)
    (h : a.getD missing = b.getD missing) : a = b := by
  cases a with
  | none =>
      cases b with
      | none => rfl
      | some n =>
          have hn := hb n rfl
          change -1 = n at h
          omega
  | some m =>
      have hm := ha m rfl
      cases b with
      | none =>
          change m = -1 at h
          omega
      | some n => exact congrArg some h

/-- No state is written like the beginning of another one. -/
theorem ProcessState.capitals_append_inj {a b : ProcessState} {s t : List Char}
    (h : a.capitals.toList ++ s = b.capitals.toList ++ t) : a = b ∧ s = t := by
  cases a <;> cases b <;> simp [capitals] at h ⊢
  all_goals exact h

namespace ProcessView

/-- The line of a process whose numbers are short enough. -/
def row (v : ProcessView) : List Char :=
  "PCB ".toList ++ (toString v.slot).toList ++
    ": PID=".toList ++ (toString v.pid).toList ++
    ", ParentPID=".toList ++ (toString (v.parent.getD missing)).toList ++
    ", PC=".toList ++ (toString v.programCounter).toList ++
    ", Value=".toList ++ (toString v.value).toList ++
    ", ".toList ++ "State=".toList ++ v.state.capitals.toList ++
    ", Priority=".toList ++ (toString v.priority).toList ++
    ", StartTime=".toList ++ (toString v.startTime).toList ++
    ", TimeUsed=".toList ++ (toString v.timeUsed).toList

variable {v w : ProcessView} {s t : List Char}

theorem toList_line {line : String} (h : v.line = .ok line) : line.toList = v.row := by
  simp only [ProcessView.line, bind_text_eq_ok_iff] at h
  obtain ⟨_, _, _, _, _, _, _, _, hline⟩ := h
  have hself (text : String) : toString text = text := rfl
  obtain rfl := Except.ok.inj hline
  unfold row
  simp only [hself, String.toList_append, List.append_assoc]

/-- A text starts with the line of one process only. -/
theorem row_append_inj (hv : Unsigned v.parent) (hw : Unsigned w.parent) (hs : StartsLine s)
    (ht : StartsLine t) (h : v.row ++ s = w.row ++ t) : v = w ∧ s = t := by
  unfold row at h
  simp only [List.append_assoc] at h
  have h := List.append_cancel_left h
  obtain ⟨hslot, h⟩ := Numeral.toString_label_inj rfl h
  obtain ⟨hpid, h⟩ := Numeral.toString_label_inj rfl h
  obtain ⟨hparent, h⟩ := Numeral.toString_label_inj rfl h
  obtain ⟨hcounter, h⟩ := Numeral.toString_label_inj rfl h
  obtain ⟨hvalue, h⟩ := Numeral.toString_label_inj rfl h
  obtain ⟨hstate, h⟩ := ProcessState.capitals_append_inj (List.append_cancel_left h)
  have h := List.append_cancel_left h
  obtain ⟨hpriority, h⟩ := Numeral.toString_label_inj rfl h
  obtain ⟨hstart, h⟩ := Numeral.toString_label_inj rfl h
  obtain ⟨hused, h⟩ := Numeral.toString_append_inj hs.stops ht.stops h
  have hparent := getD_missing_inj hv hw hparent
  refine ⟨?_, h⟩
  cases v
  cases w
  rw [ProcessView.mk.injEq]
  exact ⟨hslot, hpid, hparent, hcounter, hvalue, hstate, hpriority, hstart, hused⟩

/-- The lines of processes, each behind a line end. -/
def rows (processes : List ProcessView) : List Char :=
  processes.flatMap fun v => "\n".toList ++ v.row

theorem rows_cons (v : ProcessView) (rest : List ProcessView) :
    rows (v :: rest) = "\n".toList ++ (v.row ++ rows rest) := by
  rw [rows, List.flatMap_cons, List.append_assoc]
  rfl

theorem startsLine_rows (processes : List ProcessView) : StartsLine (rows processes) := by
  cases processes with
  | nil => exact startsLine_nil
  | cons v rest =>
      rw [rows_cons]
      exact startsLine_newline _

theorem rows_inj {l r : List ProcessView} (hl : ∀ v ∈ l, Unsigned v.parent)
    (hr : ∀ v ∈ r, Unsigned v.parent) (h : rows l = rows r) : l = r := by
  induction l generalizing r with
  | nil =>
      cases r with
      | nil => rfl
      | cons w r => cases h
  | cons v l ih =>
      cases r with
      | nil => cases h
      | cons w r =>
          rw [List.forall_mem_cons] at hl hr
          rw [rows_cons, rows_cons] at h
          obtain ⟨hrow, hrest⟩ := row_append_inj hl.1 hr.1 (startsLine_rows l) (startsLine_rows r)
            (List.append_cancel_left h)
          rw [hrow, ih hl.2 hr.2 hrest]

end ProcessView

namespace Snapshot

variable {s t : Snapshot}

/-- No number in the report is like one that is missing. -/
structure Unmistakable (s : Snapshot) : Prop where
  running : Unsigned s.running
  parents : ∀ v ∈ s.processes, Unsigned v.parent

/-- The slots of a queue, each behind a blank. -/
def slots (queue : List Int) : List Char :=
  queue.flatMap fun slot => " ".toList ++ (toString slot).toList

theorem toList_queueLine {title line : String} {queue : List Int}
    (h : queueLine title queue = .ok line) : line.toList = title.toList ++ slots queue := by
  obtain ⟨texts, htexts, h⟩ := bind_eq_ok_iff.mp h
  have htexts : texts.map String.toList = queue.map fun slot => (toString slot).toList :=
    map_eq_map_of_mapM (fun _ _ htext => by rw [Numeral.eq_toString_of_text htext]) htexts
  obtain rfl := Except.ok.inj h
  rw [String.toList_intercalate, List.map_cons, intercalate_cons, htexts, List.flatMap_map]
  rfl

theorem slots_cons_append (slot : Int) (queue : List Int) (rest : List Char) :
    slots (slot :: queue) ++ rest =
      " ".toList ++ ((toString slot).toList ++ (slots queue ++ rest)) := by
  simp only [slots, List.flatMap_cons, List.append_assoc]

theorem stops_slots_append (queue : List Int) {rest : List Char} (h : StartsLine rest) :
    Numeral.Stops (slots queue ++ rest) := by
  cases queue with
  | nil => exact h.stops
  | cons slot queue =>
      intro c hc
      cases hc
      rfl

/-- A queue goes on to the end of its line. -/
theorem not_startsLine_slots (slot : Int) (queue : List Int) (rest : List Char) :
    ¬ StartsLine (slots (slot :: queue) ++ rest) := by
  intro h
  exact absurd (h ' ' rfl) (by decide)

/-- A text starts with the slots of one queue only. -/
theorem slots_append_inj {q r : List Int} {x y : List Char} (hx : StartsLine x)
    (hy : StartsLine y) (h : slots q ++ x = slots r ++ y) : q = r ∧ x = y := by
  induction q generalizing r with
  | nil =>
      cases r with
      | nil => exact ⟨rfl, h⟩
      | cons m r =>
          change x = _ at h
          exact absurd (h ▸ hx) (not_startsLine_slots m r y)
  | cons n q ih =>
      cases r with
      | nil =>
          change _ = y at h
          exact absurd (h ▸ hy) (not_startsLine_slots n q x)
      | cons m r =>
          rw [slots_cons_append, slots_cons_append] at h
          obtain ⟨rfl, hrest⟩ := Numeral.toString_append_inj (stops_slots_append q hx)
            (stops_slots_append r hy) (List.append_cancel_left h)
          exact (ih hrest).imp_left (congrArg _)

/-- The report of a snapshot whose numbers are short enough. -/
def report (s : Snapshot) : List Char :=
  "Current system state at time ".toList ++ (toString s.tick).toList ++ ":".toList ++
    "\n".toList ++ "Running process: ".toList ++ (toString (s.running.getD missing)).toList ++
    "\n".toList ++ "Ready queue:".toList ++ slots s.ready ++
    "\n".toList ++ "Blocked queue:".toList ++ slots s.blocked ++
    ProcessView.rows s.processes

theorem toList_text {text : String} (h : s.text = .ok text) : text.toList = s.report := by
  obtain ⟨lines, hlines, rfl⟩ := map_eq_ok_iff.mp h
  simp only [Snapshot.lines, bind_text_eq_ok_iff] at hlines
  obtain ⟨_, _, hlines⟩ := hlines
  obtain ⟨ready, hready, hlines⟩ := bind_eq_ok_iff.mp hlines
  obtain ⟨blocked, hblocked, hlines⟩ := bind_eq_ok_iff.mp hlines
  obtain ⟨processes, hprocesses, hlines⟩ := bind_eq_ok_iff.mp hlines
  have hrows : processes.map String.toList = s.processes.map ProcessView.row :=
    map_eq_map_of_mapM (fun _ _ => ProcessView.toList_line) hprocesses
  have hself (text : String) : toString text = text := rfl
  simp only [List.cons_append, List.nil_append] at hlines
  obtain rfl := Except.ok.inj hlines
  unfold report
  rw [String.toList_intercalate, List.map_cons, intercalate_cons]
  simp only [List.map_cons, hrows, List.flatMap_cons, List.flatMap_map, toList_queueLine hready,
    toList_queueLine hblocked, ProcessView.rows, hself, String.toList_append, List.append_assoc]

theorem report_inj (hs : s.Unmistakable) (ht : t.Unmistakable)
    (h : s.report = t.report) : s = t := by
  unfold report at h
  simp only [List.append_assoc] at h
  obtain ⟨htick, h⟩ := Numeral.toString_label_inj rfl (List.append_cancel_left h)
  have h := List.append_cancel_left (List.append_cancel_left h)
  obtain ⟨hrunning, h⟩ := Numeral.toString_label_inj rfl h
  obtain ⟨hready, h⟩ := slots_append_inj (startsLine_newline _) (startsLine_newline _)
    (List.append_cancel_left h)
  have h := List.append_cancel_left (List.append_cancel_left h)
  obtain ⟨hblocked, h⟩ := slots_append_inj (ProcessView.startsLine_rows _)
    (ProcessView.startsLine_rows _) h
  have hprocesses := ProcessView.rows_inj hs.parents ht.parents h
  have hrunning := getD_missing_inj hs.running ht.running hrunning
  cases s
  cases t
  rw [Snapshot.mk.injEq]
  exact ⟨htick, hrunning, hready, hblocked, hprocesses⟩

end Snapshot

namespace Simulation

variable {sim : Simulation} {settings : Settings} {loader : Loader}

/-- A state that a simulation can come to is one before it has been booted or one of a run. -/
theorem made_or_run (h : sim.Reachable) :
    (∃ settings loader, ofLoader settings loader = .ok sim) ∨
      ∃ settings loader program requests, 1 ≤ settings.tableCapacity ∧
        sim = run (launched settings loader program) requests := by
  induction h with
  | made h => exact .inl ⟨_, _, h⟩
  | booted _ program ih =>
      obtain ⟨settings, loader, hmade⟩ | ⟨settings, loader, first, requests, hcapacity, rfl⟩ := ih
      · obtain ⟨hcapacity, hboot⟩ := stateOf_boot_of_made hmade program
        exact .inr ⟨settings, loader, program, [], hcapacity, hboot⟩
      · have hbooted := (underway_run (underway_launched hcapacity loader first) requests).booted
        rw [stateOf_boot_of_booted hbooted]
        exact .inr ⟨settings, loader, first, requests, hcapacity, rfl⟩
  | called _ q ih =>
      obtain ⟨settings, loader, hmade⟩ | ⟨settings, loader, program, requests, hcapacity, rfl⟩ := ih
      · rw [after_of_unbooted (timely_of_made hmade).2]
        exact .inl ⟨settings, loader, hmade⟩
      · refine .inr ⟨settings, loader, program, requests ++ [q], hcapacity, ?_⟩
        rw [run, run, List.foldl_append]
        rfl

/-- Nobody is in the table of a simulation that has not been booted. -/
theorem unmistakable_of_made (h : ofLoader settings loader = .ok sim) :
    sim.snapshot.Unmistakable := by
  unfold ofLoader Machine.ofCapacity ProcessTable.ofCapacity at h
  split at h
  · cases h
  · cases h
    constructor
    case running =>
      intro slot hrun
      cases hrun
    case parents =>
      intro v hv
      obtain ⟨slot, b, ⟨hb, hlive⟩, rfl⟩ := mem_snapshot_processes hv
      rw [blockAt_replicate hb] at hlive
      cases hlive

theorem unmistakable_run (h : 1 ≤ settings.tableCapacity) (loader : Loader) (program : Program)
    (requests : List Request) :
    (run (launched settings loader program) requests).snapshot.Unmistakable := by
  have hunderway := underway_launched h loader program
  have hnumbered := (sound_launched h loader program).numbered
  obtain ⟨hlineage, _⟩ :=
    lineage_run hunderway hnumbered (lineage_launched h loader program) requests
  constructor
  case running =>
    intro slot hrun
    have hscheduled := (underway_run hunderway requests).coherent.toScheduled
    obtain ⟨b, hb, _⟩ := hscheduled.exists_running hrun
    exact (ProcessTable.bounds_of_blockAt hb).1
  case parents =>
    intro v hv pid hparent
    obtain ⟨slot, b, hlive, rfl⟩ := mem_snapshot_processes hv
    change b.identity.parent = some pid at hparent
    obtain hblank | hknown := hlineage.known hlive.1
    · rw [hblank] at hparent
      cases hparent
    · by_cases hinit : b.identity = initIdentity
      · rw [hinit] at hparent
        cases hparent
      · obtain ⟨j, ⟨hj, hchild⟩, _⟩ := hlineage.parents hknown hinit
        rw [hparent] at hchild
        cases hchild
        exact (hlineage.pid_bounds hj).1

theorem Reachable.unmistakable (h : sim.Reachable) : sim.snapshot.Unmistakable := by
  obtain ⟨settings, loader, hmade⟩ | ⟨settings, loader, program, requests, hcapacity, rfl⟩ :=
    made_or_run h
  · exact unmistakable_of_made hmade
  · exact unmistakable_run hcapacity loader program requests

end Simulation

namespace Snapshot

open Simulation

/-- Two snapshots in which no number is like a missing one are equal if their reports are. In
every state that a simulation can come to the snapshot is such a one. -/
theorem eq_of_text_eq :
    (∀ {s t : Snapshot} {text : String}, s.Unmistakable → t.Unmistakable → s.text = .ok text →
      t.text = .ok text → s = t) ∧
    ∀ {sim : Simulation}, sim.Reachable → sim.snapshot.Unmistakable := by
  constructor
  · intro s t text hs ht htext htext'
    exact report_inj hs ht ((toList_text htext).symm.trans (toList_text htext'))
  · intro sim h
    exact h.unmistakable

/-- The report when the slot of a child that has ended is used again. -/
def refillReport : String :=
  "Current system state at time 4:\nRunning process: 0\nReady queue: 1\nBlocked queue:\n" ++
    "PCB 0: PID=0, ParentPID=-1, PC=3, Value=0, State=RUNNING, Priority=0, StartTime=0, " ++
    "TimeUsed=0\nPCB 1: PID=2, ParentPID=0, PC=4, Value=0, State=READY, Priority=0, " ++
    "StartTime=3, TimeUsed=0"

/-- Where the calls come to, with these settings. -/
def refillEnd (settings : Settings) : Simulation :=
  run (launched settings {} refillDemo) refillDemoCalls

/-- Two slots are all in use and ten are not, which no report shows. -/
theorem eq_of_text_eq_refill :
    ((refillEnd {}).Reachable ∧ (refillEnd {}).snapshot.Unmistakable ∧
      (refillEnd {}).snapshot.text = .ok refillReport) ∧
    ((refillEnd { tableCapacity := 2 }).Reachable ∧
      (refillEnd { tableCapacity := 2 }).snapshot.Unmistakable ∧
      (refillEnd { tableCapacity := 2 }).snapshot.text = .ok refillReport) ∧
    (refillEnd { tableCapacity := 2 }).snapshot = (refillEnd {}).snapshot := by
  have hreachable (settings : Settings) (h : 1 ≤ settings.tableCapacity) :
      (refillEnd settings).Reachable :=
    (reachable_launched h {} refillDemo).run refillDemoCalls
  have hten := hreachable {} (by decide)
  have htwo := hreachable { tableCapacity := 2 } (by decide)
  have htext : (refillEnd {}).snapshot.text = .ok refillReport := by decide +kernel
  have htext' : (refillEnd { tableCapacity := 2 }).snapshot.text = .ok refillReport := by
    decide +kernel
  exact ⟨⟨hten, eq_of_text_eq.2 hten, htext⟩, ⟨htwo, eq_of_text_eq.2 htwo, htext'⟩,
    eq_of_text_eq.1 (eq_of_text_eq.2 htwo) (eq_of_text_eq.2 hten) htext' htext⟩

end Snapshot

end Uniproc
