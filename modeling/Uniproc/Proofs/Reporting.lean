import Mathlib.Algebra.Order.Group.Nat
import Mathlib.Tactic.Linarith
import Uniproc.Proofs.Simulation.Stopping

/-!
When a report can be given. The state report is a text if all its numbers can be written,
of which only the counters and the registers can be too long; the mean turnaround is a
number of 64 bits as long as the clock is.
-/

namespace Uniproc

theorem exists_mapM_ok_iff {ε α β : Type} {f : α → Except ε β} {l : List α} :
    (∃ results, l.mapM f = .ok results) ↔ ∀ a ∈ l, ∃ b, f a = .ok b := by
  induction l with
  | nil => exact iff_of_true ⟨[], rfl⟩ (by simp)
  | cons a rest ih =>
      rw [List.forall_mem_cons, ← ih, List.mapM_cons]
      cases hfirst : f a with
      | error e => simp [bind, Except.bind]
      | ok b =>
          cases hrest : rest.mapM f with
          | error e => simp [bind, Except.bind]
          | ok results => simp [bind, Except.bind, pure, Except.pure]

theorem bind_eq_ok_iff {ε α β : Type} {x : Except ε α} {f : α → Except ε β} {r : β} :
    (x >>= f) = .ok r ↔ ∃ a, x = .ok a ∧ f a = .ok r := by
  cases x with
  | error e => simp [bind, Except.bind]
  | ok a => simp [bind, Except.bind]

theorem map_eq_ok_iff {ε α β : Type} {x : Except ε α} {f : α → β} {r : β} :
    f <$> x = .ok r ↔ ∃ a, x = .ok a ∧ f a = r := by
  cases x with
  | error e => simp [Functor.map, Except.map]
  | ok a => simp [Functor.map, Except.map]

/-- What is known of each result is known of all of them. -/
theorem map_eq_map_of_mapM {ε α β γ : Type} {f : α → Except ε β} {view : β → γ} {g : α → γ}
    (hf : ∀ a b, f a = .ok b → view b = g a) {l : List α} {results : List β}
    (h : l.mapM f = .ok results) : results.map view = l.map g := by
  induction l generalizing results with
  | nil =>
      cases h
      rfl
  | cons a rest ih =>
      rw [List.mapM_cons] at h
      obtain ⟨b, hb, h⟩ := bind_eq_ok_iff.mp h
      obtain ⟨others, hothers, h⟩ := bind_eq_ok_iff.mp h
      cases h
      rw [List.map_cons, hf a b hb, ih hothers, List.map_cons]

theorem exists_bind_ok_iff {ε α β : Type} {x : Except ε α} {f : α → Except ε β} :
    (∃ r, (x >>= f) = .ok r) ↔ ∃ a, x = .ok a ∧ ∃ r, f a = .ok r := by
  simp only [bind_eq_ok_iff]
  rw [exists_comm]
  simp only [exists_and_left]

theorem bind_text_eq_ok_iff {α : Type} {n : Int} {f : String → Except Numeral.Limit α} {r : α} :
    (Numeral.text n >>= f) = .ok r ↔ Numeral.isWritable n = true ∧ f (toString n) = .ok r := by
  by_cases h : Numeral.isWritable n = true
  · rw [Numeral.text_of_isWritable h]
    exact (and_iff_right h).symm
  · rw [Numeral.text_of_not_isWritable h]
    exact iff_of_false (by simp [bind, Except.bind]) fun hboth => h hboth.1

theorem exists_bind_text_ok_iff {α : Type} {n : Int} {f : String → Except Numeral.Limit α} :
    (∃ r, (Numeral.text n >>= f) = .ok r) ↔
      Numeral.isWritable n = true ∧ ∃ r, f (toString n) = .ok r := by
  simp only [bind_text_eq_ok_iff, exists_and_left]

theorem exists_mapM_text_ok_iff {numbers : List Int} :
    (∃ texts, numbers.mapM Numeral.text = .ok texts) ↔ Writable numbers := by
  rw [exists_mapM_ok_iff]
  refine forall₂_congr fun n _ => ?_
  by_cases h : Numeral.isWritable n = true
  · rw [Numeral.text_of_isWritable h]
    exact iff_of_true ⟨_, rfl⟩ h
  · rw [Numeral.text_of_not_isWritable h]
    exact iff_of_false (by simp) h

/-- The numbers in the line of a process. -/
def ProcessView.numbers (v : ProcessView) : List Int :=
  [v.slot, v.pid, v.parent.getD missing, v.programCounter, v.value, v.priority, v.startTime,
    v.timeUsed]

theorem ProcessView.exists_line_ok_iff {v : ProcessView} :
    (∃ line, v.line = .ok line) ↔ Writable v.numbers := by
  have hpure (text : String) : ∃ r, (pure text : Except Numeral.Limit String) = .ok r := ⟨text, rfl⟩
  simp only [line, exists_bind_text_ok_iff, hpure, numbers, writable_cons, writable_nil, and_true]

namespace Snapshot

/-- The numbers in the report, those of the processes apart. -/
def numbers (s : Snapshot) : List Int :=
  [s.tick, s.running.getD missing] ++ s.ready ++ s.blocked

theorem exists_queueLine_ok_iff {title : String} {queue : List Int} :
    (∃ line, queueLine title queue = .ok line) ↔ Writable queue := by
  rw [queueLine, exists_bind_ok_iff, ← exists_mapM_text_ok_iff]
  exact exists_congr fun texts => and_iff_left ⟨_, rfl⟩

theorem exists_text_ok_iff {s : Snapshot} : (∃ text, s.text = .ok text) ↔
    Writable s.numbers ∧ ∀ v ∈ s.processes, Writable v.numbers := by
  have hlines : (∃ text, s.text = .ok text) ↔ ∃ lines, s.lines = .ok lines := by
    rw [text]
    cases s.lines with
    | ok lines => exact iff_of_true ⟨_, rfl⟩ ⟨_, rfl⟩
    | error limit => exact iff_of_false (by simp [Functor.map, Except.map]) (by simp)
  have hprocesses : (∃ lines, s.processes.mapM ProcessView.line = .ok lines) ↔
      ∀ v ∈ s.processes, Writable v.numbers := by
    rw [exists_mapM_ok_iff]
    exact forall₂_congr fun v _ => ProcessView.exists_line_ok_iff
  have hpure (lines : List String) :
      ∃ r, (pure lines : Except Numeral.Limit (List String)) = .ok r := ⟨lines, rfl⟩
  rw [hlines]
  simp only [lines, exists_bind_text_ok_iff, exists_bind_ok_iff, hpure, and_true, exists_and_right,
    exists_queueLine_ok_iff, hprocesses]
  simp only [numbers, writable_append, writable_cons, writable_nil, and_true, and_assoc]

end Snapshot

namespace Double

/-- A quotient below `2 ^ 1000` is far below the greatest number of 64 bits. -/
theorem exponentOf_le {n d k : Nat} (hk : k ≤ 1000) (hn : n ≠ 0) (hle : n ≤ d * 2 ^ k) :
    exponentOf n d ≤ 949 := by
  have hd : d < 2 ^ (d.log2 + 1) := Nat.lt_log2_self
  have hlog : n.log2 < d.log2 + 1 + k := by
    rw [Nat.log2_lt hn, Nat.pow_add]
    exact Nat.lt_of_le_of_lt hle (Nat.mul_lt_mul_of_pos_right hd (Nat.two_pow_pos k))
  have hfirst : (n.log2 : Int) - (d.log2 : Int) - 53 ≤ 948 := by omega
  simp only [exponentOf, leastExponent]
  split <;> omega

theorem ofRatio_ne_infinite {n d k : Nat} (hk : k ≤ 1000) (hle : n ≤ d * 2 ^ k)
    (negative sign : Bool) : ofRatio negative n d ≠ .infinite sign := by
  unfold ofRatio
  split
  · simp
  · next hn =>
    have hexponent := exponentOf_le hk hn hle
    dsimp only
    split <;> rw [if_neg (by unfold greatestExponent; omega)] <;> simp

theorem exists_quotient? {a b : Int} {k : Nat} (hk : k ≤ 1000)
    (hle : a.natAbs ≤ b.natAbs * 2 ^ k) : ∃ x, quotient? a b = some x := by
  unfold quotient?
  have hfinite := ofRatio_ne_infinite hk hle ((decide (a < 0)) != (decide (b < 0)))
  split
  · next sign hinfinite => exact absurd hinfinite (hfinite sign)
  · exact ⟨_, rfl⟩

end Double

theorem ten_pow_le (n : Nat) : 10 ^ (3 * n) ≤ 2 ^ (10 * n) := by
  rw [Nat.pow_mul, Nat.pow_mul]
  exact Nat.pow_le_pow_left (by decide) n

/-- So many ticks can pass before a mean turnaround may be too large for 64 bits. -/
def tickLimit : Nat :=
  10 ^ 300

theorem lt_tickLimit_of_lt_pow {n k : Nat} (hk : k ≤ 300) (h : n < 10 ^ k) : n < tickLimit := by
  have hpow {m : Nat} (hm : k ≤ m) : n < 10 ^ m :=
    Nat.lt_of_lt_of_le h (Nat.pow_le_pow_right (by decide) hm)
  unfold tickLimit
  exact hpow hk

theorem one_lt_tickLimit : 1 < tickLimit :=
  lt_tickLimit_of_lt_pow (k := 1) (by decide) (by decide)

theorem tickLimit_le_writingBound : tickLimit ≤ Numeral.writingBound := by
  unfold tickLimit Numeral.writingBound
  apply Nat.pow_le_pow_right <;> decide

theorem tickLimit_le : tickLimit ≤ 2 ^ (10 * 100) := by
  have hlimit : 300 = 3 * 100 := rfl
  unfold tickLimit
  rw [hlimit]
  exact ten_pow_le 100

namespace Simulation

variable {sim : Simulation}

/-- The mean turnaround can be reported. -/
theorem average_eq_ok (hs : sim.books.Sound) (ht : sim.tick < tickLimit) :
    ∃ x, sim.average = .ok x := by
  have hterminated := hs.terminated_nonneg
  have hle := hs.terminated_le
  have htotal := hs.total_le
  have htick : sim.tick ≤ 2 ^ (10 * 100) := ht.le.trans tickLimit_le
  change 0 ≤ sim.turnaround.terminated at hterminated
  change sim.turnaround.terminated ≤ sim.turnaround.total at hle
  change sim.turnaround.total ≤ sim.turnaround.terminated * (sim.tick : Int) at htotal
  have hratio : sim.turnaround.total.natAbs ≤
      sim.turnaround.terminated.natAbs * 2 ^ (10 * 100) := by
    have hnat : sim.turnaround.total.natAbs ≤ sim.turnaround.terminated.natAbs * sim.tick := by
      zify
      rw [abs_of_nonneg hterminated, abs_of_nonneg (hterminated.trans hle)]
      exact htotal
    exact hnat.trans (Nat.mul_le_mul_left _ htick)
  obtain ⟨x, hx⟩ := Double.exists_quotient? (by decide) hratio
  unfold average Turnaround.average
  split
  · exact ⟨_, rfl⟩
  · exact ⟨x, by rw [hx]⟩

theorem mem_snapshot_processes {v : ProcessView} (h : v ∈ sim.snapshot.processes) :
    ∃ slot b, sim.machine.table.Live slot b ∧ v = viewBlock slot.toNat b := by
  obtain ⟨⟨b, k⟩, hmem, hview⟩ := List.mem_filterMap.mp h
  have hat : sim.machine.table.slots[k]? = some b := by
    simpa using List.mem_zipIdx_iff_getElem?.mp hmem
  dsimp only at hview
  split at hview
  · cases hview
  · next hfree =>
    cases hview
    refine ⟨k, b, ⟨?_, by simpa using hfree⟩, rfl⟩
    simpa only [ProcessTable.blockAt, Int.natCast_nonneg, if_true, Int.toNat_natCast] using hat

theorem isWritable_missing : Numeral.isWritable missing = true := by
  rw [Numeral.isWritable, decide_eq_true_eq]
  exact Numeral.lt_writingBound (by decide)

theorem writable_places (h : sim.Steady) (ht : sim.tick < Numeral.writingBound) :
    Writable sim.machine.scheduler.places := by
  intro slot hmem
  obtain ⟨b, hlive⟩ := (h.coherent.mem_places_iff slot).mp hmem
  exact writable_live h.sound hlive ht

/-- Only a counter or a register keeps the state from being told. -/
theorem exists_snapshot_text_ok_iff (h : sim.Steady) (ht : sim.tick + 1 < Numeral.writingBound) :
    (∃ text, sim.snapshot.text = .ok text) ↔
      ∀ v ∈ sim.snapshot.processes, Writable [v.programCounter, v.value] := by
  have hbelow {n : Int} (h0 : 0 ≤ n) (hle : n ≤ (sim.tick : Int) + 1) :
      Numeral.isWritable n = true := Numeral.isWritable_of_bounds h0 (by omega)
  have hplaces := writable_places h (by omega)
  have hnumbers : Writable sim.snapshot.numbers := by
    simp only [Scheduler.places, writable_append] at hplaces
    have hrunning : Numeral.isWritable (sim.machine.scheduler.running.getD missing) = true := by
      cases hrun : sim.machine.scheduler.running with
      | none => exact isWritable_missing
      | some slot => exact hplaces.1.1 slot (by rw [hrun]; exact List.mem_singleton.mpr rfl)
    simp only [Snapshot.numbers, snapshot, writable_append, writable_cons, writable_nil, and_true]
    exact ⟨⟨⟨hbelow (by omega) (by omega), hrunning⟩, hplaces.1.2⟩, hplaces.2⟩
  rw [Snapshot.exists_text_ok_iff, and_iff_right hnumbers]
  refine forall₂_congr fun v hv => ?_
  obtain ⟨slot, b, hlive, rfl⟩ := mem_snapshot_processes hv
  have hentry := ProcessTable.getElem?_roster_of_live hlive
  have hslot := slot_bounds h.sound hlive
  have hnext : sim.machine.table.nextPid ≤ (sim.tick : Int) + 1 := h.sound.nextPid_le
  have hpid : 0 ≤ b.pid ∧ b.pid < sim.machine.table.nextPid := h.sound.numbered.pid_bounds hentry
  have hstart : 0 ≤ b.startTime ∧ b.startTime ≤ sim.tick := h.sound.started hentry
  have hunused : b.priority = 0 ∧ b.timeUsed = 0 := h.sound.unused hentry
  have hparent : Numeral.isWritable (b.parent.getD missing) = true := by
    cases hb : b.parent with
    | none => exact isWritable_missing
    | some p =>
        have hbounds : 0 ≤ p ∧ p < sim.machine.table.nextPid := h.sound.parents hentry hb
        rw [Option.getD_some]
        exact hbelow hbounds.1 (by omega)
  have hzero : Numeral.isWritable 0 = true := hbelow (by omega) (by omega)
  have hat : Numeral.isWritable (slot.toNat : Int) = true := hbelow (by omega) (by omega)
  have hnumber : Numeral.isWritable b.pid = true := hbelow hpid.1 (by omega)
  have hstarted : Numeral.isWritable b.startTime = true := hbelow hstart.1 (by omega)
  simp only [ProcessView.numbers, viewBlock, writable_cons, writable_nil, hat, hnumber, hparent,
    hunused.1, hunused.2, hzero, hstarted, and_true, true_and]

end Simulation

end Uniproc
