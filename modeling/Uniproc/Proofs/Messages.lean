import Uniproc.Proofs.Numeral
import Uniproc.Proofs.Reporting

/-!
How messages begin. Those of a step begin with the time, unless there was nothing to do; no
other text begins like the turnaround report.
-/

namespace Uniproc

/-- The text begins with this character. -/
def Begins (c : Char) (text : String) : Prop :=
  text.toList.head? = some c

theorem Begins.append {c : Char} {text : String} (h : Begins c text) (rest : String) :
    Begins c (text ++ rest) := by
  rw [Begins, String.toList_append, List.head?_append, h]
  rfl

namespace Simulation

open Uniproc.Action

theorem begins_time : Begins 'T' "Time: " := rfl

theorem yields_heading (tick : Nat) (slot : Int) :
    Yields (write (heading tick slot) : Action Simulation String) (Begins 'T') := by
  apply yields_write
  intro text htext
  obtain ⟨n, -, htext⟩ := bind_eq_ok_iff.mp htext
  obtain ⟨m, -, htext⟩ := bind_eq_ok_iff.mp htext
  cases htext
  exact (((begins_time.append n).append _).append m)

theorem yields_fork (slot offset : Int) : Yields (fork slot offset) (Begins 'T') := by
  unfold fork
  refine yields_bind _ fun sim => yields_bind _ fun parent => ?_
  split
  · refine yields_bind _ fun _ => (yields_heading _ _).bind fun heading hheading => yields_pure ?_
    exact (hheading.append _).append _
  · refine yields_bind _ fun pid => yields_bind _ fun _ => yields_bind _ fun _ =>
      yields_bind _ fun _ => yields_bind _ fun tick => yields_bind _ fun child =>
      yields_bind _ fun parent => yields_pure ?_
    exact (((((begins_time.append tick).append _).append child).append _).append parent).append _

theorem yields_replace (files : FileView) (slot : Int) (path : String) :
    Yields (replace files slot path) (Begins 'T') := by
  unfold replace
  refine yields_bind _ fun sim => yields_bind _ fun _ => ?_
  split
  · dsimp only
    split
    all_goals
      refine yields_bind _ fun _ => yields_bind _ fun _ => ?_
      refine (yields_heading _ _).bind fun heading hheading => yields_pure ?_
      exact (hheading.append _).append _
  · intro s a t h
    cases h
  · refine yields_bind _ fun _ => yields_bind _ fun _ => ?_
    exact (yields_heading _ _).bind fun heading hheading => yields_pure (hheading.append _)

theorem yields_carryOut (files : FileView) (slot : Int) (i : Instruction) {plain : String}
    (h : Begins 'T' plain) : Yields (carryOut files slot i plain) (Begins 'T') := by
  unfold carryOut
  cases i.opcode with
  | set | add | subtract | halt => exact yields_bind _ fun _ => yields_pure h
  | block =>
      exact yields_bind _ fun _ => yields_bind _ fun _ => yields_bind _ fun _ => yields_pure h
  | fork => exact yields_fork slot i.number
  | replace => exact yields_replace files slot i.path

theorem yields_execute (files : FileView) (slot : Int) (i : Instruction) :
    Yields (execute files slot i) (Begins 'T') := by
  unfold execute
  refine yields_bind _ fun sim => (yields_heading _ _).bind fun heading hheading => ?_
  refine yields_bind _ fun text => ?_
  have hplain : Begins 'T' s!"{heading} executed instruction {text}" :=
    (hheading.append _).append text
  exact (yields_carryOut files slot i hplain).bind fun message hmessage =>
    yields_bind _ fun _ => yields_pure hmessage

theorem yields_runSlot (files : FileView) (slot : Int) :
    Yields (runSlot files slot) fun report => Begins 'T' report.message := by
  unfold runSlot
  refine yields_bind _ fun sim => yields_bind _ fun b => yields_bind _ fun next => ?_
  cases next with
  | some i =>
      exact yields_bind _ fun _ => (yields_execute files slot i).bind fun message hmessage =>
        yields_pure hmessage
  | none =>
      refine yields_bind _ fun _ => (yields_heading _ _).bind fun heading hheading => ?_
      exact yields_bind _ fun _ => yields_pure (hheading.append _)

/-- The message of a step tells the time, unless it tells that there was nothing to do. -/
theorem yields_step (files : FileView) : Yields (step files) fun report =>
    Begins 'T' report.message ∨ report.message = noProcessRunning := by
  unfold step
  refine yields_bind _ fun _ => yields_bind _ fun sim => ?_
  split
  · exact yields_bind _ fun _ => yields_bind _ fun _ => yields_bind _ fun _ =>
      yields_pure (.inr rfl)
  · exact (yields_runSlot files _).bind fun report hreport =>
      yields_bind _ fun _ => yields_bind _ fun _ => yields_pure (.inl hreport)

end Simulation

theorem begins_snapshot_text {snapshot : Snapshot} {text : String}
    (h : snapshot.text = .ok text) : Begins 'C' text := by
  obtain ⟨lines, hlines, rfl⟩ := map_eq_ok_iff.mp h
  obtain ⟨tick, -, hlines⟩ := bind_eq_ok_iff.mp hlines
  obtain ⟨running, -, hlines⟩ := bind_eq_ok_iff.mp hlines
  obtain ⟨ready, -, hlines⟩ := bind_eq_ok_iff.mp hlines
  obtain ⟨blocked, -, hlines⟩ := bind_eq_ok_iff.mp hlines
  obtain ⟨processes, -, hlines⟩ := bind_eq_ok_iff.mp hlines
  cases hlines
  rw [Begins, String.toList_intercalate]
  simp [List.intercalate_cons_cons, toString]

def isReport (text : String) : Bool :=
  "Average turnaround time: ".toList.isPrefixOf text.toList

theorem begins_of_isReport {text : String} (h : isReport text = true) : Begins 'A' text := by
  obtain ⟨rest, hrest⟩ := List.isPrefixOf_iff_prefix.mp h
  rw [Begins, ← hrest, List.head?_append]
  rfl

theorem toList_report (x : Double) : (Turnaround.report x).toList =
    "Average turnaround time: ".toList ++ (x.fixed 6).toList := by
  unfold Turnaround.report
  generalize x.fixed 6 = mean
  exact String.toList_append

theorem isReport_report (x : Double) : isReport (Turnaround.report x) = true := by
  rw [isReport, List.isPrefixOf_iff_prefix, toList_report]
  exact List.prefix_append _ _

theorem begins_report (x : Double) : Begins 'A' (Turnaround.report x) :=
  begins_of_isReport (isReport_report x)

end Uniproc
