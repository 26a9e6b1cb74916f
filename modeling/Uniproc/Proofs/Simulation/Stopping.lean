import Uniproc.Proofs.Loading
import Uniproc.Proofs.Simulation.History

/-!
When a call stops. With programs that come from texts, and as long as ticks can be written,
one thing only stops a step: a replacement that fails for another reason than those that
are reported. Nothing stops an unblocking.
-/

namespace Uniproc
namespace Simulation

/-- A state in which all programs come from texts. -/
structure Scripted (sim : Simulation) : Prop extends Underway sim where
  written {slot : Int} {b : ControlBlock} :
    sim.machine.table.blockAt slot = some b → b.program.Written

/-- The state between calls, when all programs come from texts. -/
structure Steady (sim : Simulation) : Prop extends Underway sim where
  sound : sim.books.Sound
  written {slot : Int} {b : ControlBlock} :
    sim.machine.table.blockAt slot = some b → b.program.Written

/-- The next instruction is to replace the program, and the other one cannot be loaded in a
way that is reported. -/
def Unloadable (sim : Simulation) (files : FileView) : Prop :=
  sim.machine.scheduler.running.isSome ∧ ∃ i, sim.next? = some i ∧ i.opcode = .replace ∧
    sim.loader.Unloadable files i.path

variable {sim : Simulation} {slot : Int} {b : ControlBlock}

theorem written_of_update {t u : ProcessTable} {c : ControlBlock}
    (hu : ∀ other, u.blockAt other = if other = slot then some c else t.blockAt other)
    (hc : c.program.Written) (ht : ∀ {slot b}, t.blockAt slot = some b → b.program.Written)
    {other : Int} (hb : u.blockAt other = some b) : b.program.Written :=
  ProcessTable.forall_of_update (P := fun b => b.program.Written) hu hc ht hb

/-- A program that is put in the place of another one has been loaded. -/
theorem exists_load_of_install {files : FileView} {i? : Option Instruction} {p : Program}
    (h : sim.effectAt files i? = .install p) : ∃ name, sim.loader.load files name = .ok p := by
  cases i? with
  | none => cases h
  | some i =>
      simp only [effectAt, effectOf] at h
      split at h
      case h_7 =>
        split at h
        · next hload =>
          cases h
          exact ⟨i.path, hload⟩
        · split at h <;> cases h
        · cases h
      case h_6 => split at h <;> cases h
      all_goals cases h

theorem written_of_install {files : FileView} {i? : Option Instruction} {p : Program}
    (h : sim.effectAt files i? = .install p) : p.Written := by
  obtain ⟨name, hload⟩ := exists_load_of_install h
  exact Loader.written_of_load hload

theorem Move.written {s s' : Simulation} (h : Move s s') (hu : s.Underway)
    (hw : ∀ {slot b}, s.machine.table.blockAt slot = some b → b.program.Written) :
    ∀ {slot b}, s'.machine.table.blockAt slot = some b → b.program.Written := by
  intro other c hc
  cases h with
  | log | fetch | elapse => exact hw hc
  | @affect slot b files i? hrun hb =>
      have hadmits := admits_effectAt s files i?
      have hinstall (p : Program) (he : s.effectAt files i? = .install p) : p.Written :=
        written_of_install he
      change (s.machine.affect slot b s.tick _).table.blockAt other = some c at hc
      generalize s.effectAt files i? = e at hadmits hinstall hc
      cases e with
      | compute _ | refuse | keep _ => exact hw hc
      | block =>
          exact written_of_update (Machine.blockAt_afterBlock hb)
            (show b.program.Written from hw hb) hw hc
      | finish =>
          exact written_of_update (Machine.blockAt_afterEnd hb)
            (show b.program.Written from hw hb) hw hc
      | spawn child offset =>
          obtain ⟨old, hold, _⟩ := ProcessTable.blockAt_of_allocate hadmits
          exact written_of_update (Machine.blockAt_afterFork hold b offset s.tick)
            (show b.program.Written from hw hb) hw hc
      | install p =>
          exact written_of_update (Machine.blockAt_afterReplace hb p) (hinstall p rfl) hw hc
      | lose _ | abort _ =>
          exact written_of_update (Machine.blockAt_afterReplace hb {}) Program.written_empty hw hc
  | dispatch =>
      obtain ⟨_, heq⟩ | ⟨slot, b, rest, _, _, _, hb, _, heq⟩ := hu.coherent.afterDispatch_cases
      · rw [dispatched, heq] at hc
        exact hw hc
      · rw [dispatched, heq] at hc
        exact written_of_update (Machine.blockAt_afterSwitch hb rest)
          (show b.program.Written from hw hb) hw hc
  | unblock =>
      obtain ⟨_, heq⟩ | ⟨slot, b, rest, _, hb, _, heq⟩ := hu.coherent.afterUnblock_cases
      · rw [unblocked, heq] at hc
        exact hw hc
      · rw [unblocked, heq] at hc
        exact written_of_update (Machine.blockAt_afterWake hb rest)
          (show b.program.Written from hw hb) hw hc

theorem Happened.scripted {x : Moment} (hx : Happened sim x) (h : sim.Scripted) :
    x.after.Scripted :=
  hx.moves.keeps (fun h hmove => ⟨hmove.underway h.toUnderway, hmove.written h.toUnderway h.written⟩) h

theorem Scripted.writable_next (h : sim.Scripted) (hrun : sim.machine.scheduler.running = some slot)
    {i : Instruction} (hnext : sim.next? = some i) : Writable i.numbers := by
  obtain ⟨b, hb, _⟩ := h.coherent.exists_running hrun
  rw [next?, h.coherent.program_eq hrun hb] at hnext
  exact h.written hb i (List.mem_of_getElem? hnext)

theorem Steady.scripted (h : sim.Steady) : sim.Scripted :=
  ⟨h.toUnderway, h.written⟩

theorem Steady.entered (h : sim.Steady) (ht : sim.tick + 1 < Numeral.writingBound)
    (q : Request) : (sim.happen q).Entered :=
  entered_happen h.toUnderway h.sound (.inr ht)

theorem Steady.after (h : sim.Steady) (ht : sim.tick + 1 < Numeral.writingBound) (q : Request) :
    (sim.happen q).after.Steady := by
  have hentered := h.entered ht q
  have hscripted := hentered.happened.scripted h.scripted
  exact ⟨hscripted.toUnderway, hentered.booked.sound h.sound, hscripted.written⟩

/-- Only a replacement is aborted. -/
theorem effectOf_eq_abort_iff {files : FileView} {i : Instruction} {fault : Fault} :
    sim.effectOf files i = .abort fault ↔
      i.opcode = .replace ∧ sim.loader.load files i.path = .error fault ∧ fault.Escapes := by
  unfold effectOf
  cases hop : i.opcode with
  | set | add | subtract | block | halt => simp
  | fork => cases sim.machine.table.allocate <;> simp
  | replace =>
      cases hload : sim.loader.load files i.path with
      | ok p => simp
      | error cause =>
          cases cause with
          | load cause =>
              dsimp only
              constructor
              · intro h
                split at h <;> cases h
              · rintro ⟨_, hfault, hescapes⟩
                cases hfault
                exact absurd hescapes (Fault.not_escapes_load cause)
          | _ =>
              simp only [Effect.abort.injEq, Except.error.injEq, true_and]
              constructor
              · rintro rfl
                exact ⟨rfl, fun _ => nofun⟩
              · exact fun h => h.1

theorem step_error_iff (h : sim.Steady) (ht : sim.tick + 1 < Numeral.writingBound)
    (files : FileView) :
    (∃ fault s, step files sim = .error fault s) ↔ sim.Unloadable files := by
  have hstepped := stepped h.booted h.coherent files
  constructor
  · rintro ⟨fault, s, herror⟩
    rw [herror] at hstepped
    cases hstepped with
    | stopped hrun hb hturn =>
        obtain ⟨i, hnext, ⟨hw, _⟩ | ⟨habort, _⟩⟩ :=
          hturn.error_cases h.coherent hrun hb h.sound ht
        · exact absurd (h.scripted.writable_next hrun hnext) hw
        · obtain ⟨hop, hload, hescapes⟩ := effectOf_eq_abort_iff.mp habort
          exact ⟨by rw [hrun]; rfl, i, hnext, hop,
            Loader.escapes_load_iff.mp ⟨fault, hload, hescapes⟩⟩
    | untold hrun hb hturn hw =>
        exact absurd (hturn.writable_next? h.coherent hrun hb h.sound ht) hw
  · rintro ⟨hsome, i, hnext, hop, hunloadable⟩
    obtain ⟨fault, hload, hescapes⟩ := Loader.escapes_load_iff.mpr hunloadable
    have habort : sim.fetched.effectOf files i = .abort fault :=
      effectOf_eq_abort_iff.mpr ⟨hop, hload, hescapes⟩
    cases hresult : step files sim with
    | error fault s => exact ⟨fault, s, rfl⟩
    | ok report s =>
        rw [hresult] at hstepped
        cases hstepped with
        | idle hidle =>
            rw [hidle] at hsome
            cases hsome
        | done hrun hb hturn =>
            cases hturn with
            | done hnext' hmid he hdone =>
                rw [hnext] at hnext'
                subst hnext' hmid he
                exact absurd habort (hdone fault)

theorem unblock_eq_ok (h : sim.Steady) (ht : sim.tick < Numeral.writingBound) :
    ∃ s, unblock sim = .ok sim.machine.scheduler.blocked.head? s := by
  have hunblock := unblock_done h.booted h.coherent
  cases hresult : unblock sim with
  | ok slot s =>
      rw [hresult] at hunblock
      cases hunblock
      exact ⟨_, rfl⟩
  | error fault s =>
      rw [hresult] at hunblock
      exact absurd hunblock (Unblocked.not_error h.coherent h.sound ht)

theorem scripted_launched {settings : Settings} {program : Program}
    (h : 1 ≤ settings.tableCapacity) (loader : Loader) (hprogram : program.Written) :
    (launched settings loader program).Scripted := by
  refine ⟨underway_launched h loader program, ?_⟩
  intro slot b hb
  rw [blockAt_launched h] at hb
  split at hb
  · cases hb
    exact hprogram
  · rw [blockAt_replicate hb]
    exact Program.written_empty

theorem steady_launched {settings : Settings} {loader : Loader} {program : Program}
    (h : 1 ≤ settings.tableCapacity) (hprogram : program.Written) :
    (launched settings loader program).Steady := by
  have hscripted := scripted_launched h loader hprogram
  exact ⟨hscripted.toUnderway, sound_launched h loader program, hscripted.written⟩

end Simulation
end Uniproc
