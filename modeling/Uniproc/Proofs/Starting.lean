import Uniproc.Proofs.Excess
import Uniproc.Proofs.Printing
import Uniproc.Proofs.Settings
import Uniproc.Proofs.Simulation.Run

/-!
Starting from files. A start gives a booted simulation or fails, and most failures are
reported: those of the settings and those of the program. The others are of three kinds: a
number with too many digits, values too deep inside each other, and a name that no file can
have. A report can fail as well: a stream cannot take the halves of surrogate pairs that are
in an unknown key.
-/

namespace Uniproc

/-- The session prints the failure and ends with status 1. -/
def Fault.isReported : Fault → Bool
  | .load _ | .settings _ => true
  | _ => false

namespace Settings

/-- No file can have the name, or the file is a text that holds too much. -/
def Unloadable (nesting : Json.Nesting) (files : FileView) : Option Path → Prop
  | none => False
  | some path => path.hasNull = true ∨ ∃ bytes text, files path = .ok bytes ∧
      Utf8.decode bytes = .ok text ∧ Json.Oversized nesting.read (Text.unifyNewlines text)

/-- The file is a text of an object in which a half of a surrogate pair stands in a name that
is no key. -/
def Unprintable (nesting : Json.Nesting) (files : FileView) : Option Path → Prop
  | none => False
  | some path => path.hasNull = false ∧ ∃ bytes text members, files path = .ok bytes ∧
      Utf8.decode bytes = .ok text ∧
      Json.read nesting.read (Text.unifyNewlines text) = .ok (.object members) ∧
      ∃ m ∈ members, (∀ key : Key, m.1 ≠ key.points) ∧ ∃ n ∈ m.1, CodePoints.isHalf n = true

/-- The greatest length of a program can be written. -/
def Written (s : Settings) : Prop :=
  Numeral.isWritable s.maxProgramLength = true

variable {s : Settings} {levels : Nat} {nesting : Json.Nesting}
  {members : List (CodePoints × Json)} {files : FileView} {settings : Option Path}

theorem written_default : Written {} := by
  have hbound : 100 < Numeral.writingBound :=
    Numeral.lt_writingBound_of_lt_pow (k := 3) (by decide) (by decide)
  have hlimit : Numeral.isWritable (100 : Int) = true :=
    Numeral.isWritable_of_bounds (by decide) (Int.ofNat_lt.mpr hbound)
  exact hlimit

theorem written_of_writable {n : Int} (h : (Json.int n).Writable) (s : Settings) :
    { s with maxProgramLength := n }.Written := by
  cases h with
  | int h => exact h

/-- A value that can be shown overrides a setting or is reported. -/
theorem override_cases (hs : s.Written) (key : Key) {v : Json} (hv : v.Fits levels) :
    (∃ s', s.override levels key v = .ok s' ∧ s'.Written) ∨
      ∃ cause, s.override levels key v = .error (.settings cause) := by
  unfold override
  split
  · exact .inl ⟨_, rfl, hs⟩
  · exact .inl ⟨_, rfl, written_of_writable hv.writable s⟩
  · exact .inl ⟨_, rfl, hs⟩
  · obtain ⟨got, hgot⟩ := hv.writable.display_of_le hv.height
    rw [hgot]
    exact .inr ⟨_, rfl⟩

theorem overrideAll_cases (hs : s.Written) (hmembers : ∀ m ∈ members, m.2.Fits levels) :
    (∃ s', s.overrideAll levels members = .ok s' ∧ s'.Written) ∨
      ∃ cause, s.overrideAll levels members = .error (.settings cause) := by
  induction members generalizing s with
  | nil => exact .inl ⟨s, rfl, hs⟩
  | cons m rest ih =>
      rw [List.forall_mem_cons] at hmembers
      obtain ⟨name, v⟩ := m
      rw [overrideAll]
      cases Key.ofName? name with
      | none => exact ih hs hmembers.2
      | some key =>
          obtain ⟨s', hoverride, hs'⟩ | ⟨cause, hoverride⟩ := override_cases hs key hmembers.1
          · simp only [hoverride]
            exact ih hs' hmembers.2
          · simp only [hoverride]
            exact .inr ⟨cause, rfl⟩

theorem validate_cases (s : Settings) :
    (s.validate = .ok s ∧ 1 ≤ s.tableCapacity) ∨
      ∃ cause, s.validate = .error (.settings cause) := by
  unfold validate
  split
  · exact .inr ⟨_, rfl⟩
  · next hcapacity =>
    split
    · exact .inr ⟨_, rfl⟩
    · exact .inl ⟨rfl, Int.not_lt.mp hcapacity⟩

theorem ofMembers_cases (hmembers : ∀ m ∈ members, m.2.Fits levels) :
    (∃ s, ofMembers levels members = .ok s ∧ 1 ≤ s.tableCapacity ∧ s.Written) ∨
      ∃ cause, ofMembers levels members = .error (.settings cause) := by
  unfold ofMembers
  split
  · obtain ⟨s, hall, hs⟩ | ⟨cause, hall⟩ := overrideAll_cases written_default hmembers
    · rw [hall]
      change (∃ s', s.validate = .ok s' ∧ _) ∨ ∃ cause, s.validate = .error (.settings cause)
      obtain ⟨hvalid, hcapacity⟩ | hinvalid := validate_cases s
      · exact .inl ⟨s, hvalid, hcapacity, hs⟩
      · exact .inr hinvalid
    · rw [hall]
      exact .inr ⟨cause, rfl⟩
  · exact .inr ⟨_, rfl⟩

/-- What has been read as an object has members that can be shown. -/
theorem fits_members (nesting : Json.Nesting)
    (h : (Json.object members).Fits (nesting.read + 1)) :
    ∀ m ∈ members, m.2.Fits nesting.shown := by
  intro m hm
  have hheight := Json.height_object_le_iff.mp h.height m hm
  cases h.writable with
  | object hwritable => exact ⟨hwritable m hm, hheight.trans nesting.read_le_shown⟩

theorem ofText_cases (nesting : Json.Nesting) (text : List Char) :
    (∃ s, ofText nesting text = .ok s ∧ 1 ≤ s.tableCapacity ∧ s.Written) ∨
      (∃ cause, ofText nesting text = .error (.settings cause)) ∨
      Json.Oversized nesting.read text := by
  unfold ofText
  obtain ⟨v, hread, hfits⟩ | ⟨fault, hread⟩ | hover := Json.read_cases nesting.read text
  · rw [hread]
    cases v with
    | object members => exact (ofMembers_cases (fits_members nesting hfits)).imp_right .inl
    | _ => exact .inr (.inl ⟨_, rfl⟩)
  · rw [hread]
    exact .inr (.inl ⟨_, rfl⟩)
  · exact .inr (.inr hover)

theorem ofText_of_oversized {text : List Char} (h : Json.Oversized nesting.read text) :
    ∃ fault, ofText nesting text = .error fault ∧ fault.isReported = false := by
  obtain ⟨limit, hread⟩ | ⟨container, hread⟩ := Json.oversized_iff.mp h
  · exact ⟨.numeral limit, by rw [ofText, hread], rfl⟩
  · exact ⟨.tooDeep container, by rw [ofText, hread], rfl⟩

theorem load_cases (nesting : Json.Nesting) (files : FileView) (settings : Option Path) :
    (∃ s, load nesting files settings = .ok s ∧ 1 ≤ s.tableCapacity ∧ s.Written) ∨
      (∃ cause, load nesting files settings = .error (.settings cause)) ∨
      Unloadable nesting files settings := by
  cases settings with
  | none => exact .inl ⟨{}, rfl, by decide, written_default⟩
  | some path =>
      rw [load]
      by_cases hnull : path.hasNull = true
      · exact .inr (.inr (.inl hnull))
      · rw [if_neg hnull]
        cases hfile : files path with
        | error cause => exact .inr (.inl ⟨_, rfl⟩)
        | ok bytes =>
            dsimp only
            rw [ofBytes]
            cases hutf : Utf8.decode bytes with
            | error fault => exact .inr (.inl ⟨_, rfl⟩)
            | ok text =>
                refine (ofText_cases nesting _).imp_right (Or.imp_right fun hover => ?_)
                exact .inr ⟨bytes, text, hfile, hutf, hover⟩

/-- Settings that hold too much are not reported. -/
theorem load_of_unloadable (h : Unloadable nesting files settings) :
    ∃ fault, load nesting files settings = .error fault ∧ fault.isReported = false := by
  cases settings with
  | none => cases h
  | some path =>
      rw [load]
      by_cases hnull : path.hasNull = true
      · exact ⟨.nullInPath, if_pos hnull, rfl⟩
      · obtain ⟨bytes, text, hfile, hutf, hover⟩ := h.resolve_left hnull
        rw [if_neg hnull, hfile]
        dsimp only
        rw [ofBytes, hutf]
        exact ofText_of_oversized hover

/-- All else that is wrong with settings is reported. -/
theorem escapes_load_iff :
    (∃ fault, load nesting files settings = .error fault ∧ ∀ cause, fault ≠ .settings cause) ↔
      Unloadable nesting files settings := by
  constructor
  · rintro ⟨fault, hfault, hother⟩
    obtain ⟨s, hs, _⟩ | ⟨cause, hcause⟩ | hunloadable := load_cases nesting files settings
    · simp [hs] at hfault
    · rw [hcause] at hfault
      cases hfault
      exact absurd rfl (hother cause)
    · exact hunloadable
  · intro hunloadable
    obtain ⟨fault, hfault, hescaped⟩ := load_of_unloadable hunloadable
    refine ⟨fault, hfault, ?_⟩
    rintro cause rfl
    cases hescaped

theorem overrideAll_ne_unknownKeys (levels : Nat) (s : Settings)
    (members : List (CodePoints × Json)) (keys : List CodePoints) :
    s.overrideAll levels members ≠ .error (.settings (.unknownKeys keys)) := by
  induction members generalizing s with
  | nil => exact nofun
  | cons m rest ih =>
      obtain ⟨name, v⟩ := m
      rw [overrideAll]
      cases Key.ofName? name with
      | none => exact ih s
      | some key =>
          dsimp only
          cases hoverride : s.override levels key v with
          | ok s' => exact ih s'
          | error fault =>
              rintro ⟨rfl⟩
              unfold override at hoverride
              split at hoverride
              · cases hoverride
              · cases hoverride
              · cases hoverride
              · split at hoverride
                · cases hoverride
                · next display_error _ => cases display_error <;> cases hoverride

theorem validate_ne_unknownKeys (s : Settings) (keys : List CodePoints) :
    s.validate ≠ .error (.settings (.unknownKeys keys)) := by
  unfold validate
  split
  · exact nofun
  · split <;> exact nofun

/-- Unknown keys are reported just where there are any. -/
theorem ofMembers_unknownKeys_iff {keys : List CodePoints} :
    ofMembers levels members = .error (.settings (.unknownKeys keys)) ↔
      unknownKeys members = keys ∧ keys ≠ [] := by
  unfold ofMembers
  split
  · next hnone =>
    rw [hnone]
    refine iff_of_false ?_ fun h => h.2 h.1.symm
    cases hall : overrideAll {} levels members with
    | error fault =>
        rintro ⟨rfl⟩
        exact overrideAll_ne_unknownKeys levels {} members keys hall
    | ok s => exact validate_ne_unknownKeys s keys
  · next hsome =>
    constructor
    · rintro ⟨rfl⟩
      exact ⟨rfl, hsome⟩
    · rintro ⟨rfl, _⟩
      rfl

theorem ofText_unknownKeys_iff {text : List Char} {keys : List CodePoints} :
    ofText nesting text = .error (.settings (.unknownKeys keys)) ↔
      ∃ members, Json.read nesting.read text = .ok (.object members) ∧
        unknownKeys members = keys ∧ keys ≠ [] := by
  unfold ofText
  cases hread : Json.read nesting.read text with
  | error cause => cases cause <;> simp
  | ok v =>
      cases v with
      | object members => simp [ofMembers_unknownKeys_iff]
      | _ => simp

theorem load_unknownKeys_iff {path : Path} {keys : List CodePoints} :
    load nesting files (some path) = .error (.settings (.unknownKeys keys)) ↔
      path.hasNull = false ∧ ∃ bytes text, files path = .ok bytes ∧
        Utf8.decode bytes = .ok text ∧
        ofText nesting (Text.unifyNewlines text) = .error (.settings (.unknownKeys keys)) := by
  rw [load]
  cases path.hasNull with
  | true => simp
  | false =>
      rw [if_neg Bool.false_ne_true]
      cases files path with
      | error cause => simp
      | ok bytes =>
          dsimp only
          rw [ofBytes]
          cases hutf : Utf8.decode bytes <;> simp [hutf]

/-- A failure that is reported cannot be printed just if this is how the file is. -/
theorem unprintable_iff : Unprintable nesting files settings ↔
    ∃ cause, load nesting files settings = .error (.settings cause) ∧
      ∃ n ∈ cause.message, CodePoints.isHalf n = true := by
  cases settings with
  | none => exact iff_of_false id (by simp [load])
  | some path =>
      constructor
      · rintro ⟨hnull, bytes, text, members, hfile, hutf, hread, m, hm, hname, hhalf⟩
        have hkey : m.1 ∈ unknownKeys members :=
          mem_unknownKeys_iff.mpr ⟨List.mem_map_of_mem hm, hname⟩
        have htext := ofText_unknownKeys_iff.mpr ⟨members, hread, rfl, List.ne_nil_of_mem hkey⟩
        exact ⟨_, load_unknownKeys_iff.mpr ⟨hnull, bytes, text, hfile, hutf, htext⟩,
          exists_half_message_iff.mpr ⟨_, rfl, m.1, hkey, hhalf⟩⟩
      · rintro ⟨cause, hload, hhalf⟩
        obtain ⟨keys, rfl, key, hkey, hhalf⟩ := exists_half_message_iff.mp hhalf
        obtain ⟨hnull, bytes, text, hfile, hutf, htext⟩ := load_unknownKeys_iff.mp hload
        obtain ⟨members, hread, rfl, _⟩ := ofText_unknownKeys_iff.mp htext
        obtain ⟨hmem, hname⟩ := mem_unknownKeys_iff.mp hkey
        obtain ⟨m, hm, rfl⟩ := List.mem_map.mp hmem
        exact ⟨hnull, bytes, text, members, hfile, hutf, hread, m, hm, hname, hhalf⟩

end Settings

theorem Instruction.ofLine_error_cases {source : String} {line : Nat} {raw : List Char}
    {fault : Fault} (h : ofLine source line raw = .error fault) :
    (∃ cause, fault = .load cause) ∨ fault.isReported = false := by
  unfold ofLine at h
  split at h
  · cases h
  · dsimp only at h
    split at h
    · cases h
      exact .inl ⟨_, rfl⟩
    · split at h
      · split at h
        · cases h
        · cases h
          exact .inr rfl
      · split at h
        · split at h
          · cases h
            exact .inl ⟨_, rfl⟩
          · cases h
        · cases h

theorem Fault.ofTooLong_cases (limit : Int) (source : String) :
    (∃ cause, ofTooLong limit source = .load cause) ∨
      (ofTooLong limit source).isReported = false := by
  unfold ofTooLong
  split
  · exact .inl ⟨_, rfl⟩
  · exact .inr rfl

theorem Program.decode_error_cases {lines : List (List Char)} {source : String} {limit : Int}
    {fault : Fault} (h : decode lines source limit = .error fault) :
    (∃ cause, fault = .load cause) ∨ fault.isReported = false := by
  obtain ⟨earlier, raw, later, instructions, _, _, hline | ⟨_, _, rfl⟩⟩ :=
    decodeFrom_error_iff.mp (decode_eq_error_iff.mp h)
  · exact Instruction.ofLine_error_cases hline
  · exact Fault.ofTooLong_cases limit source

/-- Where a program cannot be loaded, this is either reported or no failure of settings. -/
theorem Loader.load_error_cases {loader : Loader} {files : FileView} {name : String}
    {fault : Fault} (h : loader.load files name = .error fault) :
    (∃ cause, fault = .load cause) ∨ fault.isReported = false := by
  unfold load at h
  dsimp only at h
  split at h
  · cases h
    exact .inr rfl
  · split at h
    · cases h
      exact .inl ⟨_, rfl⟩
    · split at h
      · cases h
        exact .inl ⟨_, rfl⟩
      · exact Program.decode_error_cases h

theorem Fault.escapes_of_not_reported {fault : Fault} (h : fault.isReported = false) :
    fault.Escapes := by
  rintro cause rfl
  cases h

/-- No file can have the name, or the file is a text whose lines are good up to one whose
number has too many digits. -/
def Loader.Overlong (loader : Loader) (files : FileView) (name : String) : Prop :=
  (loader.resolve name).hasNull = true ∨ ∃ bytes text earlier raw later instructions,
    files (loader.resolve name) = .ok bytes ∧ Utf8.decode bytes = .ok text ∧
      Text.lines (Text.unifyNewlines text) = earlier ++ raw :: later ∧
      Program.decodeFrom name loader.limit 1 0 earlier = .ok instructions ∧
      Instruction.Overlong raw

/-- A limit that can be written is never to blame. -/
theorem Settings.Written.unloadable_iff {s : Settings} (h : s.Written) {files : FileView}
    {name : String} : Loader.Unloadable { limit := s.maxProgramLength } files name ↔
      Loader.Overlong { limit := s.maxProgramLength } files name := by
  have hlimit : Numeral.isWritable ({ limit := s.maxProgramLength } : Loader).limit = true := h
  unfold Loader.Unloadable Loader.Overlong Program.Undecodable
  simp only [hlimit, Bool.true_eq_false, and_false, or_false, exists_and_left]

/-- What a start cannot take from its files, and does not report. -/
def Unstartable (nesting : Json.Nesting) (files : FileView) (program : Path)
    (settings : Option Path) : Prop :=
  Settings.Unloadable nesting files settings ∨ ∃ s, Settings.load nesting files settings = .ok s ∧
    Loader.Overlong { limit := s.maxProgramLength } files program.toString

/-- All that can come of a start, and what the session shows then: a simulation to talk to, a
failure that is printed, with status 1, one that cannot be printed, or one that nobody
handles. -/
inductive Started (output : Output) (nesting : Json.Nesting) (files : FileView) (program : Path)
    (settings : Option Path) (inputs : List Input) : Prop
  | booted {sim : Simulation}
      (hstart : Simulation.start nesting files program settings = .ok sim)
      (hbooted : sim.booted = true)
      (hrun : Session.run output nesting files program settings inputs =
        Session.converse files { simulation := sim } inputs)
  | unsettled {cause : Settings.Error}
      (hload : Settings.load nesting files settings = .error (.settings cause))
      (hstart : Simulation.start nesting files program settings = .error (.settings cause))
      (hprint : output.refusal? cause.message = none)
      (hrun : Session.run output nesting files program settings inputs =
        ⟨cause.message ++ CodePoints.ofString "\n", .status 1⟩)
  | unprinted {cause : Settings.Error} {halves : CodePoints.Unpaired}
      (hload : Settings.load nesting files settings = .error (.settings cause))
      (hstart : Simulation.start nesting files program settings = .error (.settings cause))
      (hprint : output.refusal? cause.message = some halves)
      (hrun : Session.run output nesting files program settings inputs =
        ⟨[], .fault (.unprintable halves)⟩)
  | unloaded {s : Settings} {cause : LoadError}
      (hsettings : Settings.load nesting files settings = .ok s)
      (hload : Loader.load { limit := s.maxProgramLength } files program.toString =
        .error (.load cause))
      (hstart : Simulation.start nesting files program settings = .error (.load cause))
      (hrun : Session.run output nesting files program settings inputs =
        ⟨CodePoints.ofString cause.message ++ CodePoints.ofString "\n", .status 1⟩)
  | escaped {fault : Fault} (h : Unstartable nesting files program settings)
      (hescaped : fault.isReported = false)
      (hstart : Simulation.start nesting files program settings = .error fault)
      (hrun : Session.run output nesting files program settings inputs = ⟨[], .fault fault⟩)

section

variable {output : Output} {nesting : Json.Nesting} {files : FileView} {program : Path}
  {settings : Option Path} {s : Settings} {fault : Fault}

theorem run_of_escaped (h : Simulation.start nesting files program settings = .error fault)
    (hescaped : fault.isReported = false) (output : Output) (inputs : List Input) :
    Session.run output nesting files program settings inputs = ⟨[], .fault fault⟩ := by
  rw [Session.run, h]
  cases fault with
  | load cause | settings cause => cases hescaped
  | _ => rfl

theorem start_of_settings_error (h : Settings.load nesting files settings = .error fault)
    (program : Path) : Simulation.start nesting files program settings = .error fault := by
  rw [Simulation.start, h]
  rfl

theorem start_of_program_error (hs : Settings.load nesting files settings = .ok s)
    (h : Loader.load { limit := s.maxProgramLength } files program.toString = .error fault) :
    Simulation.start nesting files program settings = .error fault := by
  simp only [Simulation.start, bind, Except.bind, hs, h]

theorem Settings.written_of_load (hs : Settings.load nesting files settings = .ok s) :
    s.Written := by
  obtain ⟨s', hs', _, hwritten⟩ | ⟨cause, hcause⟩ | hunloadable :=
    Settings.load_cases nesting files settings
  · rw [hs] at hs'
    cases hs'
    exact hwritten
  · rw [hs] at hcause
    cases hcause
  · obtain ⟨fault, hfault, _⟩ := Settings.load_of_unloadable hunloadable
    rw [hs] at hfault
    cases hfault

theorem start_of_ok {p : Program} (hs : Settings.load nesting files settings = .ok s)
    (hcapacity : 1 ≤ s.tableCapacity)
    (h : Loader.load { limit := s.maxProgramLength } files program.toString = .ok p) :
    Simulation.start nesting files program settings =
      .ok (Simulation.launched s { limit := s.maxProgramLength } p) := by
  simp only [Simulation.start, bind, Except.bind, hs, h]
  exact Simulation.launch_eq hcapacity _ p

theorem started (output : Output) (nesting : Json.Nesting) (files : FileView) (program : Path)
    (settings : Option Path) (inputs : List Input) :
    Started output nesting files program settings inputs := by
  obtain ⟨s, hs, hcapacity, hwritten⟩ | ⟨cause, hcause⟩ | hunloadable :=
    Settings.load_cases nesting files settings
  · cases hload : Loader.load { limit := s.maxProgramLength } files program.toString with
    | ok p =>
        have hstart := start_of_ok hs hcapacity hload
        exact .booted hstart rfl (by rw [Session.run, hstart])
    | error fault =>
        have hstart := start_of_program_error hs hload
        obtain ⟨cause, rfl⟩ | hescaped := Loader.load_error_cases hload
        · have hprint := output.refusal?_ofString cause.message
          refine .unloaded hs hload hstart ?_
          rw [Session.run, hstart]
          simp only [Session.report, Fault.message, hprint]
        · have hunloadable := Loader.escapes_load_iff.mp
            ⟨fault, hload, Fault.escapes_of_not_reported hescaped⟩
          exact .escaped (.inr ⟨s, hs, hwritten.unloadable_iff.mp hunloadable⟩) hescaped hstart
            (run_of_escaped hstart hescaped output inputs)
  · have hstart := start_of_settings_error hcause program
    cases hprint : output.refusal? cause.message with
    | none =>
        refine .unsettled hcause hstart hprint ?_
        rw [Session.run, hstart]
        simp only [Session.report, Fault.message, hprint]
    | some halves =>
        refine .unprinted hcause hstart hprint ?_
        rw [Session.run, hstart]
        simp only [Session.report, Fault.message, hprint]
  · obtain ⟨fault, hfault, hescaped⟩ := Settings.load_of_unloadable hunloadable
    have hstart := start_of_settings_error hfault program
    exact .escaped (.inl hunloadable) hescaped hstart
      (run_of_escaped hstart hescaped output inputs)

/-- Nothing that cannot be taken is reported. -/
theorem start_of_unstartable (h : Unstartable nesting files program settings) :
    ∃ fault, Simulation.start nesting files program settings = .error fault ∧
      fault.isReported = false := by
  obtain hunloadable | ⟨s, hs, hoverlong⟩ := h
  · obtain ⟨fault, hfault, hescaped⟩ := Settings.load_of_unloadable hunloadable
    exact ⟨fault, start_of_settings_error hfault program, hescaped⟩
  · obtain ⟨fault, hload, hescapes⟩ := Loader.escapes_load_iff.mpr
      ((Settings.written_of_load hs).unloadable_iff.mpr hoverlong)
    obtain ⟨cause, rfl⟩ | hescaped := Loader.load_error_cases hload
    · exact absurd rfl (hescapes cause)
    · exact ⟨fault, start_of_program_error hs hload, hescaped⟩

theorem escapes_start_iff :
    (∃ fault, Simulation.start nesting files program settings = .error fault ∧
      fault.isReported = false) ↔ Unstartable nesting files program settings := by
  refine ⟨?_, start_of_unstartable⟩
  rintro ⟨fault, hfault, hescaped⟩
  cases started .buffer nesting files program settings [] with
  | booted hstart => simp [hstart] at hfault
  | unsettled _ hstart | unprinted _ hstart | unloaded _ _ hstart =>
      rw [hstart] at hfault
      cases hfault
      cases hescaped
  | escaped h => exact h

/-- The session itself fails, instead of ending with status 1, also where it cannot print. -/
theorem run_escapes_iff (output : Output) (inputs : List Input) :
    (∃ fault escaped, Simulation.start nesting files program settings = .error fault ∧
      Session.run output nesting files program settings inputs = ⟨[], .fault escaped⟩) ↔
    Unstartable nesting files program settings ∨
      output = .stream ∧ Settings.Unprintable nesting files settings := by
  rw [Settings.unprintable_iff]
  constructor
  · rintro ⟨fault, escaped, hfault, hrun⟩
    cases started output nesting files program settings inputs with
    | booted hstart => simp [hstart] at hfault
    | unsettled _ _ _ hstatus | unloaded _ _ _ hstatus =>
        rw [hrun] at hstatus
        cases congrArg Transcript.ending hstatus
    | @unprinted cause halves hload _ hprint _ =>
        have hrefused : output.refusal? cause.message ≠ none := by simp [hprint]
        obtain ⟨hstream, hhalf⟩ := Output.refusal?_ne_none_iff.mp hrefused
        exact .inr ⟨hstream, cause, hload, hhalf⟩
    | escaped h => exact .inl h
  · rintro (h | ⟨hstream, cause, hload, hhalf⟩)
    · obtain ⟨fault, hstart, hescaped⟩ := start_of_unstartable h
      exact ⟨fault, fault, hstart, run_of_escaped hstart hescaped output inputs⟩
    · have hstart := start_of_settings_error hload program
      have hrefused := Output.refusal?_ne_none_iff.mpr ⟨hstream, hhalf⟩
      obtain ⟨halves, hprint⟩ := Option.ne_none_iff_exists'.mp hrefused
      refine ⟨_, .unprintable halves, hstart, ?_⟩
      rw [Session.run, hstart]
      simp only [Session.report, Fault.message, hprint]

/-- Every start gives a simulation, a failure that is reported, or one that is not; and it is
not reported just where the settings or the program hold what cannot be taken. The session lets
a failure escape there, and where the report is of unknown keys that a stream cannot take. Of
loading settings alone and of decoding lines alone the same is so. What cannot be taken of
settings has more digits in a row, or more opening brackets, than is allowed. -/
theorem start_escapes_iff (output : Output) (nesting : Json.Nesting) (files : FileView)
    (program : Path) (settings : Option Path) (inputs : List Input) :
    Started output nesting files program settings inputs ∧
    ((∃ fault, Simulation.start nesting files program settings = .error fault ∧
      fault.isReported = false) ↔ Unstartable nesting files program settings) ∧
    ((∃ fault escaped, Simulation.start nesting files program settings = .error fault ∧
      Session.run output nesting files program settings inputs = ⟨[], .fault escaped⟩) ↔
      Unstartable nesting files program settings ∨
        output = .stream ∧ Settings.Unprintable nesting files settings) ∧
    ((∃ fault, Settings.load nesting files settings = .error fault ∧
      ∀ cause, fault ≠ .settings cause) ↔ Settings.Unloadable nesting files settings) ∧
    (∀ text, Json.Oversized nesting.read text → Json.Crowded nesting.read text) ∧
    ∀ lines source limit, (∃ fault, Program.decode lines source limit = .error fault ∧
      ∀ cause, fault ≠ .load cause) ↔ Program.Undecodable lines source limit :=
  ⟨started output nesting files program settings inputs, escapes_start_iff,
    run_escapes_iff output inputs, Settings.escapes_load_iff, fun _ => Json.Oversized.crowded,
    fun _ _ _ => Program.escapes_decode_iff⟩

end

/-- ASCII characters, none of them blank. -/
def Plain (text : List Char) : Prop :=
  ∀ c ∈ text, c.toNat < 0x80 ∧ Text.isBlank c = false

/-- The text is in whatever file it is looked for. -/
def everywhere (text : List Char) : FileView :=
  fun _ => .ok (text.map fun c => UInt8.ofNat c.toNat)

theorem plain_of_all {text : List Char}
    (h : text.all (fun c => c.toNat < 0x80 && !Text.isBlank c) = true) : Plain text := by
  intro c hc
  simpa using List.all_eq_true.mp h c hc

theorem plain_replicate {c : Char} (hascii : c.toNat < 0x80) (hvisible : Text.isBlank c = false)
    (n : Nat) : Plain (List.replicate n c) := by
  intro d hd
  rw [List.eq_of_mem_replicate hd]
  exact ⟨hascii, hvisible⟩

section

variable {text : List Char}

theorem Plain.visible (h : Plain text) : ∀ c ∈ text, Text.isBlank c = false :=
  fun c hc => (h c hc).2

theorem Plain.decode (h : Plain text) :
    Utf8.decode (text.map fun c => UInt8.ofNat c.toNat) = .ok text :=
  Utf8.decodeFrom_ascii (fun c hc => (h c hc).1) 0

theorem Settings.load_everywhere (h : Plain text) (nesting : Json.Nesting) {path : Path}
    (hpath : path.hasNull = false) :
    load nesting (everywhere text) (some path) = ofText nesting text := by
  rw [load, if_neg (by simp [hpath]), everywhere]
  dsimp only
  rw [ofBytes, h.decode]
  dsimp only
  rw [Text.unifyNewlines_of_visible h.visible]

theorem Loader.load_everywhere (h : Plain text) (hne : text ≠ []) {loader : Loader}
    {name : String} (hname : (loader.resolve name).hasNull = false) :
    loader.load (everywhere text) name = Program.decode [text] name loader.limit := by
  unfold load
  dsimp only
  rw [if_neg (by simp [hname]), everywhere]
  dsimp only
  rw [h.decode]
  dsimp only
  rw [Text.unifyNewlines_of_visible h.visible, Text.lines_of_visible h.visible hne]

end

/-- It sets the value to a number of so many digits. -/
def repunitLine (n : Nat) : List Char :=
  'S' :: List.replicate n '1'

theorem plain_repunitLine (n : Nat) : Plain (repunitLine n) :=
  List.forall_mem_cons.mpr ⟨by decide, plain_replicate (by decide) (by decide) n⟩

theorem decode_repunitLine {n : Nat} (h : Numeral.digitLimit < n) (source : String) (limit : Int) :
    Program.decode [repunitLine n] source limit = .error (.numeral (.reading n)) := by
  have hargument : Text.strip (List.replicate n '1') = List.replicate n '1' :=
    Text.strip_of_visible (plain_replicate (by decide) (by decide) n).visible
  have hcode : Opcode.ofCode? (Text.upperChar 'S') = some .set := by decide
  have hline : Instruction.ofLine source 1 (repunitLine n) = .error (.numeral (.reading n)) := by
    unfold Instruction.ofLine
    rw [Text.strip_of_visible (plain_repunitLine n).visible]
    simp only [repunitLine, hargument, hcode, Numeral.leading_ones h]
    rfl
  rw [Program.decode, Program.decodeFrom, hline]
  rfl

theorem start_repunitLine {n : Nat} (h : Numeral.digitLimit < n) (nesting : Json.Nesting)
    {program : Path} (hprogram : (Loader.resolve {} program.toString).hasNull = false) :
    Simulation.start nesting (everywhere (repunitLine n)) program none =
      .error (.numeral (.reading n)) := by
  have hload := Loader.load_everywhere (plain_repunitLine n) (List.cons_ne_nil _ _) hprogram
  exact start_of_program_error rfl (hload.trans (decode_repunitLine h _ _))

theorem load_brackets {nesting : Json.Nesting} {n : Nat} (h : nesting.read < n) {path : Path}
    (hpath : path.hasNull = false) :
    Settings.load nesting (everywhere (List.replicate n '[')) (some path) =
      .error (.tooDeep .array) := by
  rw [Settings.load_everywhere (plain_replicate (by decide) (by decide) n) nesting hpath,
    Settings.ofText, Json.read_brackets h]

namespace Json

/-- An object with one member, whose name is half of a surrogate pair. -/
def halfText : List Char :=
  ['\x7b', '"', '\\', 'u', 'd', '8', '0', '0', '"', ':', '1', '\x7d']

theorem readText_half (rest : List Char) :
    readText ('\\' :: 'u' :: 'd' :: '8' :: '0' :: '0' :: '"' :: rest) = .ok ([0xD800], rest) := by
  have hpoints : readPoints ('\\' :: 'u' :: 'd' :: '8' :: '0' :: '0' :: '"' :: rest) =
      .ok ([0xD800], rest) := by
    simp [readPoints, Text.hexNumber?, Text.hexValue?]
  rw [readText, hpoints]
  rfl

theorem read_halfText (depth : Nat) :
    read (depth + 1) halfText = .ok (.object [([0xD800], .int 1)]) := by
  have hone (fuel : Nat) : readValue Numeral.digitLimit (fuel + 1) depth ['1', '\x7d'] =
      .ok (.int 1, ['\x7d']) := rfl
  have hmembers (fuel : Nat) : readMembers Numeral.digitLimit (fuel + 2) depth [] halfText.tail =
      .ok ([([0xD800], .int 1)], []) := by
    change readMembers _ _ _ _ ('"' :: '\\' :: 'u' :: 'd' :: '8' :: '0' :: '0' :: '"' :: _) = _
    rw [readMembers_of_value (readText_half _) rfl (hone fuel)]
    rfl
  have hvalue (fuel : Nat) : readValue Numeral.digitLimit (fuel + 3) (depth + 1) halfText =
      .ok (.object [([0xD800], .int 1)], []) := by
    have hfilled (tail : List Char) : skipGap halfText.tail ≠ '\x7d' :: tail := fun h => by
      cases (List.cons.inj h).1
    exact (readValue_object _ _ _ hfilled).trans (congrArg (Except.map _) (hmembers fuel))
  have hlength : 2 * halfText.length + 2 = 23 + 3 := rfl
  have hgap : skipGap halfText = halfText := rfl
  rw [read, readWithin, if_neg (by decide), hlength, hgap, hvalue 23]
  rfl

end Json

theorem load_halfText {nesting : Json.Nesting} (h : 0 < nesting.read) {path : Path}
    (hpath : path.hasNull = false) :
    Settings.load nesting (everywhere Json.halfText) (some path) =
      .error (.settings (.unknownKeys [[0xD800]])) := by
  have hplain : Plain Json.halfText := plain_of_all (by decide +kernel)
  obtain ⟨depth, hdepth⟩ := Nat.exists_eq_add_one_of_ne_zero h.ne'
  have hread : Json.read nesting.read Json.halfText = .ok (.object [([0xD800], .int 1)]) := by
    rw [hdepth]
    exact Json.read_halfText depth
  rw [Settings.load_everywhere hplain nesting hpath]
  exact Settings.ofText_unknownKeys_iff.mpr
    ⟨_, hread, by decide +kernel, List.cons_ne_nil _ _⟩

/-- A number of 4301 digits in the program, a depth beyond what can be read in the settings, and
a key of them that cannot be printed are reported by nobody. -/
theorem exists_start_escaped :
    (∀ nesting, Simulation.start nesting (everywhere (repunitLine 4301)) (.ofString "p.txt") none =
        .error (.numeral (.reading 4301)) ∧
      Session.run .stream nesting (everywhere (repunitLine 4301)) (.ofString "p.txt") none [] =
        ⟨[], .fault (.numeral (.reading 4301))⟩) ∧
    (∀ nesting : Json.Nesting, Settings.load nesting
        (everywhere (List.replicate (nesting.read + 1) '[')) (some (.ofString "c.json")) =
      .error (.tooDeep .array)) ∧
    (∀ nesting : Json.Nesting, 0 < nesting.read → Session.run .stream nesting
        (everywhere Json.halfText) (.ofString "p.txt") (some (.ofString "c.json")) [] =
      ⟨[], .fault (.unprintable ⟨0xD800, 21, 22⟩)⟩) ∧
    ∀ nesting, ¬ ∀ (files : FileView) (program : Path) (settings : Option Path),
      (∃ sim, Simulation.start nesting files program settings = .ok sim ∧ sim.booted = true) ∨
        ∃ fault, Simulation.start nesting files program settings = .error fault ∧
          fault.isReported = true := by
  have hstart (nesting : Json.Nesting) :
      Simulation.start nesting (everywhere (repunitLine 4301)) (.ofString "p.txt") none =
        .error (.numeral (.reading 4301)) :=
    start_repunitLine (by decide) nesting (by decide +kernel)
  refine ⟨fun nesting => ⟨hstart nesting, run_of_escaped (hstart nesting) rfl _ _⟩,
    fun nesting => load_brackets (Nat.lt_succ_self _) (by decide), fun nesting hread => ?_,
    fun nesting h => ?_⟩
  · rw [Session.run, start_of_settings_error (load_halfText hread (by decide))]
    decide +kernel
  · obtain ⟨sim, hsim, _⟩ | ⟨fault, hfault, hreported⟩ :=
      h (everywhere (repunitLine 4301)) (.ofString "p.txt") none
    · rw [hstart nesting] at hsim
      cases hsim
    · rw [hstart nesting] at hfault
      cases hfault
      cases hreported

end Uniproc
