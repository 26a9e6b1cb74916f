import Mathlib.Data.List.Lex
import Mathlib.Data.List.Sort
import Uniproc.Proofs.Display
import Uniproc.Settings.Basic

/-!
Which mappings are settings. Names, kinds of values and ranges are looked at one after the
other, so that a mapping with several faults is refused for the first of them only. The order
of the members decides which value of a wrong kind is named, and nothing else. A value of a
wrong kind has to be shown for that, which fails if it is too high.
-/

namespace Uniproc

theorem CodePoints.le_iff {s t : CodePoints} : le s t = true ↔ s ≤ t := by
  rw [le, Bool.not_eq_true', Bool.eq_false_iff, ne_eq, List.lex_eq_true_iff_lt]
  exact not_lt

theorem CodePoints.pairwise_mergeSort (names : List CodePoints) :
    (names.mergeSort le).Pairwise (· ≤ ·) := by
  refine (List.pairwise_mergeSort (fun r s t hrs hst => ?_) (fun s t => ?_) names).imp le_iff.mp
  · exact le_iff.mpr ((le_iff.mp hrs).trans (le_iff.mp hst))
  · rw [Bool.or_eq_true, le_iff, le_iff]
    exact le_total s t

namespace Settings

/-- The name of a key as a mapping has it. -/
def Key.points (key : Key) : CodePoints :=
  .ofString key.name

/-- The value is of the kind. A switch is no number. -/
def Kind.admits : Kind → Json → Bool
  | .int, .int _ => true
  | .bool, .bool _ => true
  | _, _ => false

/-- The values that a setting can have: its numbers start from 1. -/
inductive Allowed : Key → Json → Prop
  | tableCapacity {n : Int} (h : 1 ≤ n) : Allowed .tableCapacity (.int n)
  | maxProgramLength {n : Int} (h : 1 ≤ n) : Allowed .maxProgramLength (.int n)
  | revert (b : Bool) : Allowed .revert (.bool b)

def value (s : Settings) : Key → Json
  | .tableCapacity => .int s.tableCapacity
  | .maxProgramLength => .int s.maxProgramLength
  | .revert => .bool s.revert

/-- Every name is one of a key. -/
def Known (members : List (CodePoints × Json)) : Prop :=
  ∀ m ∈ members, ∃ key : Key, m.1 = key.points

/-- Every name is one of a key, and its value of the kind of that key. -/
def Typed (members : List (CodePoints × Json)) : Prop :=
  ∀ m ∈ members, ∃ key : Key, m.1 = key.points ∧ key.kind.admits m.2 = true

/-- Every name is one of a key, and its value one that this setting can have. -/
def Accepted (members : List (CodePoints × Json)) : Prop :=
  ∀ m ∈ members, ∃ key : Key, m.1 = key.points ∧ Allowed key m.2

/-- Settings that have the values given, and elsewhere those of `s`. -/
structure Overrides (s : Settings) (members : List (CodePoints × Json)) (s' : Settings) :
    Prop where
  given {key : Key} {v : Json} (h : (key.points, v) ∈ members) : s'.value key = v
  kept {key : Key} (h : key.points ∉ members.map (·.1)) : s'.value key = s.value key

/-- The first value of a wrong kind, in a mapping without unknown names. -/
structure FirstUntyped (members : List (CodePoints × Json)) (key : Key) (v : Json) : Prop where
  known : Known members
  first : ∃ before after, members = before ++ (key.points, v) :: after ∧ Typed before
  untyped : key.kind.admits v = false

/-- What a mapping is refused for. A constructor requires that those before it do not apply. -/
inductive Blamed (levels : Nat) (members : List (CodePoints × Json)) : Error → Prop
  | unknownKeys {names : List CodePoints} (hne : names ≠ []) (hsorted : names.Pairwise (· < ·))
      (hnames : ∀ name, name ∈ names ↔
        name ∈ members.map (·.1) ∧ ∀ key : Key, name ≠ key.points) :
      Blamed levels members (.unknownKeys names)
  | wrongKind {key : Key} {v : Json} {got : String} (hfirst : FirstUntyped members key v)
      (hgot : v.display levels = .ok got) :
      Blamed levels members (.wrongKind key.name key.kind got)
  | tableCapacity {n : Int} (htyped : Typed members)
      (hn : (Key.tableCapacity.points, .int n) ∈ members) (hsmall : n < 1) :
      Blamed levels members (.tooSmall Key.tableCapacity.name)
  | maxProgramLength {n : Int} (htyped : Typed members)
      (hcapacity : ∀ k, (Key.tableCapacity.points, .int k) ∈ members → 1 ≤ k)
      (hn : (Key.maxProgramLength.points, .int n) ∈ members) (hsmall : n < 1) :
      Blamed levels members (.tooSmall Key.maxProgramLength.name)

/-- The first value of a wrong kind is too high to be shown. -/
def Buried (levels : Nat) (members : List (CodePoints × Json)) : Prop :=
  ∃ key v, FirstUntyped members key v ∧ levels < v.height

theorem Key.ofName?_points (key : Key) : ofName? key.points = some key := by
  cases key <;> rfl

theorem Key.eq_points_of_ofName? {name : CodePoints} {key : Key} (h : ofName? name = some key) :
    name = key.points := by
  have hfound := List.find?_some h
  exact (eq_of_beq hfound).symm

theorem Key.ofName?_eq_none_iff {name : CodePoints} :
    ofName? name = none ↔ ∀ key : Key, name ≠ key.points := by
  constructor
  · rintro h key rfl
    rw [ofName?_points] at h
    cases h
  · intro h
    cases hname : ofName? name with
    | none => rfl
    | some key => exact absurd (eq_points_of_ofName? hname) (h key)

theorem Key.points_injective : Function.Injective points := by
  intro key other h
  have hname := congrArg ofName? h
  rwa [ofName?_points, ofName?_points, Option.some.injEq] at hname

theorem ext_value {s t : Settings} (h : ∀ key, s.value key = t.value key) : s = t := by
  have hcapacity := Json.int.inj (h .tableCapacity)
  have hlength := Json.int.inj (h .maxProgramLength)
  have hrevert := Json.bool.inj (h .revert)
  cases s
  cases t
  cases hcapacity
  cases hlength
  cases hrevert
  rfl

section

variable {levels : Nat} {s s' t : Settings} {members before rest : List (CodePoints × Json)}
  {key : Key} {v : Json}

theorem Allowed.admits (h : Allowed key v) : key.kind.admits v = true := by
  cases h <;> rfl

theorem Accepted.typed (h : Accepted members) : Typed members := fun m hm => by
  obtain ⟨key, hname, hv⟩ := h m hm
  exact ⟨key, hname, hv.admits⟩

theorem Typed.known (h : Typed members) : Known members := fun m hm => by
  obtain ⟨key, hname, _⟩ := h m hm
  exact ⟨key, hname⟩

theorem overrides_singleton (hkey : s'.value key = v)
    (hother : ∀ other ≠ key, s'.value other = s.value other) :
    Overrides s [(key.points, v)] s' where
  given h := by
    obtain ⟨hname, rfl⟩ := Prod.mk.inj (List.mem_singleton.mp h)
    rw [Key.points_injective hname, hkey]
  kept h := hother _ fun heq => h (by simp [heq])

/-- A value of the right kind overrides its setting and no other. -/
theorem override_of_admits (levels : Nat) (s : Settings) (h : key.kind.admits v = true) :
    ∃ s', s.override levels key v = .ok s' ∧ Overrides s [(key.points, v)] s' := by
  match key, v, h with
  | .tableCapacity, .int n, _ =>
      refine ⟨_, rfl, overrides_singleton rfl fun other hother => ?_⟩
      cases other with
      | tableCapacity => exact absurd rfl hother
      | _ => rfl
  | .maxProgramLength, .int n, _ =>
      refine ⟨_, rfl, overrides_singleton rfl fun other hother => ?_⟩
      cases other with
      | maxProgramLength => exact absurd rfl hother
      | _ => rfl
  | .revert, .bool b, _ =>
      refine ⟨_, rfl, overrides_singleton rfl fun other hother => ?_⟩
      cases other with
      | revert => exact absurd rfl hother
      | _ => rfl

/-- What comes of a value of a wrong kind depends on whether it can be shown. -/
def refusal (key : Key) : Except Json.DisplayError String → Fault
  | .ok got => .settings (.wrongKind key.name key.kind got)
  | .error cause => .ofDisplayError cause

theorem override_of_not_admits (levels : Nat) (s : Settings) (h : key.kind.admits v = false) :
    s.override levels key v = .error (refusal key (v.display levels)) := by
  unfold override
  split
  · cases h
  · cases h
  · cases h
  · cases v.display levels <;> rfl

theorem Overrides.trans {u : Settings} (hnew : key.points ∉ rest.map (·.1))
    (h : Overrides s [(key.points, v)] t) (hrest : Overrides t rest u) :
    Overrides s ((key.points, v) :: rest) u where
  given hmem := by
    rcases List.mem_cons.mp hmem with heq | hmem
    · obtain ⟨hname, rfl⟩ := Prod.mk.inj heq
      rw [Key.points_injective hname, hrest.kept hnew]
      exact h.given (List.mem_singleton.mpr rfl)
    · exact hrest.given hmem
  kept hname := by
    rw [List.map_cons, List.mem_cons, not_or] at hname
    rw [hrest.kept hname.2]
    exact h.kept (by simpa using hname.1)

/-- Members of the right kinds override their settings, whatever comes behind them. -/
theorem overrideAll_append (levels : Nat) (s : Settings) (hnodup : (before.map (·.1)).Nodup)
    (htyped : Typed before) :
    ∃ t, Overrides s before t ∧ ∀ rest,
      s.overrideAll levels (before ++ rest) = t.overrideAll levels rest := by
  induction before generalizing s with
  | nil => exact ⟨s, ⟨nofun, fun _ => rfl⟩, fun _ => rfl⟩
  | cons m before ih =>
      obtain ⟨name, v⟩ := m
      rw [List.map_cons, List.nodup_cons] at hnodup
      obtain ⟨key, rfl, hv⟩ := htyped (name, v) List.mem_cons_self
      obtain ⟨t, hoverride, hfirst⟩ := override_of_admits levels s hv
      obtain ⟨u, hbefore, hrest⟩ := ih t hnodup.2 fun m hm => htyped m (List.mem_cons_of_mem _ hm)
      refine ⟨u, hfirst.trans hnodup.1 hbefore, fun rest => ?_⟩
      rw [List.cons_append, overrideAll, Key.ofName?_points]
      simp only [hoverride]
      exact hrest rest

theorem overrideAll_of_typed (levels : Nat) (s : Settings) (hnodup : (members.map (·.1)).Nodup)
    (htyped : Typed members) :
    ∃ t, Overrides s members t ∧ s.overrideAll levels members = .ok t := by
  obtain ⟨t, hoverrides, hall⟩ := overrideAll_append levels s hnodup htyped
  have hall := hall []
  rw [List.append_nil] at hall
  exact ⟨t, hoverrides, hall⟩

theorem mem_unknownKeys_iff {name : CodePoints} : name ∈ unknownKeys members ↔
    name ∈ members.map (·.1) ∧ ∀ key : Key, name ≠ key.points := by
  rw [unknownKeys, List.mem_mergeSort, List.mem_filter, Option.isNone_iff_eq_none,
    Key.ofName?_eq_none_iff]

theorem pairwise_unknownKeys (hnodup : (members.map (·.1)).Nodup) :
    (unknownKeys members).Pairwise (· < ·) := by
  have hnodup : (unknownKeys members).Nodup :=
    (List.mergeSort_perm _ _).nodup_iff.mpr (hnodup.filter _)
  exact (CodePoints.pairwise_mergeSort _).imp₂ (fun _ _ hle hne => lt_of_le_of_ne hle hne) hnodup

theorem unknownKeys_eq_nil_iff : unknownKeys members = [] ↔ Known members := by
  constructor
  · intro hnil m hm
    by_contra hkey
    have hmem : m.1 ∈ unknownKeys members :=
      mem_unknownKeys_iff.mpr ⟨List.mem_map_of_mem hm, fun key hname => hkey ⟨key, hname⟩⟩
    rw [hnil] at hmem
    cases hmem
  · intro hknown
    refine List.eq_nil_iff_forall_not_mem.mpr fun name hname => ?_
    obtain ⟨hmem, hkey⟩ := mem_unknownKeys_iff.mp hname
    obtain ⟨m, hm, rfl⟩ := List.mem_map.mp hmem
    obtain ⟨key, hpoints⟩ := hknown m hm
    exact hkey key hpoints

/-- The unknown names in order are the only list of them that is sorted. -/
theorem unknownKeys_eq {names : List CodePoints} (hnodup : (members.map (·.1)).Nodup)
    (hsorted : names.Pairwise (· < ·)) (hnames : ∀ name, name ∈ names ↔
      name ∈ members.map (·.1) ∧ ∀ key : Key, name ≠ key.points) :
    unknownKeys members = names :=
  (pairwise_unknownKeys hnodup).eq_of_mem_iff hsorted fun name =>
    mem_unknownKeys_iff.trans (hnames name).symm

theorem ofMembers_of_known (levels : Nat) (h : Known members) :
    ofMembers levels members = overrideAll {} levels members >>= validate := by
  rw [ofMembers, unknownKeys_eq_nil_iff.mpr h]

theorem ofMembers_of_typed (levels : Nat) (hnodup : (members.map (·.1)).Nodup)
    (htyped : Typed members) :
    ∃ s, Overrides {} members s ∧ ofMembers levels members = s.validate := by
  obtain ⟨s, hoverrides, hall⟩ := overrideAll_of_typed levels {} hnodup htyped
  refine ⟨s, hoverrides, ?_⟩
  rw [ofMembers_of_known levels htyped.known, hall]
  rfl

theorem Overrides.unique (h : Overrides s members s') (h' : Overrides s members t) : s' = t := by
  refine ext_value fun key => ?_
  by_cases hkey : key.points ∈ members.map (·.1)
  · obtain ⟨⟨_, v⟩, hm, rfl⟩ := List.mem_map.mp hkey
    rw [h.given hm, h'.given hm]
  · rw [h.kept hkey, h'.kept hkey]

theorem Overrides.allowed (h : Overrides s members s') (hs : Allowed key (s.value key))
    (hmembers : ∀ v, (key.points, v) ∈ members → Allowed key v) :
    Allowed key (s'.value key) := by
  by_cases hkey : key.points ∈ members.map (·.1)
  · obtain ⟨⟨_, v⟩, hm, rfl⟩ := List.mem_map.mp hkey
    rw [h.given hm]
    exact hmembers v hm
  · rw [h.kept hkey]
    exact hs

theorem allowed_default (key : Key) : Allowed key (({} : Settings).value key) := by
  cases key with
  | tableCapacity => exact .tableCapacity (by decide)
  | maxProgramLength => exact .maxProgramLength (by decide)
  | revert => exact .revert false

/-- What holds of each key and its value holds of the one key that has the name. -/
theorem of_forall_named {P : Key → Json → Prop}
    (h : ∀ m ∈ members, ∃ key : Key, m.1 = key.points ∧ P key m.2)
    (hm : (key.points, v) ∈ members) : P key v := by
  obtain ⟨other, hname, hv⟩ := h _ hm
  rwa [Key.points_injective hname]

theorem Typed.admits (h : Typed members) (hm : (key.points, v) ∈ members) :
    key.kind.admits v = true :=
  @of_forall_named members key v (fun key v => key.kind.admits v = true) h hm

theorem Accepted.allowed (h : Accepted members) (hm : (key.points, v) ∈ members) :
    Allowed key v :=
  of_forall_named h hm

theorem validate_of_allowed (h : ∀ key, Allowed key (s.value key)) : s.validate = .ok s := by
  have hcapacity : 1 ≤ s.tableCapacity := by
    cases h .tableCapacity with
    | tableCapacity hn => exact hn
  have hlength : 1 ≤ s.maxProgramLength := by
    cases h .maxProgramLength with
    | maxProgramLength hn => exact hn
  rw [validate, if_neg (Int.not_lt.mpr hcapacity), if_neg (Int.not_lt.mpr hlength)]

theorem Accepted.ofMembers_eq (levels : Nat) (hnodup : (members.map (·.1)).Nodup)
    (h : Accepted members) : ∃ s, Overrides {} members s ∧ ofMembers levels members = .ok s := by
  obtain ⟨s, hoverrides, hmembers⟩ := ofMembers_of_typed levels hnodup h.typed
  have hallowed (key : Key) : Allowed key (s.value key) :=
    hoverrides.allowed (allowed_default key) fun _ hm => h.allowed hm
  exact ⟨s, hoverrides, hmembers.trans (validate_of_allowed hallowed)⟩

theorem FirstUntyped.ofMembers_eq (levels : Nat) (hnodup : (members.map (·.1)).Nodup)
    (h : FirstUntyped members key v) :
    ofMembers levels members = .error (refusal key (v.display levels)) := by
  obtain ⟨hknown, ⟨before, after, rfl, hbefore⟩, hv⟩ := h
  rw [ofMembers_of_known levels hknown]
  rw [List.map_append] at hnodup
  obtain ⟨t, _, hall⟩ := overrideAll_append levels {} hnodup.of_append_left hbefore
  rw [hall, overrideAll, Key.ofName?_points]
  simp only [override_of_not_admits levels t hv]
  rfl

theorem Blamed.ofMembers_eq {cause : Error} (hnodup : (members.map (·.1)).Nodup)
    (h : Blamed levels members cause) : ofMembers levels members = .error (.settings cause) := by
  cases h with
  | @unknownKeys names hne hsorted hnames =>
      rw [ofMembers, unknownKeys_eq hnodup hsorted hnames]
      cases names with
      | nil => exact absurd rfl hne
      | cons name names => rfl
  | wrongKind hfirst hgot => rw [hfirst.ofMembers_eq levels hnodup, hgot, refusal]
  | @tableCapacity n htyped hn hsmall =>
      obtain ⟨s, hoverrides, hmembers⟩ := ofMembers_of_typed levels hnodup htyped
      have hvalue : s.tableCapacity = n := Json.int.inj (hoverrides.given hn)
      rw [hmembers, validate, hvalue, if_pos hsmall]
  | @maxProgramLength n htyped hcapacity hn hsmall =>
      obtain ⟨s, hoverrides, hmembers⟩ := ofMembers_of_typed levels hnodup htyped
      have hvalue : s.maxProgramLength = n := Json.int.inj (hoverrides.given hn)
      have hallowed : Allowed .tableCapacity (s.value .tableCapacity) := by
        refine hoverrides.allowed (allowed_default _) fun v hm => ?_
        match v, htyped.admits hm with
        | .int k, _ => exact .tableCapacity (hcapacity k hm)
      cases hallowed with
      | tableCapacity h =>
          rw [hmembers, validate, if_neg (Int.not_lt.mpr h), hvalue, if_pos hsmall]

theorem FirstUntyped.writable (h : FirstUntyped members key v)
    (hwritable : ∀ m ∈ members, m.2.Writable) : v.Writable := by
  obtain ⟨before, after, rfl, _⟩ := h.first
  exact hwritable (key.points, v) (by simp)

theorem Buried.ofMembers_eq (hnodup : (members.map (·.1)).Nodup)
    (hwritable : ∀ m ∈ members, m.2.Writable) (h : Buried levels members) :
    ofMembers levels members = .error .tooDeepToShow := by
  obtain ⟨key, v, hfirst, hheight⟩ := h
  rw [hfirst.ofMembers_eq levels hnodup, (hfirst.writable hwritable).display_of_lt hheight]
  rfl

theorem exists_firstUntyped (hknown : Known members) (h : ¬ Typed members) :
    ∃ key v, FirstUntyped members key v := by
  induction members with
  | nil => exact absurd nofun h
  | cons m rest ih =>
      obtain ⟨name, v⟩ := m
      obtain ⟨key, rfl⟩ := hknown (name, v) List.mem_cons_self
      cases hv : key.kind.admits v with
      | false => exact ⟨key, v, hknown, ⟨[], rest, rfl, nofun⟩, hv⟩
      | true =>
          have htyped {before : List (CodePoints × Json)} (hbefore : Typed before) :
              Typed ((key.points, v) :: before) :=
            List.forall_mem_cons.mpr ⟨⟨key, rfl, hv⟩, hbefore⟩
          obtain ⟨other, w, _, ⟨before, after, rfl, hbefore⟩, hw⟩ :=
            ih (fun m hm => hknown m (List.mem_cons_of_mem _ hm)) fun hrest => h (htyped hrest)
          exact ⟨other, w, hknown, ⟨_, after, rfl, htyped hbefore⟩, hw⟩

theorem Typed.accepted (h : Typed members)
    (hcapacity : ∀ n, (Key.tableCapacity.points, .int n) ∈ members → 1 ≤ n)
    (hlength : ∀ n, (Key.maxProgramLength.points, .int n) ∈ members → 1 ≤ n) :
    Accepted members := by
  rintro ⟨name, v⟩ hm
  obtain ⟨key, rfl, hv⟩ := h _ hm
  refine ⟨key, rfl, ?_⟩
  match key, v, hv with
  | .tableCapacity, .int n, _ => exact .tableCapacity (hcapacity n hm)
  | .maxProgramLength, .int n, _ => exact .maxProgramLength (hlength n hm)
  | .revert, .bool b, _ => exact .revert b

/-- A mapping that is not accepted has something to be refused for, which may be too high to be
shown. -/
theorem accepted_or_refused (levels : Nat) (hnodup : (members.map (·.1)).Nodup)
    (hwritable : ∀ m ∈ members, m.2.Writable) :
    Accepted members ∨ (∃ cause, Blamed levels members cause) ∨ Buried levels members := by
  by_cases hknown : Known members
  · by_cases htyped : Typed members
    · by_cases hcapacity : ∃ n, (Key.tableCapacity.points, .int n) ∈ members ∧ n < 1
      · obtain ⟨n, hn, hsmall⟩ := hcapacity
        exact .inr (.inl ⟨_, .tableCapacity htyped hn hsmall⟩)
      · have hcapacity (n : Int) (hn : (Key.tableCapacity.points, .int n) ∈ members) : 1 ≤ n :=
          Int.not_lt.mp fun hsmall => hcapacity ⟨n, hn, hsmall⟩
        by_cases hlength : ∃ n, (Key.maxProgramLength.points, .int n) ∈ members ∧ n < 1
        · obtain ⟨n, hn, hsmall⟩ := hlength
          exact .inr (.inl ⟨_, .maxProgramLength htyped hcapacity hn hsmall⟩)
        · exact .inl (htyped.accepted hcapacity fun n hn =>
            Int.not_lt.mp fun hsmall => hlength ⟨n, hn, hsmall⟩)
    · obtain ⟨key, v, hfirst⟩ := exists_firstUntyped hknown htyped
      by_cases hheight : v.height ≤ levels
      · obtain ⟨got, hgot⟩ := (hfirst.writable hwritable).display_of_le hheight
        exact .inr (.inl ⟨_, .wrongKind hfirst hgot⟩)
      · exact .inr (.inr ⟨key, v, hfirst, Nat.lt_of_not_le hheight⟩)
  · refine .inr (.inl ⟨_, .unknownKeys (fun hnil => ?_) (pairwise_unknownKeys hnodup) fun _ =>
      mem_unknownKeys_iff⟩)
    exact hknown (unknownKeys_eq_nil_iff.mp hnil)

theorem Accepted.perm {other : List (CodePoints × Json)} (hperm : other.Perm members)
    (h : Accepted members) : Accepted other :=
  fun m hm => h m (hperm.mem_iff.mp hm)

theorem Overrides.perm {other : List (CodePoints × Json)} (hperm : other.Perm members)
    (h : Overrides s other s') : Overrides s members s' where
  given hm := h.given (hperm.mem_iff.mpr hm)
  kept hkey := h.kept fun hmem => hkey ((hperm.map _).mem_iff.mp hmem)

/-- All that can come of a mapping. -/
inductive Outcome (levels : Nat) (members : List (CodePoints × Json)) : Prop
  | accepted {s : Settings} (h : Accepted members) (hoverrides : Overrides {} members s)
      (hs : ofMembers levels members = .ok s)
  | blamed {cause : Error} (h : Blamed levels members cause)
      (hcause : ofMembers levels members = .error (.settings cause))
  | buried (h : Buried levels members) (hdeep : ofMembers levels members = .error .tooDeepToShow)

theorem outcome (levels : Nat) (hnodup : (members.map (·.1)).Nodup)
    (hwritable : ∀ m ∈ members, m.2.Writable) : Outcome levels members := by
  obtain haccepted | ⟨cause, hcause⟩ | hburied := accepted_or_refused levels hnodup hwritable
  · obtain ⟨s, hoverrides, hs⟩ := haccepted.ofMembers_eq levels hnodup
    exact .accepted haccepted hoverrides hs
  · exact .blamed hcause (hcause.ofMembers_eq hnodup)
  · exact .buried hburied (hburied.ofMembers_eq hnodup hwritable)

theorem exists_ofMembers_ok_iff (hnodup : (members.map (·.1)).Nodup)
    (hwritable : ∀ m ∈ members, m.2.Writable) :
    (∃ s, ofMembers levels members = .ok s) ↔ Accepted members := by
  constructor
  · rintro ⟨s, hs⟩
    cases outcome levels hnodup hwritable with
    | accepted h => exact h
    | blamed _ herror | buried _ herror => simp [hs] at herror
  · intro haccepted
    obtain ⟨s, _, hs⟩ := haccepted.ofMembers_eq levels hnodup
    exact ⟨s, hs⟩

theorem ofMembers_settings_iff {cause : Error} (hnodup : (members.map (·.1)).Nodup)
    (hwritable : ∀ m ∈ members, m.2.Writable) :
    ofMembers levels members = .error (.settings cause) ↔ Blamed levels members cause := by
  refine ⟨fun hcause => ?_, fun h => h.ofMembers_eq hnodup⟩
  cases outcome levels hnodup hwritable with
  | accepted _ _ hs => simp [hs] at hcause
  | blamed h herror =>
      rw [herror] at hcause
      cases hcause
      exact h
  | buried _ hdeep => simp [hdeep] at hcause

theorem ofMembers_tooDeepToShow_iff (hnodup : (members.map (·.1)).Nodup)
    (hwritable : ∀ m ∈ members, m.2.Writable) :
    ofMembers levels members = .error .tooDeepToShow ↔ Buried levels members := by
  refine ⟨fun hdeep => ?_, fun h => h.ofMembers_eq hnodup hwritable⟩
  cases outcome levels hnodup hwritable with
  | accepted _ _ hs => simp [hs] at hdeep
  | blamed _ herror => simp [herror] at hdeep
  | buried h => exact h

/-- The values decide, and not the order in which they are given. -/
theorem Accepted.ofMembers_perm {other : List (CodePoints × Json)}
    (hnodup : (members.map (·.1)).Nodup) (haccepted : Accepted members)
    (hperm : other.Perm members) : ofMembers levels other = ofMembers levels members := by
  obtain ⟨s, hoverrides, hs⟩ := haccepted.ofMembers_eq levels hnodup
  have hnodup : (other.map (·.1)).Nodup := (hperm.map _).nodup_iff.mpr hnodup
  obtain ⟨t, hother, ht⟩ := (haccepted.perm hperm).ofMembers_eq levels hnodup
  rw [hs, ht, (hother.perm hperm).unique hoverrides]

/-- A mapping gives settings exactly if it is accepted: those with the values given, whatever
the order, and the defaults elsewhere. Any other is refused, for what is to blame first; only
where that is a value of a wrong kind that is too high to be shown, showing it fails instead. -/
theorem ofMembers_ok_or_blamed (levels : Nat) (hnodup : (members.map (·.1)).Nodup)
    (hwritable : ∀ m ∈ members, m.2.Writable) :
    ((∃ s, ofMembers levels members = .ok s) ↔ Accepted members) ∧
    (∀ s, ofMembers levels members = .ok s → Overrides {} members s ∧
      ∀ other, other.Perm members → ofMembers levels other = .ok s) ∧
    (¬ Accepted members →
      (∃ cause, ofMembers levels members = .error (.settings cause)) ∨ Buried levels members) ∧
    (∀ cause, ofMembers levels members = .error (.settings cause) ↔
      Blamed levels members cause) ∧
    (ofMembers levels members = .error .tooDeepToShow ↔ Buried levels members) := by
  have hok : (∃ s, ofMembers levels members = .ok s) ↔ Accepted members :=
    exists_ofMembers_ok_iff hnodup hwritable
  refine ⟨hok, fun s hs => ?_, fun hrefused => ?_, fun cause => ?_, ?_⟩
  · have haccepted := hok.mp ⟨s, hs⟩
    obtain ⟨t, hoverrides, ht⟩ := haccepted.ofMembers_eq levels hnodup
    obtain rfl := Except.ok.inj (ht.symm.trans hs)
    exact ⟨hoverrides, fun other hperm => (haccepted.ofMembers_perm hnodup hperm).trans hs⟩
  · cases outcome levels hnodup hwritable with
    | accepted h => exact absurd h hrefused
    | blamed _ hcause => exact .inl ⟨_, hcause⟩
    | buried h => exact .inr h
  · exact ofMembers_settings_iff hnodup hwritable
  · exact ofMembers_tooDeepToShow_iff hnodup hwritable

/-- A capacity that is a switch is told before a length that is too small. A capacity alone
leaves the rest as it is by default. -/
theorem ofMembers_ok_or_blamed_capacity :
    ofMembers 1 [(Key.maxProgramLength.points, .int 0), (Key.tableCapacity.points, .bool true)] =
        .error (.settings (.wrongKind "table_capacity" .int "True")) ∧
      ∃ s, ofMembers 1 [(Key.tableCapacity.points, .int 4)] = .ok s ∧
        s.tableCapacity = 4 ∧ s.maxProgramLength = 100 := by
  have hzero : (Json.int 0).Writable := .int (by decide +kernel)
  have hfour : (Json.int 4).Writable := .int (by decide +kernel)
  constructor
  · have hbefore : Typed [(Key.maxProgramLength.points, .int 0)] :=
      List.forall_mem_singleton.mpr ⟨_, rfl, rfl⟩
    have hknown : Known
        [(Key.maxProgramLength.points, .int 0), (Key.tableCapacity.points, .bool true)] :=
      List.forall_mem_cons.mpr ⟨⟨_, rfl⟩, List.forall_mem_singleton.mpr ⟨_, rfl⟩⟩
    refine ((ofMembers_ok_or_blamed 1 (by decide) ?_).2.2.2.1 _).mpr ?_
    · exact List.forall_mem_cons.mpr ⟨hzero, List.forall_mem_singleton.mpr (.bool true)⟩
    · exact @Blamed.wrongKind _ _ .tableCapacity (.bool true) _
        ⟨hknown, ⟨_, [], rfl, hbefore⟩, rfl⟩ rfl
  · have hsettings := @ofMembers_ok_or_blamed [(Key.tableCapacity.points, .int 4)] 1 (by decide)
      (List.forall_mem_singleton.mpr hfour)
    obtain ⟨s, hs⟩ := hsettings.1.mpr
      (List.forall_mem_singleton.mpr ⟨.tableCapacity, rfl, .tableCapacity (by decide)⟩)
    obtain ⟨hoverrides, _⟩ := hsettings.2.1 s hs
    exact ⟨s, hs, Json.int.inj (hoverrides.given (List.mem_singleton.mpr rfl)),
      Json.int.inj (@Overrides.kept _ _ _ hoverrides .maxProgramLength (by decide))⟩

/-- Arrays inside each other, `n` more inside the outermost one. -/
def nested : Nat → Json
  | 0 => .array []
  | n + 1 => .array [nested n]

theorem writable_nested (n : Nat) : (nested n).Writable := by
  induction n with
  | zero => exact .array nofun
  | succ n ih => exact .array (List.forall_mem_singleton.mpr ih)

theorem height_nested (n : Nat) : (nested n).height = n + 1 := by
  induction n with
  | zero => rfl
  | succ n ih => rw [nested, Json.height, Json.itemsHeight, Json.itemsHeight, ih, Nat.max_zero]

theorem buried_nested (levels : Nat) : Buried levels [(Key.tableCapacity.points, nested levels)] := by
  have huntyped : Key.tableCapacity.kind.admits (nested levels) = false := by
    cases levels <;> rfl
  refine ⟨.tableCapacity, nested levels, ⟨?_, ⟨[], [], rfl, nofun⟩, huntyped⟩, ?_⟩
  · exact List.forall_mem_singleton.mpr ⟨_, rfl⟩
  · rw [height_nested]
    exact Nat.lt_succ_self levels

theorem ofMembers_nested (levels : Nat) :
    ofMembers levels [(Key.tableCapacity.points, nested levels)] = .error .tooDeepToShow :=
  (buried_nested levels).ofMembers_eq (by simp)
    (List.forall_mem_singleton.mpr (writable_nested levels))

/-- However many values may be inside each other, a capacity with one more of them is no
capacity and is not told as such. -/
theorem exists_ofMembers_unreported :
    ofMembers 999 [(Key.tableCapacity.points, nested 999)] = .error .tooDeepToShow ∧
    ∀ levels, ¬ ∀ members : List (CodePoints × Json), (members.map (·.1)).Nodup →
      (∀ m ∈ members, m.2.Writable) → ¬ Accepted members →
        ∃ cause, ofMembers levels members = .error (.settings cause) := by
  refine ⟨ofMembers_nested 999, fun levels h => ?_⟩
  have hwritable : ∀ m ∈ [(Key.tableCapacity.points, nested levels)], m.2.Writable :=
    List.forall_mem_singleton.mpr (writable_nested levels)
  have hdeep := ofMembers_nested levels
  have hrefused : ¬ Accepted [(Key.tableCapacity.points, nested levels)] := fun haccepted => by
    obtain ⟨s, _, hs⟩ := haccepted.ofMembers_eq levels (by simp)
    simp [hdeep] at hs
  obtain ⟨cause, hcause⟩ := h _ (by simp) hwritable hrefused
  simp [hdeep] at hcause

end

end Settings
end Uniproc
