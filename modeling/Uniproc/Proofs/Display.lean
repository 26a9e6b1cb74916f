import Uniproc.Json.Display
import Uniproc.Proofs.Writing

/-!
Which values a message can show. Where all integers can be written it depends on the height of
a value alone: the value is shown if it is no higher than values may be inside each other, and
is too deep otherwise.
-/

namespace Uniproc
namespace Json

mutual

/-- How many values are inside each other, the outermost among them. -/
def height : Json → Nat
  | .array items => itemsHeight items + 1
  | .object members => membersHeight members + 1
  | _ => 1

def itemsHeight : List Json → Nat
  | [] => 0
  | item :: rest => max (height item) (itemsHeight rest)

def membersHeight : List (CodePoints × Json) → Nat
  | [] => 0
  | (_, v) :: rest => max (height v) (membersHeight rest)

end

/-- A value whose integers can all be written. -/
inductive Writable : Json → Prop
  | null : Writable .null
  | bool (b : Bool) : Writable (.bool b)
  | int {n : Int} (h : Numeral.isWritable n = true) : Writable (.int n)
  | real (x : Double) : Writable (.real x)
  | text (s : CodePoints) : Writable (.text s)
  | array {items : List Json} (h : ∀ v ∈ items, Writable v) : Writable (.array items)
  | object {members : List (CodePoints × Json)} (h : ∀ m ∈ members, Writable m.2) :
      Writable (.object members)

variable {v : Json} {items : List Json} {members : List (CodePoints × Json)} {levels : Nat}

theorem itemsHeight_le_iff : itemsHeight items ≤ levels ↔ ∀ v ∈ items, v.height ≤ levels := by
  induction items with
  | nil => simp [itemsHeight]
  | cons v rest ih => rw [itemsHeight, Nat.max_le, ih, List.forall_mem_cons]

theorem membersHeight_le_iff :
    membersHeight members ≤ levels ↔ ∀ m ∈ members, m.2.height ≤ levels := by
  induction members with
  | nil => simp [membersHeight]
  | cons m rest ih => rw [membersHeight, Nat.max_le, ih, List.forall_mem_cons]

theorem height_array_le_iff :
    (Json.array items).height ≤ levels + 1 ↔ ∀ v ∈ items, v.height ≤ levels := by
  rw [height, Nat.add_le_add_iff_right, itemsHeight_le_iff]

theorem height_object_le_iff :
    (Json.object members).height ≤ levels + 1 ↔ ∀ m ∈ members, m.2.height ≤ levels := by
  rw [height, Nat.add_le_add_iff_right, membersHeight_le_iff]

theorem height_pos (v : Json) : 0 < v.height := by
  cases v <;> exact Nat.succ_pos _

/-- A text for a value that is not too high, and the fault of depth for one that is. -/
inductive Displays {α : Type} (height levels : Nat) : Except DisplayError α → Prop
  | shown {text : α} (h : height ≤ levels) : Displays height levels (.ok text)
  | tooDeep (h : levels < height) : Displays height levels (.error .tooDeep)

/-- What is written around a text does not matter. -/
theorem Displays.bind {α β : Type} {r : Except DisplayError α} {f : α → β} {height levels : Nat}
    (h : Displays height levels r) :
    Displays (height + 1) (levels + 1) (r >>= fun a => return f a) := by
  cases h with
  | shown h => exact .shown (Nat.succ_le_succ h)
  | tooDeep h => exact .tooDeep (Nat.succ_lt_succ h)

/-- One value before others. -/
theorem Displays.cons {α β : Type} {r : Except DisplayError α} {s : Except DisplayError (List β)}
    {f : α → β} {height others levels : Nat} (hr : Displays height levels r)
    (hs : Displays others levels s) :
    Displays (max height others) levels (do return f (← r) :: (← s)) := by
  cases hr with
  | tooDeep h => exact .tooDeep (Nat.lt_of_lt_of_le h (Nat.le_max_left _ _))
  | shown h =>
      cases hs with
      | tooDeep h => exact .tooDeep (Nat.lt_of_lt_of_le h (Nat.le_max_right _ _))
      | shown h' => exact .shown (Nat.max_le.mpr ⟨h, h'⟩)

theorem displays_items (h : ∀ v ∈ items, Displays v.height levels (v.display levels)) :
    Displays (itemsHeight items) levels (displayItems levels items) := by
  induction items with
  | nil => exact .shown (Nat.zero_le _)
  | cons v rest ih =>
      rw [List.forall_mem_cons] at h
      rw [itemsHeight, displayItems]
      exact h.1.cons (f := id) (ih h.2)

theorem displays_members (h : ∀ m ∈ members, Displays m.2.height levels (m.2.display levels)) :
    Displays (membersHeight members) levels (displayMembers levels members) := by
  induction members with
  | nil => exact .shown (Nat.zero_le _)
  | cons m rest ih =>
      rw [List.forall_mem_cons] at h
      rw [membersHeight, displayMembers]
      exact h.1.cons (f := fun text => Text.quotedPoints m.1 ++ ": " ++ text) (ih h.2)

theorem Writable.displays (h : v.Writable) (levels : Nat) :
    Displays v.height levels (v.display levels) := by
  induction h generalizing levels with
  | null | bool _ | real _ | text _ =>
      cases levels with
      | zero => exact .tooDeep (height_pos _)
      | succ levels => exact .shown (Nat.succ_pos levels)
  | @int n h =>
      cases levels with
      | zero => exact .tooDeep (height_pos _)
      | succ levels =>
          rw [display, Numeral.text_of_isWritable h]
          exact .shown (Nat.succ_pos levels)
  | array h ih =>
      cases levels with
      | zero => exact .tooDeep (height_pos _)
      | succ levels =>
          rw [height, display]
          exact (displays_items fun v hv => ih v hv levels).bind
  | object h ih =>
      cases levels with
      | zero => exact .tooDeep (height_pos _)
      | succ levels =>
          rw [height, display]
          exact (displays_members fun m hm => ih m hm levels).bind

theorem Writable.display_of_le (h : v.Writable) (hheight : v.height ≤ levels) :
    ∃ text, v.display levels = .ok text := by
  have hdisplays := h.displays levels
  generalize v.display levels = r at hdisplays ⊢
  cases hdisplays with
  | shown _ => exact ⟨_, rfl⟩
  | tooDeep hdeep => exact absurd hheight (Nat.not_le.mpr hdeep)

theorem Writable.display_of_lt (h : v.Writable) (hheight : levels < v.height) :
    v.display levels = .error .tooDeep := by
  have hdisplays := h.displays levels
  generalize v.display levels = r at hdisplays ⊢
  cases hdisplays with
  | shown hshown => exact absurd hshown (Nat.not_le.mpr hheight)
  | tooDeep _ => rfl

end Json
end Uniproc
