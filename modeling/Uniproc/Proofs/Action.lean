import Uniproc.Action

/-!
Running an action from a given state: the laws that take a sequence of actions apart,
one action at a time.
-/

namespace Uniproc
namespace Action

variable {σ τ α β : Type}

/-- The state that an action leaves, whether it has failed or not. -/
def stateOf : EStateM.Result Fault σ α → σ
  | .ok _ s => s
  | .error _ s => s

theorem perform_snd (action : Action σ α) (s : σ) :
    (action.perform s).2 = stateOf (action s) := by
  unfold perform stateOf
  cases action s <;> rfl

/-- The result with another answer and another state. -/
def mapResult (g : σ → τ) (f : α → β) : EStateM.Result Fault σ α → EStateM.Result Fault τ β
  | .ok a s => .ok (f a) (g s)
  | .error fault s => .error fault (g s)

@[simp] theorem mapResult_ok (g : σ → τ) (f : α → β) (a : α) (s : σ) :
    mapResult g f (.ok a s) = .ok (f a) (g s) := rfl

@[simp] theorem mapResult_error (g : σ → τ) (f : α → β) (fault : Fault) (s : σ) :
    mapResult g f (.error fault s) = .error fault (g s) := rfl

theorem mapResult_mapResult {υ γ : Type} (g : σ → τ) (f : α → β) (g' : τ → υ) (f' : β → γ)
    (r : EStateM.Result Fault σ α) :
    mapResult g' f' (mapResult g f r) = mapResult (g' ∘ g) (f' ∘ f) r := by
  cases r <;> rfl

theorem map_eq (f : α → β) (action : Action σ α) (s : σ) :
    (f <$> action) s = mapResult id f (action s) := by
  simp only [Functor.map, EStateM.map]
  cases action s <;> rfl

theorem bind_of_ok {x : Action σ α} {s s' : σ} {a : α} (h : x s = .ok a s')
    (f : α → Action σ β) : (x >>= f) s = f a s' := by
  simp only [bind, EStateM.bind, h]

theorem bind_of_error {x : Action σ α} {s s' : σ} {fault : Fault} (h : x s = .error fault s')
    (f : α → Action σ β) : (x >>= f) s = .error fault s' := by
  simp only [bind, EStateM.bind, h]

theorem bind_get (f : σ → Action σ α) (s : σ) : (get >>= f) s = f s s := rfl

theorem onPart_of_ok {part : σ → τ} {put : τ → σ → σ} {action : Action τ α} {s : σ} {a : α}
    {t : τ} (h : action (part s) = .ok a t) : onPart part put action s = .ok a (put t s) := by
  simp only [onPart, h]

theorem write_ok (text : String) (s : σ) : write (.ok text) s = .ok text s := rfl

theorem write_error (limit : Numeral.Limit) (s : σ) :
    write (σ := σ) (.error limit) s = .error (.numeral limit) s := rfl

/-- Every answer of the action is of this kind. -/
def Yields (x : Action σ α) (P : α → Prop) : Prop :=
  ∀ s a t, x s = .ok a t → P a

variable {P : α → Prop} {Q : β → Prop}

theorem yields_pure {a : α} (h : P a) : Yields (pure a : Action σ α) P := by
  intro s b t hb
  cases hb
  exact h

theorem Yields.bind {x : Action σ α} {f : α → Action σ β} (hx : Yields x P)
    (hf : ∀ a, P a → Yields (f a) Q) : Yields (x >>= f) Q := by
  intro s b t hb
  cases h : x s with
  | error fault u =>
      rw [bind_of_error h] at hb
      cases hb
  | ok a u =>
      rw [bind_of_ok h] at hb
      exact hf a (hx s a u h) u b t hb

theorem yields_bind (x : Action σ α) {f : α → Action σ β} (hf : ∀ a, Yields (f a) Q) :
    Yields (x >>= f) Q := by
  have hx : Yields x fun _ => True := fun _ _ _ _ => trivial
  exact hx.bind fun a _ => hf a

theorem yields_write {P : String → Prop} {text : Except Numeral.Limit String}
    (h : ∀ a, text = .ok a → P a) : Yields (write text : Action σ String) P := by
  intro s a t ha
  cases text with
  | error limit => cases ha
  | ok b =>
      cases ha
      exact h a rfl

end Action
end Uniproc
