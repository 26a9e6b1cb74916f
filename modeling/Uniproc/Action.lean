import Uniproc.Fault

/-!
Things done to a state. An action may stop with a fault; the state it has reached by
then stays.
-/

namespace Uniproc

abbrev Action (σ α : Type) := EStateM Fault σ α

namespace Action

variable {σ τ α β : Type}

def ofExcept : Except Fault α → Action σ α
  | .ok a => pure a
  | .error fault => throw fault

/-- The text, or a stop where a numeral in it would be too long. -/
def write (text : Except Numeral.Limit String) : Action σ String :=
  ofExcept (Numeral.checked text)

/-- The result of an action, and the state it leaves. -/
def perform (action : Action σ α) (s : σ) : Except Fault α × σ :=
  match action s with
  | .ok a s => (.ok a, s)
  | .error fault s => (.error fault, s)

/-- An action on a part of the state, which `put` puts back into the whole. -/
def onPart (part : σ → τ) (put : τ → σ → σ) (action : Action τ α) : Action σ α := fun s =>
  match action (part s) with
  | .ok a t => .ok a (put t s)
  | .error fault t => .error fault (put t s)

end Action
end Uniproc
