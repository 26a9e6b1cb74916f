import Uniproc.Machine.ControlBlock

/-!
The registers of the process that runs. They are copied from its control block when
it gets the CPU, and until it blocks the copies here are the ones that count.
-/

namespace Uniproc

/-- The program is the running process's own, so that what changes it changes the
program in slot `home` too. A program has no home any more when its slot has gone to
another process. -/
structure Cpu where
  program : Option Program := none
  programCounter : Int := 0
  value : Int := 0
  home : Option Nat := none
deriving DecidableEq, Repr, Inhabited

namespace Cpu

def isLoaded (c : Cpu) : Bool :=
  c.program.isSome

/-- The registers of the process with control block `b` in slot `home`. -/
def ofBlock (b : ControlBlock) (home : Option Nat) : Cpu where
  program := some b.program
  programCounter := b.programCounter
  value := b.value
  home := home

/-- Nothing is loaded. -/
def discarded : Cpu := {}

end Cpu
end Uniproc
