import Uniproc.ProcessState

/-!
The scheduler's own state: which slot has the CPU, and the slots that wait. Both
queues are first come, first served, with the front at the head.
-/

namespace Uniproc

structure Scheduler where
  running : Option Int := none
  ready : List Int := []
  blocked : List Int := []
  switches : Nat := 0
deriving DecidableEq, Repr, Inhabited

end Uniproc
