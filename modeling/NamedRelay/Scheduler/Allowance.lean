import NamedRelay.Scheduler.Basic

/-!
# Allowances

A scheduler that grants by length and by the number of packets already sent.
-/

namespace NamedRelay

structure Allowance where
  onHold : Bool := false
  maxLength : Option Nat := none
  budget : Option Nat := none
deriving DecidableEq, Repr

namespace Allowance

def grants (a : Allowance) (length : Nat) : Bool :=
  !a.onHold && a.maxLength.all (length ≤ ·) && a.budget.all (· != 0)

instance : Scheduler Allowance where
  requestToSend a _ length := (a.grants length, a)
  sent a _ _ := { a with budget := a.budget.map (· - 1) }

end Allowance

end NamedRelay
