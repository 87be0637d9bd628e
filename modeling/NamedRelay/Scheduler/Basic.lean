/-!
# Rate control

A scheduler is asked before packets move on and told once they have left. `σ` is the state of a
scheduler, and the instance is how schedulers of that kind answer. Without a scheduler packets move
as soon as they are queued.
-/

namespace NamedRelay

class Scheduler (σ : Type) where
  /-- Whether `count` packets of `length` bytes in total may go now. -/
  requestToSend : σ → (count length : Nat) → Bool × σ
  /-- Takes note that `count` packets of `length` bytes in total have left. -/
  sent : σ → (count length : Nat) → σ

namespace Scheduler

variable {σ : Type} [Scheduler σ]

/-- The answer for one packet; `none` where there is no scheduler to ask. -/
def askOne (scheduler : Option σ) (length : Nat) : Option Bool × Option σ :=
  match scheduler with
  | none => (none, none)
  | some s =>
    let (granted, s) := requestToSend s 1 length
    (some granted, some s)

def noteOne (scheduler : Option σ) (length : Nat) : Option σ :=
  scheduler.map fun s => sent s 1 length

end Scheduler

end NamedRelay
