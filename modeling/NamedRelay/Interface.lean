import NamedRelay.Config.Basic
import NamedRelay.Event
import NamedRelay.Ring

/-!
# Interfaces

An interface is where the relay meets a medium. Its queue holds at most 64 requests; more are
dropped and counted.
-/

namespace NamedRelay

def interfaceCapacity : Nat := 64

structure Interface (σ : Type) where
  address : Address
  reflect : Bool := false
  forwardAll : Bool := false
  queue : Ring TransmitRequest interfaceCapacity := {}
  scheduler : Option σ := none
  transmitted : UInt64 := 0
  dropped : UInt64 := 0

namespace Interface

variable {σ : Type}

def ofConfig (config : InterfaceConfig) : Interface σ :=
  { address := config.address, reflect := config.reflect, forwardAll := config.forwardAll }

/-- Queues a request. A full queue drops it. -/
def enqueue (i : Interface σ) (request : TransmitRequest) : Bool × Interface σ :=
  match i.queue.push request with
  | .ok queue => (true, { i with queue })
  | .error _ => (false, { i with dropped := i.dropped + 1 })

variable [Scheduler σ]

/-- Whether the oldest request may be sent now. -/
def ready (i : Interface σ) (index : Nat) : Bool × Interface σ × List Event :=
  match i.queue.front? with
  | none => (false, i, [])
  | some request =>
    match Scheduler.askOne i.scheduler request.packet.length with
    | (none, _) => (true, i, [])
    | (some granted, scheduler) =>
      (granted, { i with scheduler },
        [.sendRequested (.interface index) 1 request.packet.length granted])

/-- Hands the oldest request to the link. -/
def clearToSend (i : Interface σ) (index : Nat) :
    Option TransmitRequest × Interface σ × List Event :=
  match i.queue.pop with
  | (none, _) => (none, i, [])
  | (some request, queue) =>
    let report : List Event :=
      if i.scheduler.isSome then [.sendReported (.interface index) 1 request.packet.length] else []
    (some request,
      { i with
        queue
        transmitted := i.transmitted + 1
        scheduler := Scheduler.noteOne i.scheduler request.packet.length },
      .transmitted index request.destination request.packet :: report)

end Interface

end NamedRelay
