import NamedRelay.Address.Basic
import NamedRelay.Scheduler.Basic
import NamedRelay.Time

/-!
# Faces

A face is a peer of the relay: a remote address on one of its interfaces, or the local application,
which has neither. Each face has a queue of packets on their way out.
-/

namespace NamedRelay

/-- The number of a face. Numbers are never given out twice. -/
structure FaceId where
  number : UInt32
deriving DecidableEq, Repr

def FaceId.text (id : FaceId) : String :=
  "face#" ++ toString id.number.toNat

structure FaceFlags where
  /-- Never aged out. -/
  isStatic : Bool := false
  /-- Interests may go back out where they came in. -/
  reflect : Bool := false
  /-- Repeated interests from this face are propagated again. -/
  forwardAll : Bool := false
deriving DecidableEq, Repr

structure Face (σ : Type) where
  id : FaceId
  interface : Option Nat
  peer : Option Address
  flags : FaceFlags
  lastUsed : Timestamp
  queue : List Bytes := []
  scheduler : Option σ := none

namespace Face

variable {σ : Type}

def isLocal (f : Face σ) : Bool :=
  f.interface.isNone

def touch (f : Face σ) (now : Timestamp) : Face σ :=
  { f with lastUsed := f.lastUsed.latest now }

/-- Queues a packet unless the same bytes are waiting already. -/
def enqueue (f : Face σ) (packet : Bytes) : Bool × Face σ :=
  if packet ∈ f.queue then (false, f) else (true, { f with queue := f.queue ++ [packet] })

def dequeue (f : Face σ) : Option Bytes × Face σ :=
  match f.queue with
  | [] => (none, f)
  | packet :: rest => (some packet, { f with queue := rest })

def isExpired (f : Face σ) (timeout : UInt64) (now : Timestamp) : Bool :=
  !f.flags.isStatic && f.lastUsed.hasElapsed timeout now

end Face

end NamedRelay
