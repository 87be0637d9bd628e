import NamedRelay.ContentStore.Basic
import NamedRelay.Face.Registry
import NamedRelay.Interface
import NamedRelay.NonceHistory
import NamedRelay.Pending

/-!
# The relay

The state of a relay: its tables, and what it knows of the program around it. `σ` is the state of
the schedulers and `κ` that of the caching strategy. The clock holds one reading until it is moved,
and `digest` is the hash that content is named by.
-/

namespace NamedRelay

structure Counters where
  interestsReceived : UInt64 := 0
  contentsReceived : UInt64 := 0
  interestsForwarded : UInt64 := 0
  contentsForwarded : UInt64 := 0
  cacheHits : UInt64 := 0
  duplicatesDropped : UInt64 := 0
  unsolicitedDropped : UInt64 := 0
  interestTimeouts : UInt64 := 0
  queueDrops : UInt64 := 0
deriving DecidableEq, Repr

structure Relay (σ κ : Type) where
  config : Config
  clock : Timestamp
  digest : Bytes → Digest
  faces : FaceRegistry σ := {}
  interfaces : List (Interface σ)
  table : ForwardingTable := {}
  pending : PendingTable := {}
  store : ContentStore
  nonces : NonceHistory
  strategy : Option κ := none
  schedulerFor : Option (FaceId → Option σ) := none
  /-- Whether the application takes content. -/
  delivers : Bool := false
  counters : Counters := {}
  log : List Event := []

namespace Relay

variable {σ κ : Type}

def create (config : Config) (clock : Timestamp) (digest : Bytes → Digest) :
    Except Error (Relay σ κ) :=
  if config.maxInterfaces < config.interfaces.length then
    .error (.capacityExceeded .interfaces config.maxInterfaces)
  else
    let remembered := match config.nonceCheck with
      | .history capacity => capacity
      | .pendingTable => 0
    .ok
      { config, clock, digest
        interfaces := config.interfaces.map Interface.ofConfig
        store := { capacity := config.maxCacheEntries }
        nonces := { capacity := remembered } }

def setClock (r : Relay σ κ) (ms : UInt64) : Relay σ κ :=
  { r with clock := ⟨ms⟩ }

def advance (r : Relay σ κ) (ms : UInt64) : Relay σ κ :=
  { r with clock := r.clock.adding ms }

def emit (r : Relay σ κ) (event : Event) : Relay σ κ :=
  { r with log := r.log ++ [event] }

def emitAll (r : Relay σ κ) (events : List Event) : Relay σ κ :=
  { r with log := r.log ++ events }

def takeEvents (r : Relay σ κ) : List Event × Relay σ κ :=
  (r.log, { r with log := [] })

def tally (r : Relay σ κ) (count : Counters → Counters) : Relay σ κ :=
  { r with counters := count r.counters }

def setStrategy (r : Relay σ κ) (strategy : κ) : Relay σ κ :=
  { r with strategy := some strategy }

def setSchedulerFor (r : Relay σ κ) (schedulerFor : FaceId → Option σ) : Relay σ κ :=
  { r with schedulerFor := some schedulerFor }

def setDelivers (r : Relay σ κ) : Relay σ κ :=
  { r with delivers := true }

end Relay

end NamedRelay
