import NamedRelay.Name.Order
import NamedRelay.Relay.Basic

/-!
# Status

A view of the relay's tables at one moment. Routes are listed in the order of their names.
-/

namespace NamedRelay

structure FaceStatus where
  id : FaceId
  interface : Option Nat
  peer : Option Address
  flags : FaceFlags
  lastUsed : Timestamp
  queued : Nat
deriving DecidableEq

structure InterfaceStatus where
  index : Nat
  address : Address
  queued : Nat
  transmitted : UInt64
  dropped : UInt64
deriving DecidableEq

structure RouteStatus where
  name : String
  suite : Suite
  face : Option FaceId
  tap : Bool
deriving DecidableEq

structure PendingStatus where
  name : String
  suite : Suite
  arrival : Option FaceId
  isLocal : Bool
  waiters : Nat
  retries : UInt32
  lastUsed : Timestamp
deriving DecidableEq

structure ContentStatus where
  name : String
  suite : Suite
  chunk : Option UInt32
  served : UInt32
  flags : ContentFlags
  lastUsed : Timestamp
  size : Nat
deriving DecidableEq

structure Status where
  now : Timestamp
  faces : List FaceStatus
  interfaces : List InterfaceStatus
  routes : List RouteStatus
  pending : List PendingStatus
  contents : List ContentStatus
  maxCacheEntries : Nat
  counters : Counters
deriving DecidableEq

variable {σ κ : Type}

def Face.status (f : Face σ) : FaceStatus :=
  { id := f.id, interface := f.interface, peer := f.peer, flags := f.flags, lastUsed := f.lastUsed
    queued := f.queue.length }

def Interface.status (i : Interface σ) (index : Nat) : InterfaceStatus :=
  { index, address := i.address, queued := i.queue.len, transmitted := i.transmitted
    dropped := i.dropped }

def Route.status (route : Route) : RouteStatus :=
  { name := route.name.display, suite := route.name.suite, face := route.face
    tap := route.tap.isSome }

def PendingInterest.status (e : PendingInterest) : PendingStatus :=
  { name := e.packet.name.display, suite := e.packet.suite, arrival := e.arrival
    isLocal := e.isLocal, waiters := e.waiters.length, retries := e.retries
    lastUsed := e.lastUsed }

def CachedContent.status (e : CachedContent) : ContentStatus :=
  { name := e.name.display, suite := e.name.suite, chunk := e.name.chunk, served := e.served
    flags := e.flags, lastUsed := e.lastUsed, size := e.packet.wire.length }

/-- The routes in the order of their names, those of one name in the order they were added. -/
def ForwardingTable.sorted (t : ForwardingTable) : List Route :=
  Name.sortBy Route.name t.routes

def Relay.status (r : Relay σ κ) : Status :=
  { now := r.clock
    faces := r.faces.faces.map Face.status
    interfaces := r.interfaces.zipIdx.map fun (i, index) => i.status index
    routes := r.table.sorted.map Route.status
    pending := r.pending.toList.map PendingInterest.status
    contents := r.store.entries.toList.map CachedContent.status
    maxCacheEntries := r.store.capacity
    counters := r.counters }

end NamedRelay
