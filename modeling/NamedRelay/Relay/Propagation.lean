import NamedRelay.Relay.Faces
import NamedRelay.Relay.Transmission

/-!
# Forwarding interests

An interest goes along every route that covers its name, but not back to the face it came from
unless that face reflects. Where no route takes it, it may be broadcast on every interface.
-/

namespace NamedRelay.Relay

variable {σ κ : Type}

/-! ## Routes -/

def addRoute (r : Relay σ κ) (name : Name) (face : FaceId) : Except Error Unit × Relay σ κ :=
  if r.isLive face then (.ok (), { r with table := (r.table.add name face).2 })
  else (.error (.notFound .face), r)

def addTap (r : Relay σ κ) (name : Name) (tap : String) : Relay σ κ :=
  { r with table := r.table.addTap name tap }

def removeRoute (r : Relay σ κ) (name : Option Name) (face : Option FaceId) :
    Except Error Unit × Relay σ κ :=
  match r.table.remove name face with
  | .ok table => (.ok (), { r with table })
  | .error e => (.error e, r)

/-- The arrival face of an interest takes its interests back. -/
def reflects (r : Relay σ κ) (arrival : Option FaceId) : Bool :=
  (arrival.bind r.faces.get?).any fun f => f.flags.reflect

def routesFor (r : Relay σ κ) (e : PendingInterest) : List Route :=
  (r.table.covering e.packet.name).filter fun route =>
    !(e.arrival.isSome && route.face == e.arrival && !r.reflects e.arrival)

def tapEvents (e : PendingInterest) (routes : List Route) : List Event :=
  routes.filterMap fun route =>
    route.tap.map fun tap => .tapped tap e.arrival e.packet.name e.packet.wire

variable [Scheduler σ]

def forwardInterest (r : Relay σ κ) (wire : Bytes) (face : FaceId) : Relay σ κ :=
  ((r.tally fun c => { c with interestsForwarded := c.interestsForwarded + 1 }).offer .interest
    face wire).2

/-- Sends an interest to the broadcast address of an interface. -/
def broadcastOn (r : Relay σ κ) (wire : Bytes) (suite : Suite) (index : Nat) : Relay σ κ :=
  match r.interfaces[index]? with
  | none => r
  | some i =>
    match r.getFace (some index) (some (i.address.broadcast suite)) with
    | (.ok face, r) => r.forwardInterest wire face
    | (.error _, r) => r

def broadcast (r : Relay σ κ) (wire : Bytes) (suite : Suite) : Relay σ κ :=
  (List.range r.interfaces.length).foldl (fun r index => r.broadcastOn wire suite index) r

/-- Sends the interest of a pending entry along its routes. -/
def propagate (r : Relay σ κ) (e : PendingInterest) : Relay σ κ :=
  let routes := r.routesFor e
  let forwarded := (routes.filterMap Route.face).foldl
    (fun r face => r.forwardInterest e.packet.wire face) (r.emitAll (tapEvents e routes))
  if routes.isEmpty && r.config.broadcastFallback then
    forwarded.broadcast e.packet.wire e.packet.suite
  else forwarded

def interestPropagate (r : Relay σ κ) (h : Handle) : Relay σ κ :=
  match r.pending.get? h with
  | some e => r.propagate e
  | none => r

/-- Broadcasts the interest of a pending entry, whatever its routes. -/
def interestBroadcast (r : Relay σ κ) (h : Handle) : Relay σ κ :=
  match r.pending.get? h with
  | some e => r.broadcast e.packet.wire e.packet.suite
  | none => r

end NamedRelay.Relay
