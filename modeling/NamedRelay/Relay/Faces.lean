import NamedRelay.Relay.Basic

/-!
# Faces of the relay

Faces come into being at first contact and go with everything that refers to them.
-/

namespace NamedRelay.Relay

variable {σ κ : Type}

def modifyFace (r : Relay σ κ) (id : FaceId) (change : Face σ → Face σ) : Relay σ κ :=
  { r with faces := r.faces.modify id change }

def touchFace (r : Relay σ κ) (id : FaceId) (now : Timestamp) : Relay σ κ :=
  r.modifyFace id fun f => f.touch now

/-- The interface a peer is reached on: none for the application, the given one if it is there, or
the first one of the peer's family. -/
def interfaceFor (r : Relay σ κ) (interface : Option Nat) (peer : Option Address) :
    Except Error (Option Nat) :=
  match interface, peer with
  | _, none => .ok none
  | some index, some _ =>
    if index < r.interfaces.length then .ok (some index) else .error (.notFound .interface)
  | none, some peer =>
    match r.interfaces.findIdx? fun i => i.address.sameFamily peer with
    | some index => .ok (some index)
    | none => .error (.notFound .interface)

/-- A new face starts with the flags of its interface. -/
def initialFlags (r : Relay σ κ) (interface : Option Nat) : FaceFlags :=
  match interface.bind fun index => r.interfaces[index]? with
  | some i => { reflect := i.reflect, forwardAll := i.forwardAll }
  | none => {}

/-- Adds a face with the next number. -/
def createFace (r : Relay σ κ) (interface : Option Nat) (peer : Option Address) :
    Except Error FaceId × Relay σ κ :=
  match r.faces.nextId? with
  | none => (.error (.capacityExceeded .faceIds (UInt32.size - 1)), r)
  | some id =>
    let face : Face σ :=
      { id, interface, peer
        flags := r.initialFlags interface
        lastUsed := r.clock
        scheduler := r.schedulerFor.bind fun schedulerFor => schedulerFor id }
    let sought : List Event := if r.schedulerFor.isSome then [.schedulerSought id] else []
    (.ok id, ({ r with faces := r.faces.insert face }).emitAll sought)

/-- The face of a peer, created at first contact. Without a peer this is the face of the
application. -/
def getFace (r : Relay σ κ) (interface : Option Nat) (peer : Option Address) :
    Except Error FaceId × Relay σ κ :=
  match r.interfaceFor interface peer with
  | .error e => (.error e, r)
  | .ok interface =>
    match r.faces.findPeer? interface peer with
    | some f => (.ok f.id, r.touchFace f.id r.clock)
    | none => r.createFace interface peer

/-- Removes a face with its routes, its places in pending interests and its queue. -/
def removeFace (r : Relay σ κ) (id : FaceId) : Except Error Unit × Relay σ κ :=
  match r.faces.get? id with
  | none => (.error (.notFound .face), r)
  | some _ =>
    (.ok (), { r with
      faces := r.faces.erase id
      pending := r.pending.removeFace id
      table := r.table.removeFace id })

def isLive (r : Relay σ κ) (id : FaceId) : Bool :=
  (r.faces.get? id).isSome

end NamedRelay.Relay
