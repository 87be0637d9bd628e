import NamedRelay.Face.Basic
import NamedRelay.Packet.Basic

/-!
# What a relay does to the world

A relay acts on the program around it by handing frames to links, content to the application and
names to observers, and by asking schedulers and the caching strategy. Each such act, and each
packet offered to a face or an interface, is an event; a relay keeps its events in order.
-/

namespace NamedRelay

/-- A packet waiting on an interface, where it goes and the face it comes from. -/
structure TransmitRequest where
  packet : Bytes
  destination : Address
  face : Option FaceId
deriving DecidableEq

inductive Governor where
  | face (id : FaceId)
  | interface (index : Nat)
deriving DecidableEq, Repr

inductive Purpose where
  | interest
  | reply
  | direct
deriving DecidableEq, Repr

inductive Event where
  /-- A frame was handed to the link. -/
  | transmitted (interface : Nat) (destination : Address) (packet : Bytes)
  /-- An observer saw an interest pass its route. -/
  | tapped (tap : String) (arrival : Option FaceId) (name : Name) (wire : Bytes)
  /-- Content was handed to the application, for a face or for the relay's own request. -/
  | delivered (face : Option FaceId) (content : Packet)
  /-- A scheduler was asked for, for a new face. -/
  | schedulerSought (face : FaceId)
  /-- A scheduler was asked whether packets may go. -/
  | sendRequested (governor : Governor) (count length : Nat) (granted : Bool)
  /-- A scheduler was told that packets have left. -/
  | sendReported (governor : Governor) (count length : Nat)
  /-- The strategy was asked to make room in a store of `stored` entries. -/
  | roomRequested (stored : Nat) (incoming : Name) (handled : Bool)
  /-- The strategy was asked to admit content to a store of `stored` entries. -/
  | admissionRequested (stored : Nat) (content : Name) (admitted : Bool)
  /-- A packet was put on a face's queue, or was waiting there already. -/
  | queued (face : FaceId) (purpose : Purpose) (packet : Bytes) (isNew : Bool)
  /-- A packet was put on an interface's queue, or found it full. -/
  | accepted (interface : Nat) (request : TransmitRequest) (hasRoom : Bool)

end NamedRelay
