import NamedRelay.Face.Basic
import NamedRelay.Packet.Satisfaction
import NamedRelay.SlotTable

/-!
# Pending interests

One entry stands for all interests that ask for the same. It lists the faces that wait for the
content, each once, and remembers whether the relay's own application wants it as well.
-/

namespace NamedRelay

/-- A face that asked, and when it last did. -/
structure Waiter where
  face : FaceId
  lastUsed : Timestamp
deriving DecidableEq

/-- Who wants the content besides the waiters. -/
inductive Origin where
  | network
  | application
deriving DecidableEq, Repr

structure PendingInterest where
  packet : Packet
  /-- The face the interest came in on, as long as that face is there. -/
  arrival : Option FaceId
  origin : Origin
  waiters : List Waiter
  retries : UInt32 := 0
  lifetime : UInt64
  lastUsed : Timestamp
deriving DecidableEq

namespace PendingInterest

def fromFace (packet : Packet) (face : FaceId) (lifetime : UInt64) (now : Timestamp) :
    PendingInterest :=
  { packet, arrival := some face, origin := .network, waiters := [⟨face, now⟩], lifetime
    lastUsed := now }

def fromApplication (packet : Packet) (lifetime : UInt64) (now : Timestamp) : PendingInterest :=
  { packet, arrival := none, origin := .application, waiters := [], lifetime, lastUsed := now }

def isLocal (e : PendingInterest) : Bool :=
  e.origin == .application

/-- Lists a face as waiting. A face that waits already is only refreshed. -/
def addWaiter (e : PendingInterest) (face : FaceId) (now : Timestamp) : PendingInterest :=
  if e.waiters.any (·.face == face) then
    { e with
      waiters := e.waiters.modify (e.waiters.findIdx (·.face == face)) fun _ => ⟨face, now⟩ }
  else { e with waiters := e.waiters ++ [⟨face, now⟩] }

/-- Without the face, as arrival face and as waiter. -/
def withoutFace (e : PendingInterest) (face : FaceId) : PendingInterest :=
  { e with
    arrival := if e.arrival = some face then none else e.arrival
    waiters := e.waiters.filter (·.face != face) }

def isAbandoned (e : PendingInterest) : Bool :=
  e.waiters.isEmpty && !e.isLocal

/-- What is left of an entry without the face. -/
def forgetFace? (face : FaceId) (e : PendingInterest) : Option PendingInterest :=
  let rest := e.withoutFace face
  if rest.isAbandoned then none else some rest

def isExpired (e : PendingInterest) (maxRetransmits : UInt32) (now : Timestamp) : Bool :=
  e.lastUsed.hasElapsed e.lifetime now || maxRetransmits ≤ e.retries

end PendingInterest

abbrev PendingTable := SlotTable PendingInterest

namespace PendingTable

def findSame? (t : PendingTable) (interest : Packet) : Option Handle :=
  t.find? fun e => e.packet.isSameInterest interest

def hasNonce (t : PendingTable) (nonce : Bytes) : Bool :=
  t.toList.any fun e => e.packet.nonce == some nonce

/-- Takes a face out of every entry, and the entries that are abandoned then out of the table. -/
def removeFace (t : PendingTable) (face : FaceId) : PendingTable :=
  t.retain (PendingInterest.forgetFace? face)

end PendingTable

end NamedRelay
