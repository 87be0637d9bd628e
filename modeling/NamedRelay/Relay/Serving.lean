import NamedRelay.Relay.Transmission

/-!
# Serving pending interests

Content answers every pending interest it satisfies in one pass. The entries it satisfies go. Each
face that waited on any of them gets the content once, network faces before the application.
-/

namespace NamedRelay

/-- Who gets the content of a serving pass, in the order found. `none` among the deliveries is the
relay's own request. -/
structure Recipients where
  network : List FaceId := []
  deliveries : List (Option FaceId) := []

namespace Recipients

def includes (s : Recipients) (id : FaceId) : Bool :=
  s.network.contains id || s.deliveries.contains (some id)

/-- The number of replies, as a 32-bit word. -/
def count (s : Recipients) : UInt32 :=
  UInt32.ofNat (s.network.length + s.deliveries.length)

/-- The application itself asked. -/
def ownRequest (s : Recipients) : Bool :=
  s.deliveries.contains none

end Recipients

namespace Relay

variable {σ κ : Type}

/-- Adds a waiting face, unless it is gone or is served already. -/
def addRecipient (r : Relay σ κ) (s : Recipients) (w : Waiter) : Recipients :=
  match r.faces.get? w.face with
  | none => s
  | some f =>
    if s.includes f.id then s
    else if f.isLocal then { s with deliveries := s.deliveries ++ [some f.id] }
    else { s with network := s.network ++ [f.id] }

def addRecipients (r : Relay σ κ) (s : Recipients) (e : PendingInterest) : Recipients :=
  e.waiters.foldl r.addRecipient
    (if e.isLocal then { s with deliveries := s.deliveries ++ [none] } else s)

def satisfies (r : Relay σ κ) (content : Packet) (e : PendingInterest) : Bool :=
  e.packet.isSatisfiedBy content r.digest

def recipients (r : Relay σ κ) (content : Packet) : Recipients :=
  (r.pending.toList.filter (r.satisfies content)).foldl r.addRecipients {}

/-- Without the pending interests that the content satisfies. -/
def withoutSatisfied (r : Relay σ κ) (content : Packet) : Relay σ κ :=
  { r with pending := r.pending.retain fun e => if r.satisfies content e then none else some e }

variable [Scheduler σ]

def forwardContent (r : Relay σ κ) (wire : Bytes) (face : FaceId) : Relay σ κ :=
  ((r.tally fun c => { c with contentsForwarded := c.contentsForwarded + 1 }).offer .reply
    face wire).2

omit [Scheduler σ] in
/-- Hands content to the application, if it takes content. -/
def deliver (r : Relay σ κ) (face : Option FaceId) (content : Packet) : Relay σ κ :=
  if r.delivers then r.emit (.delivered face content) else r

/-- Answers all pending interests that the content satisfies. -/
def servePacket (r : Relay σ κ) (content : Packet) : Recipients × Relay σ κ :=
  let served := r.recipients content
  let forwarded := served.network.foldl (fun r face => r.forwardContent content.wire face)
    (r.withoutSatisfied content)
  (served, served.deliveries.foldl (fun r face => r.deliver face content) forwarded)

/-- Answers all pending interests that a cached entry satisfies. The entry stays for good if the
application asked for it. -/
def servePending (r : Relay σ κ) (h : Handle) : Nat × Relay σ κ :=
  match r.store.get? h with
  | none => (0, r)
  | some entry =>
    let (served, r) := r.servePacket entry.packet
    (served.count.toNat, { r with
      store := r.store.modify h fun e => (e.recordServed served.count).pinIf served.ownRequest })

end Relay

end NamedRelay
