import NamedRelay.Relay.Caching
import NamedRelay.Relay.Propagation

/-!
# Packets arriving

An interest that is no duplicate is answered from the store, or joins the pending entry for the
same request, or opens a new one and is propagated. Content answers the pending interests it
satisfies and is cached if any did.
-/

namespace NamedRelay.Relay

variable {σ κ : Type}

/-- Whether an interest's nonce was seen before, by the configured check. A history remembers the
nonce from then on. -/
def checkNonce (r : Relay σ κ) (packet : Packet) : Bool × Relay σ κ :=
  match packet.nonce with
  | none => (false, r)
  | some nonce =>
    match r.config.nonceCheck with
    | .history _ =>
      let (seen, nonces) := r.nonces.findOrAppend nonce
      (seen, { r with nonces })
    | .pendingTable => (r.pending.hasNonce nonce, r)

def lifetimeOf (r : Relay σ κ) (interest : Packet) : UInt64 :=
  interest.lifetime.getD r.config.interestTimeout

def dropDuplicate (r : Relay σ κ) : Relay σ κ :=
  r.tally fun c => { c with duplicatesDropped := c.duplicatesDropped + 1 }

variable [Scheduler σ]

def answerFromCache (r : Relay σ κ) (face : Face σ) (h : Handle) : Relay σ κ :=
  let hit := r.tally fun c => { c with cacheHits := c.cacheHits + 1 }
  let used := { hit with
    store := hit.store.modify h fun e => (e.recordServed 1).touch r.clock }
  match used.store.get? h with
  | none => used
  | some entry =>
    if face.isLocal then used.deliver (some face.id) entry.packet
    else used.forwardContent entry.packet.wire face.id

/-- Answers the relay's own interest from a cached entry, which stays for good. -/
def answerOwn (r : Relay σ κ) (h : Handle) : Relay σ κ :=
  let hit := r.tally fun c => { c with cacheHits := c.cacheHits + 1 }
  let used := { hit with
    store := hit.store.modify h fun e => ((e.recordServed 1).touch r.clock).pinIf true }
  match used.store.get? h with
  | none => used
  | some entry => used.deliver none entry.packet

/-- Records a new pending interest and propagates it. -/
def openPending (r : Relay σ κ) (e : PendingInterest) : Relay σ κ :=
  let (h, pending) := r.pending.insert e
  ({ r with pending } : Relay σ κ).interestPropagate h

/-- Records that a face waits for the content of an interest. -/
def recordInterest (r : Relay σ κ) (face : Face σ) (interest : Packet) : Relay σ κ :=
  match r.pending.findSame? interest with
  | some h =>
    let joined := { r with pending := r.pending.modify h fun e => e.addWaiter face.id r.clock }
    if face.flags.forwardAll then joined.interestPropagate h else joined
  | none =>
    r.openPending (.fromFace interest face.id (r.lifetimeOf interest) r.clock)

/-- Records that the application waits for the content of an interest. -/
def recordOwn (r : Relay σ κ) (interest : Packet) : Relay σ κ :=
  match r.pending.findSame? interest with
  | some h =>
    { r with pending := r.pending.modify h fun e => { e with origin := .application } }
  | none => r.openPending (.fromApplication interest (r.lifetimeOf interest) r.clock)

def handleInterest (r : Relay σ κ) (id : FaceId) (interest : Packet) :
    Except Error Unit × Relay σ κ :=
  if !interest.isInterest then (.error (.malformed .interestExpected), r)
  else match r.faces.get? id with
    | none => (.error (.notFound .face), r)
    | some face =>
      let received := (r.touchFace id r.clock).tally fun c =>
        { c with interestsReceived := c.interestsReceived + 1 }
      match received.checkNonce interest with
      | (true, r) => (.ok (), r.dropDuplicate)
      | (false, r) =>
        match r.lookupCached interest with
        | some h => (.ok (), r.answerFromCache face h)
        | none => (.ok (), r.recordInterest face interest)

def expressInterest (r : Relay σ κ) (interest : Packet) : Except Error Unit × Relay σ κ :=
  if !interest.isInterest then (.error (.malformed .interestExpected), r)
  else match r.checkNonce interest with
    | (true, r) => (.ok (), r.dropDuplicate)
    | (false, r) =>
      match r.lookupCached interest with
      | some h => (.ok (), r.answerOwn h)
      | none => (.ok (), r.recordOwn interest)

variable [CacheStrategy κ]

/-- Caches content that was just served: in the place of its stale copy, or as a new entry. -/
def cacheServed (r : Relay σ κ) (staleCopy : Option Handle) (content : Packet)
    (served : Recipients) : Relay σ κ :=
  match staleCopy with
  | some h =>
    { r with
      store := r.store.modify h fun e =>
        ((e.refresh content r.clock).recordServed served.count).pinIf served.ownRequest }
  | none =>
    let entry : CachedContent := { packet := content, lastUsed := r.clock }
    (r.storeEntry ((entry.recordServed served.count).pinIf served.ownRequest)).2

/-- Serves content that is not cached or only as a stale copy, and caches it if it is admitted.
Content that nobody waits for is dropped. -/
def acceptContent (r : Relay σ κ) (staleCopy : Option Handle) (content : Packet) : Relay σ κ :=
  match r.servePacket content with
  | (served, r) =>
    if served.count = 0 then
      r.tally fun c => { c with unsolicitedDropped := c.unsolicitedDropped + 1 }
    else match r.askAdmission content with
      | (false, r) => r
      | (true, r) => r.cacheServed staleCopy content served

/-- Content that came in on a face. Where a copy is cached that is not stale, that copy answers. -/
def handleContent (r : Relay σ κ) (id : FaceId) (content : Packet) :
    Except Error Unit × Relay σ κ :=
  if content.isInterest then (.error (.malformed .contentExpected), r)
  else match r.faces.get? id with
    | none => (.error (.notFound .face), r)
    | some _ =>
      let received := (r.touchFace id r.clock).tally fun c =>
        { c with contentsReceived := c.contentsReceived + 1 }
      match received.store.findExact? content.name with
      | none => (.ok (), received.acceptContent none content)
      | some h =>
        if (received.store.get? h).any fun e => e.flags.stale then
          (.ok (), received.acceptContent (some h) content)
        else (.ok (), (received.servePending h).2)

def dispatch (r : Relay σ κ) (id : FaceId) (packet : Packet) : Except Error Unit × Relay σ κ :=
  match packet.kind with
  | .interest => r.handleInterest id packet
  | .content => r.handleContent id packet

/-- Bytes that came in from a peer on an interface. `decode` reads the packet in them. -/
def receive (r : Relay σ κ) (decode : Bytes → Except Error Packet) (interface : Nat)
    (peer : Address) (bytes : Bytes) : Except Error Unit × Relay σ κ :=
  if maxPacketBytes < bytes.length then
    (.error (.capacityExceeded .packetBytes maxPacketBytes), r)
  else match decode bytes with
    | .error e => (.error e, r)
    | .ok packet =>
      match r.getFace (some interface) (some peer) with
      | (.error e, r) => (.error e, r)
      | (.ok face, r) => r.dispatch face packet

end NamedRelay.Relay
