import Mathlib.Data.List.Basic
import Mathlib.Tactic.Common
import NamedRelay.ContentStore.Policy
import NamedRelay.Relay.Ageing
import NamedRelay.Relay.Arrival
import NamedRelay.Scheduler.Allowance

/-!
# Operations and reachable states

`Operation` lists everything the program around a relay can do to it. A state is reachable if some
operations lead to it from a new relay. What a relay hands out is read from its log: a `Handing` is
a packet put on the queue of a face, or content given to the application.
-/

namespace NamedRelay

/-- What may be changed on a face that is there. -/
inductive FaceChange (σ : Type) where
  | flags (flags : FaceFlags)
  | touch (now : Timestamp)
  | scheduler (scheduler : σ)
  | enqueue (packet : Bytes)
  | dequeue

def FaceChange.apply {σ : Type} : FaceChange σ → Face σ → Face σ
  | .flags new, f => { f with flags := new }
  | .touch now, f => f.touch now
  | .scheduler new, f => { f with scheduler := some new }
  | .enqueue packet, f => (f.enqueue packet).2
  | .dequeue, f => f.dequeue.2

inductive Operation (σ κ : Type) where
  | setClock (ms : UInt64)
  | advance (ms : UInt64)
  | setStrategy (strategy : κ)
  | setSchedulerFor (schedulerFor : FaceId → Option σ)
  | setDelivers
  | addInterface (config : InterfaceConfig)
  | setInterfaceScheduler (index : Nat) (scheduler : σ)
  | interfaceEnqueue (index : Nat) (face : Option FaceId) (packet : Bytes) (destination : Address)
  | interfaceClearToSend (index : Nat)
  | transmitAll
  | getFace (interface : Option Nat) (peer : Option Address)
  | changeFace (id : FaceId) (change : FaceChange σ)
  | removeFace (id : FaceId)
  | faceEnqueue (id : FaceId) (packet : Bytes)
  | faceDequeue (id : FaceId)
  | faceClearToSend (id : FaceId)
  | addRoute (name : Name) (face : FaceId)
  | addTap (name : Name) (tap : String)
  | removeRoute (name : Option Name) (face : Option FaceId)
  | receive (decode : Bytes → Except Error Packet) (interface : Nat) (peer : Address)
      (bytes : Bytes)
  | dispatch (id : FaceId) (packet : Packet)
  | checkNonce (packet : Packet)
  | handleInterest (id : FaceId) (interest : Packet)
  | expressInterest (interest : Packet)
  | handleContent (id : FaceId) (content : Packet)
  | interestPropagate (h : Handle)
  | interestBroadcast (h : Handle)
  | addToCache (content : Packet)
  | addContent (content : Packet)
  | removeCached (path : String)
  | servePending (h : Handle)
  | doAgeing

namespace Operation

section

variable {σ κ : Type}

/-- The interest that an operation brings in. -/
def asks? : Operation σ κ → Option Packet
  | receive decode _ _ bytes => (decode bytes).toOption.filter Packet.isInterest
  | dispatch _ packet => (some packet).filter Packet.isInterest
  | handleInterest _ interest => some interest
  | expressInterest interest => some interest
  | _ => none

/-- The packet that an operation adds to the store. -/
def adds? : Operation σ κ → Option Packet
  | addToCache content => some content
  | addContent content => some content
  | _ => none

end

variable {σ κ : Type} [Scheduler σ] [CacheStrategy κ]

/-- The state an operation leaves. -/
def run : Operation σ κ → Relay σ κ → Relay σ κ
  | setClock ms, r => r.setClock ms
  | advance ms, r => r.advance ms
  | setStrategy strategy, r => r.setStrategy strategy
  | setSchedulerFor schedulerFor, r => r.setSchedulerFor schedulerFor
  | setDelivers, r => r.setDelivers
  | addInterface config, r => (r.addInterface config).2
  | setInterfaceScheduler index scheduler, r => (r.setInterfaceScheduler index scheduler).2
  | interfaceEnqueue index face packet destination, r =>
    (r.interfaceEnqueue index face packet destination).2
  | interfaceClearToSend index, r => (r.interfaceClearToSend index).2
  | transmitAll, r => r.transmitAll.2
  | getFace interface peer, r => (r.getFace interface peer).2
  | changeFace id change, r => r.modifyFace id change.apply
  | removeFace id, r => (r.removeFace id).2
  | faceEnqueue id packet, r => (r.faceEnqueue id packet).2
  | faceDequeue id, r => (r.faceDequeue id).2
  | faceClearToSend id, r => (r.faceClearToSend id).2
  | addRoute name face, r => (r.addRoute name face).2
  | addTap name tap, r => r.addTap name tap
  | removeRoute name face, r => (r.removeRoute name face).2
  | receive decode interface peer bytes, r => (r.receive decode interface peer bytes).2
  | dispatch id packet, r => (r.dispatch id packet).2
  | checkNonce packet, r => (r.checkNonce packet).2
  | handleInterest id interest, r => (r.handleInterest id interest).2
  | expressInterest interest, r => (r.expressInterest interest).2
  | handleContent id content, r => (r.handleContent id content).2
  | interestPropagate h, r => r.interestPropagate h
  | interestBroadcast h, r => r.interestBroadcast h
  | addToCache content, r => (r.addToCache content).2
  | addContent content, r => (r.addContent content).2
  | removeCached path, r => (r.removeCached path).2
  | servePending h, r => (r.servePending h).2
  | doAgeing, r => r.doAgeing

/-- The state that operations leave one after the other. -/
def runAll (ops : List (Operation σ κ)) (r : Relay σ κ) : Relay σ κ :=
  ops.foldl (fun r op => op.run r) r

end Operation

/-- The states that operations lead to from a new relay. -/
inductive Reachable {σ κ : Type} [Scheduler σ] [CacheStrategy κ] : Relay σ κ → Prop where
  | create (config : Config) (clock : Timestamp) (digest : Bytes → Digest) {r : Relay σ κ} :
      Relay.create config clock digest = .ok r → Reachable r
  | run {r : Relay σ κ} (op : Operation σ κ) : Reachable r → Reachable (op.run r)

lemma Reachable.runAll {σ κ : Type} [Scheduler σ] [CacheStrategy κ] {r : Relay σ κ}
    (h : Reachable r) (ops : List (Operation σ κ)) : Reachable (Operation.runAll ops r) := by
  induction ops generalizing r with
  | nil => exact h
  | cons op ops ih => exact ih (h.run op)

/-- The states that operations lead to from a new relay, each permitted in the state it is done
in. -/
inductive ReachableBy {σ κ : Type} [Scheduler σ] [CacheStrategy κ]
    (Permits : Relay σ κ → Operation σ κ → Prop) : Relay σ κ → Prop where
  | create (config : Config) (clock : Timestamp) (digest : Bytes → Digest) {r : Relay σ κ} :
      Relay.create config clock digest = .ok r → ReachableBy Permits r
  | run {r : Relay σ κ} (op : Operation σ κ) : ReachableBy Permits r → Permits r op →
      ReachableBy Permits (op.run r)

lemma ReachableBy.reachable {σ κ : Type} [Scheduler σ] [CacheStrategy κ]
    {Permits : Relay σ κ → Operation σ κ → Prop} {r : Relay σ κ} (h : ReachableBy Permits r) :
    Reachable r := by
  induction h with
  | create config clock digest hnew => exact .create config clock digest hnew
  | run op _ _ ih => exact ih.run op

lemma Reachable.reachableBy {σ κ : Type} [Scheduler σ] [CacheStrategy κ] {r : Relay σ κ}
    (h : Reachable r) : ReachableBy (fun _ _ => True) r := by
  induction h with
  | create config clock digest hnew => exact .create config clock digest hnew
  | run op _ ih => exact ih.run op trivial

/-- A packet put on the queue of a face, or content given to the application. -/
inductive Handing where
  | face (id : FaceId) (purpose : Purpose) (packet : Bytes)
  | application (face : Option FaceId) (content : Packet)
deriving DecidableEq

namespace Handing

/-- The face an answer is for. The application's own face gets its answers by delivery. -/
def repliesTo? : Handing → Option FaceId
  | face id .reply _ => some id
  | application id _ => id
  | _ => none

/-- Content for the relay's own request. -/
def isOwn : Handing → Bool
  | application none _ => true
  | _ => false

def isInterest : Handing → Bool
  | face _ .interest _ => true
  | _ => false

def isReply : Handing → Bool
  | face _ .reply _ => true
  | _ => false

end Handing

def Event.handing? : Event → Option Handing
  | queued id purpose packet _ => some (.face id purpose packet)
  | delivered face content => some (.application face content)
  | _ => none

/-- What an operation hands out, in order. -/
def Operation.handings {σ κ : Type} [Scheduler σ] [CacheStrategy κ] (op : Operation σ κ)
    (r : Relay σ κ) : List Handing :=
  ((op.run r).log.drop r.log.length).filterMap Event.handing?

/-! ## A small relay -/

namespace Sample

/-- One link. -/
def config : Config :=
  { interfaces := [{ address := .link (Vector.replicate 6 1) linkEthertype }] }

/-- The first byte of the wire, as often as a digest has bytes. -/
def digest (wire : Bytes) : Digest :=
  Vector.replicate 32 (wire.headD 0)

/-- Nothing has happened yet. -/
def created : Relay Allowance CachePolicy :=
  { config, clock := ⟨0⟩, digest
    interfaces := config.interfaces.map Interface.ofConfig
    store := { capacity := 0 }
    nonces := { capacity := 256 } }

lemma reachable_created : Reachable created :=
  .create config ⟨0⟩ digest rfl

/-- A peer on the link is met. -/
def meets (number : UInt8) : Operation Allowance CachePolicy :=
  .getFace (some 0) (some (.link (Vector.replicate 6 number) linkEthertype))

/-- The name `x`. -/
def name : Name :=
  ⟨.ccnb, [[120]], none, by decide, by decide⟩

def interest (nonce : Option Bytes) : Packet :=
  ⟨.interest, name, .ccnb 0 64 nonce, [], [1], rfl, by decide⟩

def content (wire : UInt8) : Packet :=
  ⟨.content, name, .ccnb 0 64 none, [], [wire], rfl, by simp [maxPacketBytes]⟩

/-- An interest for the content `x` of this wire, by its digest. -/
def interestByDigest (wire : UInt8) : Packet :=
  { interest none with
    name := ⟨.ccnb, [[120], (digest [wire]).toList], none, by simp [maxComponents],
      by simp [componentBytes, digest, maxNameBytes]⟩
    suite_eq := rfl }

/-- Two peers, with faces 1 and 2, and the application, with face 3. -/
def peered : Relay Allowance CachePolicy :=
  Operation.runAll [.setDelivers, meets 2, meets 3, .getFace none none] created

lemma reachable_peered : Reachable peered :=
  reachable_created.runAll _

/-- Both peers ask for `x`. -/
def asks (nonce : Option Bytes) : List (FaceId × Packet) :=
  [(⟨1⟩, interest nonce), (⟨2⟩, interest nonce)]

/-- Both peers wait for `x`. -/
def asked : Relay Allowance CachePolicy :=
  Operation.runAll ((asks none).map fun ask => .handleInterest ask.1 ask.2) peered

lemma reachable_asked : Reachable asked :=
  reachable_peered.runAll _

/-- The store has `x` as well, in a copy that answers nobody yet. -/
def stocked : Relay Allowance CachePolicy :=
  (Operation.addToCache (content 5)).run asked

lemma reachable_stocked : Reachable stocked :=
  reachable_asked.run _

/-- The entry that both peers wait on. -/
def entry : PendingInterest :=
  (PendingInterest.fromFace (interest none) ⟨1⟩ config.interestTimeout ⟨0⟩).addWaiter ⟨2⟩ ⟨0⟩

/-- The first peer waits for `x`. The second one forwards all, and the route of `x` leads to it. -/
def routed : Relay Allowance CachePolicy :=
  Operation.runAll [.changeFace ⟨2⟩ (.flags { forwardAll := true }), .addRoute name ⟨2⟩,
    .handleInterest ⟨1⟩ (interest none)] peered

lemma reachable_routed : Reachable routed :=
  reachable_peered.runAll _

/-- The store has a copy of `x`, and a peer waits for another one by its digest. -/
def copied : Relay Allowance CachePolicy :=
  Operation.runAll [.addToCache (content 1), .handleInterest ⟨1⟩ (interestByDigest 5)] peered

lemma reachable_copied : Reachable copied :=
  reachable_peered.runAll _

/-- The name `x` of the family that knows freshness. -/
def freshName : Name :=
  ⟨.ndntlv, [[120]], none, by decide, by decide⟩

/-- An interest that insists on fresh content. -/
def freshInterest : Packet :=
  ⟨.interest, freshName, .ndntlv 0 1 none true none 0, [], [2], rfl, by decide⟩

/-- Content that is fresh for no time at all. -/
def fleeting : Packet :=
  ⟨.content, freshName, .ndntlv 0 1 none false none 0, [], [3], rfl, by decide⟩

/-- The store has a stale copy of content, and a peer waits for a fresh one. -/
def aged : Relay Allowance CachePolicy :=
  Operation.runAll [.addContent fleeting, .doAgeing, .handleInterest ⟨1⟩ freshInterest] peered

lemma reachable_aged : Reachable aged :=
  reachable_peered.runAll _

def staleCopy : CachedContent :=
  { packet := fleeting, flags := { stale := true }, lastUsed := ⟨0⟩ }

/-- The entry that the peer waits on. -/
def insisting : PendingInterest :=
  .fromFace freshInterest ⟨1⟩ config.interestTimeout ⟨0⟩

end Sample

end NamedRelay
