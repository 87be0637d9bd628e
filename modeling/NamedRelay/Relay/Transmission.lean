import NamedRelay.Relay.Basic

/-!
# Sending

Packets wait on a face until its scheduler grants one of them, move to the face's interface, and
wait there until the interface's scheduler lets them go to the link. The local face has no
interface; the application takes its packets itself.
-/

namespace NamedRelay.Relay

variable {σ κ : Type}

/-! ## Interfaces -/

def addInterface (r : Relay σ κ) (config : InterfaceConfig) : Except Error Nat × Relay σ κ :=
  if r.interfaces.length < r.config.maxInterfaces then
    (.ok r.interfaces.length,
      { r with interfaces := r.interfaces ++ [Interface.ofConfig config] })
  else (.error (.capacityExceeded .interfaces r.config.maxInterfaces), r)

def setInterfaceScheduler (r : Relay σ κ) (index : Nat) (scheduler : σ) :
    Except Error Unit × Relay σ κ :=
  if index < r.interfaces.length then
    (.ok (),
      { r with interfaces := r.interfaces.modify index fun i => { i with scheduler } })
  else (.error (.notFound .interface), r)

/-- Queues a packet on an interface. A full queue drops it. -/
def interfaceEnqueue (r : Relay σ κ) (index : Nat) (face : Option FaceId) (packet : Bytes)
    (destination : Address) : Bool × Relay σ κ :=
  match r.interfaces[index]? with
  | none => (false, r)
  | some i =>
    let request : TransmitRequest := ⟨packet, destination, face⟩
    let (hasRoom, i) := i.enqueue request
    let queued := ({ r with interfaces := r.interfaces.set index i }).emit
      (.accepted index request hasRoom)
    if hasRoom then (true, queued)
    else (false, queued.tally fun c => { c with queueDrops := c.queueDrops + 1 })

variable [Scheduler σ]

def reportSent (r : Relay σ κ) (face : Option FaceId) (length : Nat) : Relay σ κ :=
  match face.bind r.faces.get? with
  | some f =>
    if f.scheduler.isSome then
      ({ r with faces := r.faces.modify f.id fun g =>
          { g with scheduler := Scheduler.noteOne g.scheduler length } }).emit
        (.sendReported (.face f.id) 1 length)
    else r
  | none => r

def interfaceClearToSend (r : Relay σ κ) (index : Nat) : Bool × Relay σ κ :=
  match r.interfaces[index]? with
  | none => (false, r)
  | some i =>
    match i.clearToSend index with
    | (none, _, _) => (false, r)
    | (some request, i, events) =>
      let sent := ({ r with interfaces := r.interfaces.set index i }).emitAll events
      (true, sent.reportSent request.face request.packet.length)

/-- Whether an interface may send its oldest packet now. -/
def interfaceReady (r : Relay σ κ) (index : Nat) : Bool × Relay σ κ :=
  match r.interfaces[index]? with
  | none => (false, r)
  | some i =>
    let (granted, i, events) := i.ready index
    (granted, ({ r with interfaces := r.interfaces.set index i }).emitAll events)

/-- Sends at most `limit` packets of an interface, as long as they are let go. -/
def drain : Nat → Relay σ κ → (index : Nat) → Nat × Relay σ κ
  | 0, r, _ => (0, r)
  | limit + 1, r, index =>
    match r.interfaceReady index with
    | (false, r) => (0, r)
    | (true, r) =>
      match r.interfaceClearToSend index with
      | (false, r) => (0, r)
      | (true, r) =>
        let (sent, r) := drain limit r index
        (sent + 1, r)

def waitingOn (r : Relay σ κ) (index : Nat) : Nat :=
  (r.interfaces[index]?).elim 0 fun i => i.queue.len

/-- Sends what the interfaces' schedulers let go, in the order of the interfaces. -/
def transmitAll (r : Relay σ κ) : Nat × Relay σ κ :=
  (List.range r.interfaces.length).foldl (fun (sent, r) index =>
    let (more, r) := drain (r.waitingOn index) r index
    (sent + more, r)) (0, r)

/-! ## Faces -/

/-- Moves the oldest packet of a face to its interface, addressed to its peer. -/
def faceClearToSend (r : Relay σ κ) (id : FaceId) : Bool × Relay σ κ :=
  match r.faces.get? id with
  | none => (false, r)
  | some f =>
    match f.interface, f.peer, f.dequeue with
    | some index, some destination, (some packet, f) =>
      ({ r with faces := r.faces.modify id fun _ => f }).interfaceEnqueue index (some id) packet
        destination
    | _, _, _ => (false, r)

/-- Asks the scheduler of a face whether a packet of `length` bytes may go. -/
def askFace (r : Relay σ κ) (f : Face σ) (length : Nat) : Bool × Relay σ κ :=
  match Scheduler.askOne f.scheduler length with
  | (none, _) => (true, r)
  | (some granted, scheduler) =>
    (granted, ({ r with faces := r.faces.modify f.id fun g => { g with scheduler } }).emit
      (.sendRequested (.face f.id) 1 length granted))

/-- Puts a packet on a face, and moves one on if the face's scheduler agrees. The flag says whether
the packet was not waiting there already. -/
def offer (r : Relay σ κ) (purpose : Purpose) (id : FaceId) (packet : Bytes) :
    Except Error Bool × Relay σ κ :=
  match r.faces.get? id with
  | none => (.error (.notFound .face), r)
  | some f =>
    let (isNew, f) := f.enqueue packet
    let offered := ({ r with faces := r.faces.modify id fun _ => f }).emit
      (.queued id purpose packet isNew)
    if isNew then
      match offered.askFace f packet.length with
      | (true, r) => (.ok true, (r.faceClearToSend id).2)
      | (false, r) => (.ok true, r)
    else (.ok false, offered)

def faceEnqueue (r : Relay σ κ) (id : FaceId) (packet : Bytes) : Except Error Bool × Relay σ κ :=
  r.offer .direct id packet

omit [Scheduler σ] in
def faceDequeue (r : Relay σ κ) (id : FaceId) : Option Bytes × Relay σ κ :=
  match r.faces.get? id with
  | none => (none, r)
  | some f =>
    let (packet, f) := f.dequeue
    (packet, { r with faces := r.faces.modify id fun _ => f })

end NamedRelay.Relay
