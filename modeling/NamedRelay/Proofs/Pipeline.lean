import NamedRelay.Proofs.Ring
import NamedRelay.Proofs.Steps

/-!
# The transmit pipeline

A packet joins the queue of a face, moves on to the queue of the face's interface, and is handed to
the link from there. `Moves` lists what happens to these queues while a relay handles packets: a
packet joins a face, a face or an interface passes its oldest packet on, a face is created, or the
queues stay as they are. Whatever handles packets is a chain of such moves.
-/

namespace NamedRelay

/-- The events of the pipeline. -/
def Event.isTransport : Event → Bool
  | queued _ _ _ isNew => isNew
  | accepted _ _ _ => true
  | transmitted _ _ _ => true
  | _ => false

/-- A face as part of the pipeline. -/
structure FaceLine where
  id : FaceId
  interface : Option Nat
  peer : Option Address
  queue : List Bytes

def Face.line {σ : Type} (f : Face σ) : FaceLine :=
  ⟨f.id, f.interface, f.peer, f.queue⟩

/-- An interface as part of the pipeline. -/
structure InterfaceLine where
  queue : Ring TransmitRequest interfaceCapacity
  transmitted : UInt64
  dropped : UInt64

namespace Interface

variable {σ : Type}

def line (i : Interface σ) : InterfaceLine :=
  ⟨i.queue, i.transmitted, i.dropped⟩

lemma map_line_set {interfaces : List (Interface σ)} {index : Nat} {i i' : Interface σ}
    (hi : interfaces[index]? = some i) (hline : i'.line = i.line) :
    (interfaces.set index i').map line = interfaces.map line := by
  obtain ⟨hlt, rfl⟩ := List.getElem?_eq_some_iff.mp hi
  have hlt' : index < (interfaces.map line).length := by simpa using hlt
  have hsame : (interfaces.map line)[index] = interfaces[index].line := List.getElem_map line
  rw [List.map_set, hline, ← hsame]
  exact List.set_getElem_self hlt'

/-- Asking the scheduler of an interface leaves its queue alone. -/
lemma ready_line [Scheduler σ] (i : Interface σ) (index : Nat) :
    (i.ready index).2.1.line = i.line ∧
      ∀ event ∈ (i.ready index).2.2, event.isTransport = false := by
  unfold ready
  split
  · exact ⟨rfl, by simp⟩
  · split
    · exact ⟨rfl, by simp⟩
    · exact ⟨rfl, by simp [Event.isTransport]⟩

end Interface

/-- A change that keeps the number of a face keeps all numbers. -/
lemma FaceRegistry.map_id_modify {σ : Type} (g : FaceRegistry σ) {id : FaceId}
    {change : Face σ → Face σ} (hid : ∀ f, f.id = id → (change f).id = id) :
    (g.modify id change).faces.map Face.id = g.faces.map Face.id := by
  unfold modify
  rw [List.map_map]
  congr 1
  funext f
  by_cases hf : f.id = id
  · simp [hf, hid f hf]
  · simp [hf]

namespace Relay

variable {σ κ : Type}

/-- Nothing moves in the pipeline. -/
structure Still (r r' : Relay σ κ) : Prop where
  numbers : r'.faces.faces.map Face.id = r.faces.faces.map Face.id
  faces : ∀ id, (r'.faces.get? id).map Face.line = (r.faces.get? id).map Face.line
  latest : r'.faces.latest = r.faces.latest
  interfaces : r'.interfaces.map Interface.line = r.interfaces.map Interface.line
  drops : r'.counters.queueDrops = r.counters.queueDrops
  log : ∃ events, r'.log = r.log ++ events ∧ ∀ event ∈ events, event.isTransport = false

/-- What happens to the queues while packets are handled. -/
inductive Moves [Scheduler σ] : Relay σ κ → Relay σ κ → Prop where
  | still {r r' : Relay σ κ} : r.Still r' → Moves r r'
  | joins {r : Relay σ κ} {id : FaceId} {f : Face σ} (purpose : Purpose) {packet : Bytes} :
      r.faces.get? id = some f → packet ∉ f.queue → Moves r (r.queue purpose f packet)
  | forwards (r : Relay σ κ) (id : FaceId) : Moves r (r.faceClearToSend id).2
  | sends (r : Relay σ κ) (index : Nat) : Moves r (r.interfaceClearToSend index).2
  | meets (r : Relay σ κ) {interface : Option Nat} {peer : Option Address} :
      (∀ index, interface = some index → index < r.interfaces.length) →
      interface.isSome = peer.isSome → r.faces.findPeer? interface peer = none →
      Moves r (r.createFace interface peer).2
  | trans {r m r' : Relay σ κ} : Moves r m → Moves m r' → Moves r r'

/-! ## What leaves the queues alone -/

namespace Still

lemma refl (r : Relay σ κ) : r.Still r :=
  ⟨rfl, fun _ => rfl, rfl, rfl, rfl, [], (List.append_nil _).symm, by simp⟩

lemma emitAll (r : Relay σ κ) {events : List Event}
    (h : ∀ event ∈ events, event.isTransport = false) : r.Still (r.emitAll events) :=
  { refl r with log := ⟨events, rfl, h⟩ }

lemma emit (r : Relay σ κ) {event : Event} (h : event.isTransport = false) :
    r.Still (r.emit event) :=
  { refl r with log := ⟨[event], rfl, by simpa using h⟩ }

lemma tally (r : Relay σ κ) (count : Counters → Counters)
    (h : ∀ c, (count c).queueDrops = c.queueDrops) : r.Still (r.tally count) :=
  { refl r with drops := h _ }

lemma modifyFace (r : Relay σ κ) (id : FaceId) (change : Face σ → Face σ)
    (hid : ∀ f, f.id = id → (change f).id = id)
    (hline : ∀ f, r.faces.get? id = some f → (change f).line = f.line) :
    r.Still (r.modifyFace id change) where
  numbers := r.faces.map_id_modify hid
  faces j := by
    have hget := r.faces.get?_modify hid j
    unfold Relay.modifyFace
    rw [hget, Option.map_map]
    cases hj : r.faces.get? j with
    | none => rfl
    | some f =>
      by_cases hf : f.id = id
      · have hchange := hline f (by rw [← hf, FaceRegistry.id_of_get? hj, hj])
        simp [hf, hchange]
      · simp [hf]
  latest := rfl
  interfaces := rfl
  drops := rfl
  log := (refl r).log

lemma setInterface (r : Relay σ κ) {index : Nat} {i i' : Interface σ}
    (hi : r.interfaces[index]? = some i) (hline : i'.line = i.line) :
    r.Still { r with interfaces := r.interfaces.set index i' } :=
  { refl r with interfaces := Interface.map_line_set hi hline }

lemma touchFace (r : Relay σ κ) (id : FaceId) (now : Timestamp) : r.Still (r.touchFace id now) :=
  modifyFace r id (fun f => f.touch now) (fun _ hf => hf) fun _ _ => rfl

lemma received (r : Relay σ κ) (id : FaceId) (count : Counters → Counters)
    (h : ∀ c, (count c).queueDrops = c.queueDrops) :
    r.Still ((r.touchFace id r.clock).tally count) :=
  { touchFace r id r.clock with drops := h _ }

lemma checkNonce (r : Relay σ κ) (packet : Packet) : r.Still (r.checkNonce packet).2 := by
  unfold Relay.checkNonce
  split
  · exact refl r
  · split
    · exact { refl r with }
    · exact refl r

lemma deliver (r : Relay σ κ) (face : Option FaceId) (content : Packet) :
    r.Still (r.deliver face content) := by
  unfold Relay.deliver
  split
  · exact emit r rfl
  · exact refl r

lemma setInterfaceScheduler (r : Relay σ κ) (index : Nat) (scheduler : σ) :
    r.Still (r.setInterfaceScheduler index scheduler).2 := by
  unfold Relay.setInterfaceScheduler
  split
  · refine { refl r with interfaces := ?_ }
    apply List.ext_getElem?
    intro j
    rw [List.getElem?_map, List.getElem?_map, List.getElem?_modify]
    cases r.interfaces[j]? with
    | none => rfl
    | some i => split <;> rfl
  · exact refl r

lemma addRoute (r : Relay σ κ) (name : Name) (face : FaceId) :
    r.Still (r.addRoute name face).2 := by
  unfold Relay.addRoute
  split
  · exact { refl r with }
  · exact refl r

lemma removeRoute (r : Relay σ κ) (name : Option Name) (face : Option FaceId) :
    r.Still (r.removeRoute name face).2 := by
  unfold Relay.removeRoute
  split
  · exact { refl r with }
  · exact refl r

lemma removeCached (r : Relay σ κ) (path : String) : r.Still (r.removeCached path).2 := by
  unfold Relay.removeCached
  split
  · exact refl r
  · exact { refl r with }

/-- A packet that waits already does not join the queue. -/
lemma queue (r : Relay σ κ) (purpose : Purpose) {f : Face σ} {packet : Bytes}
    (hf : r.faces.get? f.id = some f) (hwaits : packet ∈ f.queue) :
    r.Still (r.queue purpose f packet) := by
  have hsame : f.enqueue packet = (false, f) := if_pos hwaits
  have hface : r.Still (r.modifyFace f.id fun _ => f) := by
    apply modifyFace r f.id (fun _ => f) fun _ _ => rfl
    intro g hg
    rw [hf] at hg
    cases hg
    rfl
  unfold Relay.queue
  rw [hsame]
  exact { hface with log := ⟨[_], rfl, by simp [Event.isTransport]⟩ }

lemma withPending (r : Relay σ κ) (pending : PendingTable) : r.Still { r with pending } :=
  { refl r with }

section

variable [Scheduler σ]

lemma reportSent (r : Relay σ κ) (face : Option FaceId) (length : Nat) :
    r.Still (r.reportSent face length) := by
  unfold Relay.reportSent
  split
  · rename_i f _
    split
    · have hface := modifyFace r f.id
        (fun g => { g with scheduler := Scheduler.noteOne g.scheduler length })
        (fun _ hg => hg) fun _ _ => rfl
      exact { hface with log := ⟨[_], rfl, by simp [Event.isTransport]⟩ }
    · exact refl r
  · exact refl r

lemma askFace (r : Relay σ κ) (f : Face σ) (length : Nat) : r.Still (r.askFace f length).2 := by
  unfold Relay.askFace
  split
  · exact refl r
  · rename_i scheduler _
    have hface := modifyFace r f.id (fun g => { g with scheduler })
      (fun _ hg => hg) fun _ _ => rfl
    exact { hface with log := ⟨[_], rfl, by simp [Event.isTransport]⟩ }

lemma interfaceReady (r : Relay σ κ) (index : Nat) : r.Still (r.interfaceReady index).2 := by
  unfold Relay.interfaceReady
  split
  · exact refl r
  · rename_i i hi
    obtain ⟨hline, hevents⟩ := i.ready_line index
    exact { setInterface r hi hline with log := ⟨_, rfl, hevents⟩ }

end

section

variable [CacheStrategy κ]

lemma storeEntry (r : Relay σ κ) (entry : CachedContent) : r.Still (r.storeEntry entry).2 where
  numbers := rfl
  faces _ := rfl
  latest := rfl
  interfaces := rfl
  drops := rfl
  log := by
    refine ⟨_, rfl, ?_⟩
    intro event hevent
    obtain ⟨stored, incoming, handled, rfl⟩ := r.store.roomRequested_of_mem_add hevent
    rfl

lemma askAdmission (r : Relay σ κ) (content : Packet) : r.Still (r.askAdmission content).2 := by
  unfold Relay.askAdmission
  split
  · exact refl r
  · exact { refl r with log := ⟨[_], rfl, by simp [Event.isTransport]⟩ }

lemma cacheServed (r : Relay σ κ) (staleCopy : Option Handle) (content : Packet)
    (served : Recipients) : r.Still (r.cacheServed staleCopy content served) := by
  unfold Relay.cacheServed
  split
  · exact { refl r with }
  · exact storeEntry r _

end

end Still

/-! ## Packets on the move -/

namespace Moves

variable [Scheduler σ]

lemma refl (r : Relay σ κ) : Moves r r :=
  .still (.refl r)

lemma foldl {α : Type} {f : Relay σ κ → α → Relay σ κ} (hf : ∀ m a, Moves m (f m a))
    (items : List α) (r : Relay σ κ) : Moves r (items.foldl f r) := by
  induction items generalizing r with
  | nil => exact refl r
  | cons a items ih => exact (hf r a).trans (ih (f r a))

lemma drain (limit : Nat) (r : Relay σ κ) (index : Nat) : Moves r (drain limit r index).2 := by
  induction limit generalizing r with
  | zero => exact refl r
  | succ limit ih =>
    have hready := still (.interfaceReady r index)
    unfold Relay.drain
    split
    · rename_i m hm
      rwa [hm] at hready
    · rename_i m hm
      have hsent := hready.trans (.sends _ index)
      rw [hm] at hsent
      split
      · rename_i m' hm'
        rwa [hm'] at hsent
      · rename_i m' hm'
        rw [hm'] at hsent
        exact hsent.trans (ih m')

lemma foldl_snd {f : Nat × Relay σ κ → Nat → Nat × Relay σ κ}
    (hf : ∀ s index, Moves s.2 (f s index).2) (indices : List Nat) (s : Nat × Relay σ κ) :
    Moves s.2 (indices.foldl f s).2 := by
  induction indices generalizing s with
  | nil => exact refl s.2
  | cons index indices ih => exact (hf s index).trans (ih (f s index))

lemma transmitAll (r : Relay σ κ) : Moves r r.transmitAll.2 := by
  unfold Relay.transmitAll
  refine foldl_snd ?_ _ (0, r)
  rintro ⟨sent, m⟩ index
  exact drain (m.waitingOn index) m index

lemma getFace (r : Relay σ κ) (interface : Option Nat) (peer : Option Address) :
    Moves r (r.getFace interface peer).2 := by
  unfold Relay.getFace
  split
  · exact refl r
  · rename_i interface' hinterface
    split
    · exact still (.touchFace r _ _)
    · rename_i hnobody
      refine meets r ?_ (isSome_of_interfaceFor hinterface) hnobody
      intro index hindex
      exact lt_of_interfaceFor (hindex ▸ hinterface)

/-- A packet that is offered joins the queue unless it waits there. If the scheduler agrees, the
oldest packet of the queue moves on. -/
lemma offer (r : Relay σ κ) (purpose : Purpose) (id : FaceId) (packet : Bytes) :
    Moves r (r.offer purpose id packet).2 := by
  cases hface : r.faces.get? id with
  | none =>
    rw [offer_of_not_live r purpose hface]
    exact refl r
  | some f =>
    obtain rfl := FaceRegistry.id_of_get? hface
    have hqueued : Moves r (r.queue purpose f packet) := by
      by_cases hwaits : packet ∈ f.queue
      · exact still (.queue r purpose hface hwaits)
      · exact joins purpose hface hwaits
    have hasked := hqueued.trans (still (.askFace _ (f.enqueue packet).2 packet.length))
    unfold Relay.queue at hqueued hasked
    unfold Relay.offer
    rw [hface]
    dsimp only
    split
    · split
      · rename_i m hm
        rw [hm] at hasked
        exact hasked.trans (.forwards m f.id)
      · rename_i m hm
        rwa [hm] at hasked
    · exact hqueued

lemma forwardInterest (r : Relay σ κ) (wire : Bytes) (id : FaceId) :
    Moves r (r.forwardInterest wire id) := by
  have hcounted := Still.tally r
    (fun c => { c with interestsForwarded := c.interestsForwarded + 1 }) fun _ => rfl
  exact (still hcounted).trans (offer _ .interest id wire)

lemma forwardContent (r : Relay σ κ) (wire : Bytes) (id : FaceId) :
    Moves r (r.forwardContent wire id) := by
  have hcounted := Still.tally r
    (fun c => { c with contentsForwarded := c.contentsForwarded + 1 }) fun _ => rfl
  exact (still hcounted).trans (offer _ .reply id wire)

lemma broadcastOn (r : Relay σ κ) (wire : Bytes) (suite : Suite) (index : Nat) :
    Moves r (r.broadcastOn wire suite index) := by
  unfold Relay.broadcastOn
  split
  · exact refl r
  · rename_i i _
    have hface := getFace r (some index) (some (i.address.broadcast suite))
    split
    · rename_i id m hm
      rw [hm] at hface
      exact hface.trans (forwardInterest m wire id)
    · rename_i e m hm
      rwa [hm] at hface

lemma broadcast (r : Relay σ κ) (wire : Bytes) (suite : Suite) :
    Moves r (r.broadcast wire suite) :=
  foldl (fun m index => broadcastOn m wire suite index) _ r

lemma propagate (r : Relay σ κ) (e : PendingInterest) : Moves r (r.propagate e) := by
  have htaps : ∀ event ∈ tapEvents e (r.routesFor e), event.isTransport = false := by
    intro event hevent
    obtain ⟨route, -, htap⟩ := List.mem_filterMap.mp hevent
    obtain ⟨tap, -, rfl⟩ := Option.map_eq_some_iff.mp htap
    rfl
  have hforwarded := (still (.emitAll r htaps)).trans
    (foldl (fun m id => forwardInterest m e.packet.wire id) (r.targets e) _)
  unfold Relay.propagate
  dsimp only
  split
  · exact hforwarded.trans (broadcast _ e.packet.wire e.packet.suite)
  · exact hforwarded

lemma interestPropagate (r : Relay σ κ) (h : Handle) : Moves r (r.interestPropagate h) := by
  unfold Relay.interestPropagate
  split
  · exact propagate r _
  · exact refl r

lemma interestBroadcast (r : Relay σ κ) (h : Handle) : Moves r (r.interestBroadcast h) := by
  unfold Relay.interestBroadcast
  split
  · exact broadcast r _ _
  · exact refl r

/-! ## Packets coming in -/

lemma answerFromCache (r : Relay σ κ) (face : Face σ) (h : Handle) :
    Moves r (r.answerFromCache face h) := by
  have hhit : r.Still { r.tally fun c => { c with cacheHits := c.cacheHits + 1 } with
      store := r.store.modify h fun e => (e.recordServed 1).touch r.clock } :=
    { Still.refl r with }
  unfold Relay.answerFromCache
  dsimp only
  split
  · exact still hhit
  · split
    · exact (still hhit).trans (still (.deliver _ _ _))
    · exact (still hhit).trans (forwardContent _ _ _)

lemma answerOwn (r : Relay σ κ) (h : Handle) : Moves r (r.answerOwn h) := by
  have hhit : r.Still { r.tally fun c => { c with cacheHits := c.cacheHits + 1 } with
      store := r.store.modify h fun e => ((e.recordServed 1).touch r.clock).pinIf true } :=
    { Still.refl r with }
  unfold Relay.answerOwn
  dsimp only
  split
  · exact still hhit
  · exact (still hhit).trans (still (.deliver _ _ _))

lemma openPending (r : Relay σ κ) (e : PendingInterest) : Moves r (r.openPending e) :=
  (still (.withPending r _)).trans (interestPropagate _ _)

lemma recordInterest (r : Relay σ κ) (face : Face σ) (interest : Packet) :
    Moves r (r.recordInterest face interest) := by
  unfold Relay.recordInterest
  split
  · rename_i h _
    have hjoined := Still.withPending r
      (r.pending.modify h fun e => e.addWaiter face.id r.clock)
    dsimp only
    split
    · exact (still hjoined).trans (interestPropagate _ h)
    · exact still hjoined
  · exact openPending r _

lemma recordOwn (r : Relay σ κ) (interest : Packet) : Moves r (r.recordOwn interest) := by
  unfold Relay.recordOwn
  split
  · exact still (.withPending r _)
  · exact openPending r _

lemma dropDuplicate (r : Relay σ κ) : Moves r r.dropDuplicate :=
  still (.tally r _ fun _ => rfl)

lemma takeInterest (r : Relay σ κ) (face : Face σ) (interest : Packet) :
    Moves r (r.takeInterest face interest) := by
  have hchecked := still (.checkNonce r interest)
  rw [takeInterest_eq]
  dsimp only
  split
  · exact hchecked.trans (dropDuplicate _)
  · split
    · exact hchecked.trans (answerFromCache _ face _)
    · exact hchecked.trans (recordInterest _ face interest)

lemma handleInterest (r : Relay σ κ) (id : FaceId) (interest : Packet) :
    Moves r (r.handleInterest id interest).2 := by
  rcases r.handleInterest_cases id interest with ⟨-, hsame⟩ | ⟨face, -, -, htaken⟩
  · rw [hsame]
    exact refl r
  · have hreceived := Still.received r id
      (fun c => { c with interestsReceived := c.interestsReceived + 1 }) fun _ => rfl
    rw [htaken]
    exact (still hreceived).trans (takeInterest _ face interest)

lemma expressInterest (r : Relay σ κ) (interest : Packet) :
    Moves r (r.expressInterest interest).2 := by
  cases hkind : interest.isInterest with
  | false =>
    rw [r.expressInterest_of_content hkind]
    exact refl r
  | true =>
    have hchecked := still (.checkNonce r interest)
    rw [r.expressInterest_eq hkind]
    dsimp only
    split
    · exact hchecked.trans (dropDuplicate _)
    · split
      · exact hchecked.trans (answerOwn _ _)
      · exact hchecked.trans (recordOwn _ interest)

lemma servePacket (r : Relay σ κ) (content : Packet) : Moves r (r.servePacket content).2 := by
  have hforwarded := (still (.withPending r _)).trans
    (foldl (fun m id => forwardContent m content.wire id) (r.recipients content).network
      (r.withoutSatisfied content))
  exact hforwarded.trans (foldl (fun m id => still (.deliver m id content)) _ _)

lemma servePending (r : Relay σ κ) (h : Handle) : Moves r (r.servePending h).2 := by
  unfold Relay.servePending
  split
  · exact refl r
  · exact (servePacket r _).trans (still { Still.refl _ with })

variable [CacheStrategy κ]

lemma acceptContent (r : Relay σ κ) (staleCopy : Option Handle) (content : Packet) :
    Moves r (r.acceptContent staleCopy content) := by
  have hserved := servePacket r content
  have hasked := hserved.trans (still (.askAdmission _ content))
  rw [acceptContent_eq]
  dsimp only
  split
  · exact hserved.trans (still (.tally _ _ fun _ => rfl))
  · split
    · exact hasked.trans (still (.cacheServed _ staleCopy content _))
    · exact hasked

lemma answerContent (r : Relay σ κ) (content : Packet) : Moves r (r.answerContent content) := by
  unfold Relay.answerContent
  split
  · exact acceptContent r none content
  · split
    · exact acceptContent r _ content
    · exact servePending r _

lemma handleContent (r : Relay σ κ) (id : FaceId) (content : Packet) :
    Moves r (r.handleContent id content).2 := by
  rcases r.handleContent_cases id content with ⟨-, hsame⟩ | ⟨-, -, hanswered⟩
  · rw [hsame]
    exact refl r
  · have hreceived := Still.received r id
      (fun c => { c with contentsReceived := c.contentsReceived + 1 }) fun _ => rfl
    rw [hanswered]
    exact (still hreceived).trans (answerContent _ content)

lemma dispatch (r : Relay σ κ) (id : FaceId) (packet : Packet) :
    Moves r (r.dispatch id packet).2 := by
  unfold Relay.dispatch
  split
  · exact handleInterest r id packet
  · exact handleContent r id packet

lemma receive (r : Relay σ κ) (decode : Bytes → Except Error Packet) (interface : Nat)
    (peer : Address) (bytes : Bytes) : Moves r (r.receive decode interface peer bytes).2 := by
  have hface := getFace r (some interface) (some peer)
  unfold Relay.receive
  split
  · exact refl r
  · split
    · exact refl r
    · rename_i packet _
      split
      · rename_i m hm
        rwa [hm] at hface
      · rename_i id m hm
        rw [hm] at hface
        exact hface.trans (dispatch m id packet)

lemma addContent (r : Relay σ κ) (content : Packet) : Moves r (r.addContent content).2 := by
  have hadded : Moves r (r.addToCache content).2 := still (.storeEntry r _)
  unfold Relay.addContent
  split
  · rename_i m hm
    rwa [hm] at hadded
  · rename_i h m hm
    rw [hm] at hadded
    exact hadded.trans (servePending m h)

omit [CacheStrategy κ] in
lemma agePending (r : Relay σ κ) : Moves r r.ageStore.agePending := by
  have hswept : r.Still (({ r.ageStore with
      pending := r.pending.retain (PendingInterest.age? r.config.maxRetransmits r.clock) } :
        Relay σ κ).tally fun c => { c with
          interestTimeouts := c.interestTimeouts +
            UInt64.ofNat (r.pending.toList.filter r.ageStore.isExpired).length }) :=
    { Still.refl r with }
  exact (still hswept).trans (foldl propagate _ _)

end Moves

end Relay

end NamedRelay
