import NamedRelay.Proofs.LiveFaces
import NamedRelay.Proofs.Outcome
import NamedRelay.Proofs.Pinning

/-!
# What failures leave

An operation that fails leaves the relay as it was. All checks come before the first change, with
one exception: a full store asks its strategy for room and evicts before it finds that there still
is none. But a full store holds as many entries as it may, so none were evicted then. Nothing fails
later: the face a packet came in on is there until the packet is dealt with, and the one reply that
could be refused is for that face.
-/

namespace NamedRelay

/-- Why something failed. -/
def errorOf? {α : Type} : Except Error α → Option Error
  | .ok _ => none
  | .error e => some e

lemma errorOf?_eq_none_of_isOk {α : Type} {x : Except Error α} (h : x.isOk = true) :
    errorOf? x = none := by
  cases x with
  | ok _ => rfl
  | error _ => cases h

/-- Why an operation fails in a state, if it does. Those not listed cannot fail. -/
def Operation.failure? {σ κ : Type} [Scheduler σ] [CacheStrategy κ] :
    Operation σ κ → Relay σ κ → Option Error
  | addInterface config, r => errorOf? (r.addInterface config).1
  | setInterfaceScheduler index scheduler, r => errorOf? (r.setInterfaceScheduler index scheduler).1
  | getFace interface peer, r => errorOf? (r.getFace interface peer).1
  | removeFace id, r => errorOf? (r.removeFace id).1
  | faceEnqueue id packet, r => errorOf? (r.faceEnqueue id packet).1
  | addRoute name face, r => errorOf? (r.addRoute name face).1
  | removeRoute name face, r => errorOf? (r.removeRoute name face).1
  | receive decode interface peer bytes, r => errorOf? (r.receive decode interface peer bytes).1
  | dispatch id packet, r => errorOf? (r.dispatch id packet).1
  | handleInterest id interest, r => errorOf? (r.handleInterest id interest).1
  | expressInterest interest, r => errorOf? (r.expressInterest interest).1
  | handleContent id content, r => errorOf? (r.handleContent id content).1
  | addToCache content, r => errorOf? (r.addToCache content).1
  | addContent content, r => errorOf? (r.addContent content).1
  | removeCached path, r => errorOf? (r.removeCached path).1
  | _, _ => none

/-! ## A store that stays full -/

namespace SlotTable

variable {α : Type}

/-- A removal that removes nothing changes nothing. -/
lemma remove_eq_self {t : SlotTable α} {h : Handle}
    (hlen : t.toList.length ≤ (t.remove h).2.toList.length) : (t.remove h).2 = t := by
  cases hv : t.get? h with
  | none => exact remove_of_none hv
  | some value =>
    obtain ⟨before, after, hl, hl'⟩ := split_of_remove hv
    rw [hl, hl', List.length_append, List.length_append, List.length_cons] at hlen
    omega

end SlotTable

namespace ContentStore

variable {κ : Type} [CacheStrategy κ]

/-- No entry went if the store is still full after room was made. -/
lemma toList_cleared_of_isFull (hκ : CacheStrategy.OnlyRemoves κ) {s : ContentStore}
    (hwithin : s.WithinCapacity) {strategy : Option κ} {incoming : Packet}
    (hfull : (s.cleared strategy incoming).isFull = true) :
    (s.cleared strategy incoming).entries.toList = s.entries.toList := by
  have hcapacity := s.capacity_cleared strategy incoming
  obtain ⟨hlimit, hlen⟩ : s.capacity ≠ 0 ∧ s.capacity ≤ (s.cleared strategy incoming).len := by
    simpa [isFull, hcapacity] using hfull
  apply (s.toList_cleared_sublist hκ strategy incoming).eq_of_length_le
  rw [← SlotTable.len_eq_length_toList, ← SlotTable.len_eq_length_toList]
  exact Nat.le_trans (hwithin hlimit) hlen

lemma slots_cleared_of_isFull (hκ : CacheStrategy.OnlyRemoves κ) {s : ContentStore}
    (hpacked : s.entries.Packed) (hwithin : s.WithinCapacity) {strategy : Option κ}
    {incoming : Packet} (hfull : (s.cleared strategy incoming).isFull = true) :
    (s.cleared strategy incoming).entries.slots = s.entries.slots := by
  rw [(s.packed_cleared strategy incoming).slots_eq, hpacked.slots_eq,
    toList_cleared_of_isFull hκ hwithin hfull]

/-- Without a strategy, a store that stays full was not touched at all. -/
lemma cleared_eq_of_isFull (hκ : CacheStrategy.OnlyRemoves κ) {s : ContentStore}
    (hpacked : s.entries.Packed) (hwithin : s.WithinCapacity) {incoming : Packet}
    (hfull : (s.cleared (none : Option κ) incoming).isFull = true) :
    s.cleared (none : Option κ) incoming = s := by
  have hsame : s.evictOldest.entries.toList = s.entries.toList := by
    rw [← SlotTable.toList_compact]
    exact toList_cleared_of_isFull hκ hwithin hfull
  have hkept : s.evictOldest = s := by
    unfold evictOldest at hsame ⊢
    split
    · rename_i h holdest
      rw [holdest] at hsame
      have hrest : (s.entries.remove h).2 = s.entries :=
        SlotTable.remove_eq_self (Nat.le_of_eq (congrArg List.length hsame).symm)
      change ({ s with entries := (s.entries.remove h).2 } : ContentStore) = s
      rw [hrest]
    · rfl
  change s.evictOldest.compact = s
  rw [hkept]
  unfold compact
  rw [hpacked.compact_eq]

end ContentStore

namespace Relay

variable {σ κ : Type}

/-- The relay is as it was, but that the strategy may have been asked for room, in vain. -/
structure Unharmed (r r' : Relay σ κ) : Prop where
  config : r'.config = r.config
  clock : r'.clock = r.clock
  digest : r'.digest = r.digest
  /-- With the queues of the faces. -/
  faces : r'.faces = r.faces
  /-- With the queues of the interfaces. -/
  interfaces : r'.interfaces = r.interfaces
  table : r'.table = r.table
  pending : r'.pending = r.pending
  entries : r'.store.entries.slots = r.store.entries.slots
  capacity : r'.store.capacity = r.store.capacity
  nonces : r'.nonces = r.nonces
  schedulerFor : r'.schedulerFor = r.schedulerFor
  delivers : r'.delivers = r.delivers
  counters : r'.counters = r.counters
  log : ∃ asked, r'.log = r.log ++ asked ∧
    ∀ event ∈ asked, ∃ stored incoming handled, event = .roomRequested stored incoming handled

lemma Unharmed.refl (r : Relay σ κ) : r.Unharmed r :=
  ⟨rfl, rfl, rfl, rfl, rfl, rfl, rfl, rfl, rfl, rfl, rfl, rfl, rfl, [], (List.append_nil _).symm,
    by rintro _ ⟨⟩⟩

/-- The bytes are refused before anything is done with them. -/
inductive RefusesBytes (r : Relay σ κ) (decode : Bytes → Except Error Packet) (interface : Nat)
    (peer : Address) (bytes : Bytes) : Error → Prop where
  | oversized : maxPacketBytes < bytes.length →
      r.RefusesBytes decode interface peer bytes (.capacityExceeded .packetBytes maxPacketBytes)
  | undecodable {e : Error} : bytes.length ≤ maxPacketBytes → decode bytes = .error e →
      r.RefusesBytes decode interface peer bytes e
  | noInterface {packet : Packet} : bytes.length ≤ maxPacketBytes → decode bytes = .ok packet →
      r.interfaces.length ≤ interface →
      r.RefusesBytes decode interface peer bytes (.notFound .interface)
  /-- The peer has no face yet, and there is no number for a new one. -/
  | noFaceId {packet : Packet} : bytes.length ≤ maxPacketBytes → decode bytes = .ok packet →
      interface < r.interfaces.length → r.faces.findPeer? (some interface) (some peer) = none →
      r.faces.nextId? = none →
      r.RefusesBytes decode interface peer bytes (.capacityExceeded .faceIds (UInt32.size - 1))

/-! ## Failures before the first change -/

/-- It succeeds, or leaves the relay as it was. -/
def Atomic {α : Type} (r : Relay σ κ) (done : Except Error α × Relay σ κ) : Prop :=
  ∀ e, errorOf? done.1 = some e → done.2 = r

lemma Atomic.of_isOk {α : Type} {r : Relay σ κ} {done : Except Error α × Relay σ κ}
    (h : done.1.isOk = true) : r.Atomic done := by
  intro e he
  rw [errorOf?_eq_none_of_isOk h] at he
  cases he

lemma Atomic.of_eq {α : Type} {r : Relay σ κ} {done : Except Error α × Relay σ κ}
    (h : done.2 = r) : r.Atomic done :=
  fun _ _ => h

lemma addInterface_atomic (r : Relay σ κ) (config : InterfaceConfig) :
    r.Atomic (r.addInterface config) := by
  unfold addInterface
  split
  · exact .of_isOk rfl
  · exact .of_eq rfl

lemma setInterfaceScheduler_atomic (r : Relay σ κ) (index : Nat) (scheduler : σ) :
    r.Atomic (r.setInterfaceScheduler index scheduler) := by
  unfold setInterfaceScheduler
  split
  · exact .of_isOk rfl
  · exact .of_eq rfl

lemma getFace_atomic (r : Relay σ κ) (interface : Option Nat) (peer : Option Address) :
    r.Atomic (r.getFace interface peer) := by
  unfold getFace
  split
  · exact .of_eq rfl
  · rename_i interface' _
    split
    · exact .of_isOk rfl
    · rcases r.createFace_cases interface' peer with hnone | ⟨id, sought, -, -, hcreated⟩
      · rw [hnone]
        exact .of_eq rfl
      · rw [hcreated]
        exact .of_isOk rfl

lemma removeFace_atomic (r : Relay σ κ) (id : FaceId) : r.Atomic (r.removeFace id) := by
  unfold removeFace
  split
  · exact .of_eq rfl
  · exact .of_isOk rfl

lemma addRoute_atomic (r : Relay σ κ) (name : Name) (face : FaceId) :
    r.Atomic (r.addRoute name face) := by
  unfold addRoute
  split
  · exact .of_isOk rfl
  · exact .of_eq rfl

lemma removeRoute_atomic (r : Relay σ κ) (name : Option Name) (face : Option FaceId) :
    r.Atomic (r.removeRoute name face) := by
  unfold removeRoute
  split
  · exact .of_isOk rfl
  · exact .of_eq rfl

lemma removeCached_atomic (r : Relay σ κ) (path : String) : r.Atomic (r.removeCached path) := by
  unfold removeCached
  split
  · exact .of_eq rfl
  · exact .of_isOk rfl

section

variable [Scheduler σ]

lemma offer_atomic (r : Relay σ κ) (purpose : Purpose) (id : FaceId) (packet : Bytes) :
    r.Atomic (r.offer purpose id packet) := by
  cases hface : r.faces.get? id with
  | none =>
    apply Atomic.of_eq
    unfold offer
    rw [hface]
  | some f =>
    apply Atomic.of_isOk
    rw [(r.offer_of_live purpose hface packet).1]
    rfl

lemma handleInterest_atomic (r : Relay σ κ) (id : FaceId) (interest : Packet) :
    r.Atomic (r.handleInterest id interest) := by
  rcases r.handleInterest_cases id interest with ⟨-, hsame⟩ | ⟨face, hkind, hface, -⟩
  · exact .of_eq hsame
  · apply Atomic.of_isOk
    rw [isOk_handleInterest, hkind, isLive, hface]
    rfl

lemma isOk_expressInterest (r : Relay σ κ) (interest : Packet) :
    (r.expressInterest interest).1.isOk = interest.isInterest := by
  unfold expressInterest
  cases interest.isInterest with
  | false => rfl
  | true =>
    rcases r.checkNonce interest with ⟨seen, m⟩
    cases seen with
    | true => rfl
    | false => cases hfound : m.lookupCached interest <;> simp [hfound] <;> rfl

lemma expressInterest_atomic (r : Relay σ κ) (interest : Packet) :
    r.Atomic (r.expressInterest interest) := by
  cases hkind : interest.isInterest with
  | false => exact .of_eq (r.expressInterest_of_content hkind)
  | true => exact .of_isOk (by rw [isOk_expressInterest, hkind])

variable [CacheStrategy κ]

lemma handleContent_atomic (r : Relay σ κ) (id : FaceId) (content : Packet) :
    r.Atomic (r.handleContent id content) := by
  rcases r.handleContent_cases id content with ⟨-, hsame⟩ | ⟨hkind, hlive, -⟩
  · exact .of_eq hsame
  · apply Atomic.of_isOk
    rw [handleContent_of_live hkind hlive]
    rfl

lemma dispatch_atomic (r : Relay σ κ) (id : FaceId) (packet : Packet) :
    r.Atomic (r.dispatch id packet) := by
  unfold dispatch
  split
  · exact r.handleInterest_atomic id packet
  · exact r.handleContent_atomic id packet

/-- A packet that came in on a face that is there cannot fail any more. -/
lemma isOk_dispatch {r : Relay σ κ} {id : FaceId} (hlive : r.isLive id = true) (packet : Packet) :
    (r.dispatch id packet).1.isOk = true := by
  unfold dispatch
  cases hkind : packet.kind with
  | interest =>
    dsimp only
    rw [isOk_handleInterest, hlive]
    simp [Packet.isInterest, hkind]
  | content =>
    have hcontent : packet.isInterest = false := by simp [Packet.isInterest, hkind]
    dsimp only
    rw [handleContent_of_live hcontent hlive]
    rfl

lemma receive_atomic (r : Relay σ κ) (decode : Bytes → Except Error Packet) (interface : Nat)
    (peer : Address) (bytes : Bytes) : r.Atomic (r.receive decode interface peer bytes) := by
  unfold receive
  split
  · exact .of_eq rfl
  · split
    · exact .of_eq rfl
    · rename_i packet _
      have hface := r.getFace_atomic (some interface) (some peer)
      split
      · rename_i e m hm
        rw [hm] at hface
        exact .of_eq (hface e rfl)
      · rename_i id m hm
        exact .of_isOk (isOk_dispatch (isLive_of_getFace hm) packet)

end

/-! ## Failures to store content -/

section

variable [CacheStrategy κ]

/-- How the addition to the store fails, and what it leaves. -/
lemma storeEntry_fails (hκ : CacheStrategy.OnlyRemoves κ) {r : Relay σ κ}
    (hb : r.Bounded) (entry : CachedContent) {e : Error}
    (he : errorOf? (r.storeEntry entry).1 = some e) :
    r.Unharmed (r.storeEntry entry).2 ∧
      (r.strategy = none ∨ e ≠ .capacityExceeded .contentStore r.config.maxCacheEntries →
        (r.storeEntry entry).2 = r) := by
  have hadds := r.store.adds entry r.strategy
  have hasked : ∀ event ∈ (r.store.add entry r.strategy).events,
      ∃ stored incoming handled, event = .roomRequested stored incoming handled :=
    fun _ => r.store.roomRequested_of_mem_add
  have hsame :
      ({ r with store := r.store, strategy := r.strategy } : Relay σ κ).emitAll [] = r := by
    unfold emitAll
    rw [List.append_nil]
  unfold storeEntry at he ⊢
  dsimp only at he ⊢
  generalize r.store.add entry r.strategy = added at hadds hasked he ⊢
  cases hadds with
  | present hfound =>
    rw [hsame]
    exact ⟨.refl r, fun _ => rfl⟩
  | roomy _ _ => cases he
  | crowded hnew hfull hcrowded =>
    have hslots := ContentStore.slots_cleared_of_isFull hκ hb.packed hb.withinCapacity hcrowded
    have hcapacity := r.store.capacity_cleared r.strategy entry.packet
    refine ⟨⟨rfl, rfl, rfl, rfl, rfl, rfl, rfl, hslots, hcapacity, rfl, rfl, rfl, rfl, _, rfl,
      hasked⟩, ?_⟩
    obtain rfl : .capacityExceeded .contentStore r.store.capacity = e := Option.some.inj he
    rw [hb.capacity]
    rintro (hnone | hother)
    · rw [hnone] at hcrowded ⊢
      rw [ContentStore.cleared_eq_of_isFull hκ hb.packed hb.withinCapacity hcrowded]
      change ({ r with strategy := none } : Relay σ κ).emitAll [] = r
      rw [← hnone]
      exact hsame
    · exact absurd rfl hother
  | cleared _ _ _ => cases he

variable [Scheduler σ]

/-- Content is added as soon as it is stored. -/
lemma addContent_eq_of_error {r : Relay σ κ} {content : Packet} {e : Error}
    (he : errorOf? (r.addContent content).1 = some e) :
    r.addContent content = (.error e, (r.addToCache content).2) ∧
      errorOf? (r.addToCache content).1 = some e := by
  unfold addContent at he ⊢
  rcases hadded : r.addToCache content with ⟨e' | h, m⟩
  · rw [hadded] at he
    obtain rfl : e' = e := Option.some.inj he
    exact ⟨rfl, rfl⟩
  · rw [hadded] at he
    cases he

/-- No operation fails after the first change. -/
lemma unharmed_of_failure (hκ : CacheStrategy.OnlyRemoves κ) {r : Relay σ κ} (hb : r.Bounded)
    (op : Operation σ κ) {e : Error} (he : op.failure? r = some e) :
    r.Unharmed (op.run r) ∧
      (r.strategy = none ∨ e ≠ .capacityExceeded .contentStore r.config.maxCacheEntries →
        op.run r = r) := by
  have of_atomic : ∀ {α : Type} {done : Except Error α × Relay σ κ}, r.Atomic done →
      errorOf? done.1 = some e → done.2 = op.run r → r.Unharmed (op.run r) ∧
        (r.strategy = none ∨ e ≠ .capacityExceeded .contentStore r.config.maxCacheEntries →
          op.run r = r) := by
    intro α done hatomic hfails hrun
    rw [← hrun, hatomic e hfails]
    exact ⟨.refl r, fun _ => rfl⟩
  cases op with
  | addInterface config => exact of_atomic (r.addInterface_atomic config) he rfl
  | setInterfaceScheduler index scheduler =>
    exact of_atomic (r.setInterfaceScheduler_atomic index scheduler) he rfl
  | getFace interface peer => exact of_atomic (r.getFace_atomic interface peer) he rfl
  | removeFace id => exact of_atomic (r.removeFace_atomic id) he rfl
  | faceEnqueue id packet => exact of_atomic (r.offer_atomic .direct id packet) he rfl
  | addRoute name face => exact of_atomic (r.addRoute_atomic name face) he rfl
  | removeRoute name face => exact of_atomic (r.removeRoute_atomic name face) he rfl
  | receive decode interface peer bytes =>
    exact of_atomic (r.receive_atomic decode interface peer bytes) he rfl
  | dispatch id packet => exact of_atomic (r.dispatch_atomic id packet) he rfl
  | handleInterest id interest => exact of_atomic (r.handleInterest_atomic id interest) he rfl
  | expressInterest interest => exact of_atomic (r.expressInterest_atomic interest) he rfl
  | handleContent id content => exact of_atomic (r.handleContent_atomic id content) he rfl
  | addToCache content => exact storeEntry_fails hκ hb _ he
  | addContent content =>
    obtain ⟨heq, hfails⟩ := addContent_eq_of_error he
    change r.Unharmed (r.addContent content).2 ∧ (_ → (r.addContent content).2 = r)
    rw [heq]
    exact storeEntry_fails hκ hb _ hfails
  | removeCached path => exact of_atomic (r.removeCached_atomic path) he rfl
  | _ => cases he

end

/-! ## What receiving refuses -/

/-- A face is not found if there is no such interface, or no number left for a peer that is new. -/
lemma getFace_eq_error_iff (r : Relay σ κ) (interface : Nat) (peer : Address) (e : Error) :
    (r.getFace (some interface) (some peer)).1 = .error e ↔
      r.interfaces.length ≤ interface ∧ e = .notFound .interface ∨
        interface < r.interfaces.length ∧
          r.faces.findPeer? (some interface) (some peer) = none ∧ r.faces.nextId? = none ∧
          e = .capacityExceeded .faceIds (UInt32.size - 1) := by
  unfold getFace
  by_cases hindex : interface < r.interfaces.length
  · have hnot : ¬r.interfaces.length ≤ interface := Nat.not_le.mpr hindex
    have hinterface : r.interfaceFor (some interface) (some peer) = .ok (some interface) :=
      if_pos hindex
    rw [hinterface]
    cases hfound : r.faces.findPeer? (some interface) (some peer) with
    | some f => simp [hnot, hfound]
    | none =>
      dsimp only
      unfold createFace
      cases hnew : r.faces.nextId? with
      | none => simp [hfound, hindex, hnot, eq_comm]
      | some id => simp [hfound, hnot]
  · have hinterface : r.interfaceFor (some interface) (some peer) = .error (.notFound .interface) :=
      if_neg hindex
    rw [hinterface]
    simp [hindex, Nat.not_lt.mp hindex, eq_comm]

section

variable [Scheduler σ] [CacheStrategy κ]

lemma receive_of_refused {r : Relay σ κ} {decode : Bytes → Except Error Packet} {interface : Nat}
    {peer : Address} {bytes : Bytes} {e : Error}
    (h : r.RefusesBytes decode interface peer bytes e) :
    (r.receive decode interface peer bytes).1 = .error e := by
  have of_face : ∀ {packet : Packet}, bytes.length ≤ maxPacketBytes → decode bytes = .ok packet →
      (r.getFace (some interface) (some peer)).1 = .error e →
      (r.receive decode interface peer bytes).1 = .error e := by
    intro packet hfits hdecode hface
    unfold receive
    rw [if_neg (Nat.not_lt.mpr hfits), hdecode]
    rcases hm : r.getFace (some interface) (some peer) with ⟨e' | id, m⟩
    · rw [hm] at hface
      cases hface
      rfl
    · rw [hm] at hface
      cases hface
  cases h with
  | oversized hlarge =>
    unfold receive
    rw [if_pos hlarge]
  | undecodable hfits hdecode =>
    unfold receive
    rw [if_neg (Nat.not_lt.mpr hfits), hdecode]
  | noInterface hfits hdecode hindex =>
    exact of_face hfits hdecode ((r.getFace_eq_error_iff _ _ _).mpr (.inl ⟨hindex, rfl⟩))
  | noFaceId hfits hdecode hindex hnew hnumber =>
    exact of_face hfits hdecode
      ((r.getFace_eq_error_iff _ _ _).mpr (.inr ⟨hindex, hnew, hnumber, rfl⟩))

/-- Receiving fails on bytes that are refused, and on no others. -/
lemma receive_eq_error_iff (r : Relay σ κ) (decode : Bytes → Except Error Packet)
    (interface : Nat) (peer : Address) (bytes : Bytes) (e : Error) :
    (r.receive decode interface peer bytes).1 = .error e ↔
      r.RefusesBytes decode interface peer bytes e := by
  refine ⟨?_, receive_of_refused⟩
  intro hfails
  unfold receive at hfails
  split at hfails
  · rename_i hlarge
    cases hfails
    exact .oversized hlarge
  · rename_i hsize
    have hfits : bytes.length ≤ maxPacketBytes := Nat.not_lt.mp hsize
    split at hfails
    · rename_i e' hdecode
      cases hfails
      exact .undecodable hfits hdecode
    · rename_i packet hdecode
      have hface := r.getFace_eq_error_iff interface peer e
      split at hfails
      · rename_i e' m hm
        cases hfails
        rw [hm] at hface
        rcases hface.mp rfl with ⟨hindex, rfl⟩ | ⟨hindex, hnew, hnumber, rfl⟩
        · exact .noInterface hfits hdecode hindex
        · exact .noFaceId hfits hdecode hindex hnew hnumber
      · rename_i id m hm
        have hok := isOk_dispatch (isLive_of_getFace hm) packet
        rw [hfails] at hok
        cases hok

end

/-! ## The reply to the face that asked -/

/-- It is noted that a cached entry answers an interest. -/
def creditHit (r : Relay σ κ) (h : Handle) : Relay σ κ :=
  { r.tally fun c => { c with cacheHits := c.cacheHits + 1 } with
    store := r.store.modify h fun e => (e.recordServed 1).touch r.clock }

section

variable [Scheduler σ]

/-- Answers an interest from a cached entry, and fails where the reply is refused. -/
def answerPassing (r : Relay σ κ) (face : Face σ) (h : Handle) : Except Error Unit × Relay σ κ :=
  match (r.creditHit h).store.get? h with
  | none => (.ok (), r.creditHit h)
  | some entry =>
    if face.isLocal then (.ok (), (r.creditHit h).deliver (some face.id) entry.packet)
    else match (r.creditHit h).offerContent entry.packet.wire face.id with
      | (.ok _, r) => (.ok (), r)
      | (.error e, r) => (.error e, r)

/-- Takes an interest in from a face, and fails where the reply to it is refused. -/
def takeInterestPassing (r : Relay σ κ) (face : Face σ) (interest : Packet) :
    Except Error Unit × Relay σ κ :=
  match r.checkNonce interest with
  | (true, r) => (.ok (), r.dropDuplicate)
  | (false, r) =>
    match r.lookupCached interest with
    | some h => r.answerPassing face h
    | none => (.ok (), r.recordInterest face interest)

/-- Takes in an interest, and fails where the reply to it is refused. -/
def handleInterestPassing (r : Relay σ κ) (id : FaceId) (interest : Packet) :
    Except Error Unit × Relay σ κ :=
  if !interest.isInterest then (.error (.malformed .interestExpected), r)
  else match r.faces.get? id with
    | none => (.error (.notFound .face), r)
    | some face => (r.interestReceived id).takeInterestPassing face interest

lemma answerFromCache_eq (r : Relay σ κ) (face : Face σ) (h : Handle) :
    r.answerFromCache face h =
      match (r.creditHit h).store.get? h with
      | none => r.creditHit h
      | some entry =>
        if face.isLocal then (r.creditHit h).deliver (some face.id) entry.packet
        else ((r.creditHit h).offerContent entry.packet.wire face.id).2 := rfl

lemma answerPassing_of_live {r : Relay σ κ} {face : Face σ} (hlive : r.isLive face.id = true)
    (h : Handle) : r.answerPassing face h = (.ok (), r.answerFromCache face h) := by
  have hoffered : ∀ wire, ∃ added, ((r.creditHit h).offerContent wire face.id).1 = .ok added :=
    fun wire => exists_offer_eq_ok ((r.creditHit h).tally _) .reply hlive wire
  rw [answerFromCache_eq]
  unfold answerPassing
  cases (r.creditHit h).store.get? h with
  | none => rfl
  | some entry =>
    dsimp only
    split
    · rfl
    · obtain ⟨added, hadded⟩ := hoffered entry.packet.wire
      rcases hm : (r.creditHit h).offerContent entry.packet.wire face.id with ⟨e | added', m⟩
      · rw [hm] at hadded
        cases hadded
      · rfl

lemma takeInterestPassing_of_live {r : Relay σ κ} {face : Face σ}
    (hlive : r.isLive face.id = true) (interest : Packet) :
    r.takeInterestPassing face interest = (.ok (), r.takeInterest face interest) := by
  have hstill := (r.checkNonce_acts interest).isLive hlive
  unfold takeInterestPassing takeInterest
  rcases hm : r.checkNonce interest with ⟨seen, m⟩
  rw [hm] at hstill
  cases seen with
  | true => rfl
  | false =>
    dsimp only
    cases m.lookupCached interest with
    | none => rfl
    | some h =>
      dsimp only
      rw [answerPassing_of_live hstill]

/-- The reply is never refused. -/
lemma handleInterestPassing_eq (r : Relay σ κ) (id : FaceId) (interest : Packet) :
    r.handleInterestPassing id interest = r.handleInterest id interest := by
  unfold handleInterestPassing
  cases hkind : interest.isInterest with
  | false => simp [handleInterest, hkind]
  | true =>
    cases hface : r.faces.get? id with
    | none => simp [handleInterest, hkind, hface]
    | some face =>
      obtain rfl := FaceRegistry.id_of_get? hface
      have hlive : r.isLive face.id = true := by
        rw [isLive, hface]
        rfl
      have hreceived := (r.interestReceived_acts face.id).isLive hlive
      change (r.interestReceived face.id).takeInterestPassing face interest = _
      rw [takeInterestPassing_of_live hreceived]
      rcases r.handleInterest_cases face.id interest with ⟨hrefused, -⟩ | ⟨found, -, hfound, htaken⟩
      · rw [hkind, hlive] at hrefused
        cases hrefused
      · obtain rfl : face = found := Option.some.inj (hface.symm.trans hfound)
        have hok : (r.handleInterest face.id interest).1.isOk = true := by
          rw [isOk_handleInterest, hkind, hlive]
          rfl
        rw [← htaken]
        rcases hm : r.handleInterest face.id interest with ⟨e | done, m⟩
        · rw [hm] at hok
          cases hok
        · rfl

end

end Relay

/-- Failures leave the relay as it was. A failed operation changes no table, no queue, no nonce on
record and no counter; only where a strategy was asked for room in vain can it be told at all.
Receiving fails exactly on bytes that are refused before the packet in them is dealt with. And the
reply to an interest is never refused: to pass its failure on makes no difference. -/
theorem failures_leave_relay_as_it_was {σ κ : Type} [Scheduler σ] [CacheStrategy κ]
    (hκ : CacheStrategy.OnlyRemoves κ) {r : Relay σ κ} (h : Reachable r) :
    (∀ (op : Operation σ κ) (e : Error), op.failure? r = some e →
      r.Unharmed (op.run r) ∧
        (r.strategy = none ∨ e ≠ .capacityExceeded .contentStore r.config.maxCacheEntries →
          op.run r = r)) ∧
    (∀ (decode : Bytes → Except Error Packet) (interface : Nat) (peer : Address) (bytes : Bytes)
      (e : Error), (r.receive decode interface peer bytes).1 = .error e ↔
        r.RefusesBytes decode interface peer bytes e) ∧
    ∀ (id : FaceId) (interest : Packet),
      r.handleInterestPassing id interest = r.handleInterest id interest :=
  ⟨fun op _ he => Relay.unharmed_of_failure hκ (h.bounded hκ) op he, r.receive_eq_error_iff,
    r.handleInterestPassing_eq⟩

namespace Sample

/-- What fills the store is pinned, and a strategy that makes no room is asked for it. -/
def full : Relay Allowance CachePolicy :=
  (Operation.setStrategy .default).run pinned

lemma reachable_full : Reachable full :=
  reachableBy_pinned.reachable.run _

end Sample

/-- More content finds no room and changes nothing but the log. Neither does a packet that comes in
where there is no interface. -/
theorem full_relay_stays_as_it_was :
    (Operation.addContent Sample.fleeting).failure? Sample.full =
        some (.capacityExceeded .contentStore 1) ∧
      Sample.full.Unharmed ((Operation.addContent Sample.fleeting).run Sample.full) ∧
      ((Operation.addContent Sample.fleeting).run Sample.full).log =
        Sample.full.log ++ [.roomRequested 1 Sample.freshName false] ∧
      (Sample.full.receive (fun _ => .ok Sample.fleeting) 1 (.link (Vector.replicate 6 2) 0) [3]).1 =
        .error (.notFound .interface) := by
  obtain ⟨hfails, hreceive, -⟩ :=
    failures_leave_relay_as_it_was CachePolicy.onlyRemoves Sample.reachable_full
  have hfull : (Operation.addContent Sample.fleeting).failure? Sample.full =
      some (.capacityExceeded .contentStore 1) := by decide
  refine ⟨hfull, (hfails _ _ hfull).1, rfl, (hreceive _ _ _ _ _).mpr ?_⟩
  exact .noInterface (by decide) rfl (by decide)

end NamedRelay
