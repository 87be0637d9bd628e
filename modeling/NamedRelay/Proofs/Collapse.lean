import NamedRelay.Proofs.PendingTable

/-!
# Interests for one request

Interests that ask for the same share one entry of the pending table. A face is listed there if its
interest reached the table, that is if it was no duplicate and the store had no answer to it.
-/

namespace NamedRelay

namespace PendingTable

/-- The faces that wait for a request. -/
def waitingFor (t : PendingTable) (request : Request) : List FaceId :=
  (t.toList.filter fun e => e.packet.request = request).flatMap PendingInterest.waiting

variable {t : PendingTable}

lemma mem_waitingFor {request : Request} {id : FaceId} :
    id ∈ t.waitingFor request ↔ ∃ e ∈ t.toList, e.packet.request = request ∧ id ∈ e.waiting := by
  simp [waitingFor, and_assoc]

namespace Sound

variable {limit : UInt32}

lemma length_filter_le_one (h : t.Sound limit) (request : Request) :
    (t.toList.filter fun e => e.packet.request = request).length ≤ 1 := by
  have hcount := List.nodup_iff_count_le_one.mp h.nodup request
  rw [List.count, List.countP_map] at hcount
  rw [← List.countP_eq_length_filter]
  exact hcount

lemma nodup_waitingFor (h : t.Sound limit) (request : Request) :
    (t.waitingFor request).Nodup := by
  have hone := h.length_filter_le_one request
  have hsub : ∀ e ∈ t.toList.filter (fun e => e.packet.request = request), e.waiting.Nodup :=
    fun e he => (h.entries e (List.mem_filter.mp he).1).once
  unfold waitingFor
  generalize t.toList.filter (fun e => e.packet.request = request) = same at hone hsub
  match same with
  | [] => exact List.nodup_nil
  | [e] => simpa using hsub e (List.mem_singleton_self e)
  | _ :: _ :: _ =>
    simp only [List.length_cons] at hone
    omega

end Sound

/-- In a table whose slots all have handles, the entry for a request is found by its handle. -/
lemma waitingFor_addWaiter {interest : Packet} {h : Handle} {id j : FaceId} {now : Timestamp}
    (hsize : t.slots.length ≤ UInt32.size) (hf : t.findSame? interest = some h) :
    j ∈ waitingFor (t.modify h fun e => e.addWaiter id now) interest.request ↔
      j ∈ t.waitingFor interest.request ∨ j = id := by
  obtain ⟨e, he, hsame⟩ := SlotTable.get?_of_find? hsize hf
  have hrequest : e.packet.request = interest.request := (Packet.isSameInterest_iff _ _).mp hsame
  have hpacket : (e.addWaiter id now).packet = e.packet := by rw [PendingInterest.addWaiter_eq]
  obtain ⟨before, after, hl, hl'⟩ := SlotTable.split_of_get? he
  simp only [mem_waitingFor, hl, hl', List.mem_append, List.mem_cons]
  constructor
  · rintro ⟨e', hmem | rfl | hmem, hr, hj⟩
    · exact .inl ⟨e', .inl hmem, hr, hj⟩
    · rcases PendingInterest.mem_waiting_addWaiter.mp hj with hj | rfl
      · exact .inl ⟨e, .inr (.inl rfl), hrequest, hj⟩
      · exact .inr rfl
    · exact .inl ⟨e', .inr (.inr hmem), hr, hj⟩
  · rintro (⟨e', hmem | rfl | hmem, hr, hj⟩ | rfl)
    · exact ⟨e', .inl hmem, hr, hj⟩
    · exact ⟨_, .inr (.inl rfl), hpacket ▸ hr, PendingInterest.mem_waiting_addWaiter.mpr (.inl hj)⟩
    · exact ⟨e', .inr (.inr hmem), hr, hj⟩
    · exact ⟨_, .inr (.inl rfl), hpacket ▸ hrequest,
        PendingInterest.mem_waiting_addWaiter.mpr (.inr rfl)⟩

lemma waitingFor_insert_fromFace {interest : Packet} {id j : FaceId} {lifetime : UInt64}
    {now : Timestamp} :
    j ∈ waitingFor (t.insert (.fromFace interest id lifetime now)).2 interest.request ↔
      j ∈ t.waitingFor interest.request ∨ j = id := by
  simp only [mem_waitingFor, SlotTable.mem_insert]
  constructor
  · rintro ⟨e, hmem | rfl, hr, hj⟩
    · exact .inl ⟨e, hmem, hr, hj⟩
    · exact .inr (List.mem_singleton.mp hj)
  · rintro (⟨e, hmem, hr, hj⟩ | rfl)
    · exact ⟨e, .inl hmem, hr, hj⟩
    · exact ⟨_, .inr rfl, rfl, List.mem_singleton_self _⟩

end PendingTable

namespace Relay

variable {σ κ : Type}

/-- An interest of a face reaches the pending table. -/
def reachesPending (r : Relay σ κ) (id : FaceId) (interest : Packet) : Bool :=
  interest.isInterest && r.isLive id && !(r.checkNonce interest).1
    && (r.lookupCached interest).isNone

/-- The pending table with an interest of a face in it. -/
def pendingWith (r : Relay σ κ) (id : FaceId) (interest : Packet) : PendingTable :=
  match r.pending.findSame? interest with
  | some h => r.pending.modify h fun e => e.addWaiter id r.clock
  | none => (r.pending.insert (.fromFace interest id (r.lifetimeOf interest) r.clock)).2

variable [Scheduler σ]

lemma interestPropagate_keeps (r : Relay σ κ) (h : Handle) : r.Keeps (r.interestPropagate h) := by
  unfold interestPropagate
  split
  · rename_i e _
    exact r.propagate_keeps e
  · exact Keeps.refl r

lemma pending_recordInterest (r : Relay σ κ) (face : Face σ) (interest : Packet) :
    (r.recordInterest face interest).pending = r.pendingWith face.id interest := by
  unfold recordInterest pendingWith
  cases r.pending.findSame? interest with
  | some h =>
    dsimp only
    split
    · exact (interestPropagate_keeps _ h).pending
    · rfl
  | none => exact (interestPropagate_keeps (κ := κ) { r with pending := _ } _).pending

lemma pending_recordOwn (r : Relay σ κ) (interest : Packet) :
    (r.recordOwn interest).pending =
      match r.pending.findSame? interest with
      | some h => r.pending.modify h fun e => { e with origin := .application }
      | none =>
        (r.pending.insert (.fromApplication interest (r.lifetimeOf interest) r.clock)).2 := by
  unfold recordOwn
  cases r.pending.findSame? interest with
  | some h => rfl
  | none => exact (interestPropagate_keeps (κ := κ) { r with pending := _ } _).pending

/-- Answering from the store leaves the pending table alone. -/
lemma pending_answerFromCache (r : Relay σ κ) (face : Face σ) (h : Handle) :
    (r.answerFromCache face h).pending = r.pending := by
  unfold answerFromCache
  dsimp only
  split
  · rfl
  · split
    · exact (deliver_sends _ _ _).pending
    · exact (offer_keeps _ _ _ _).pending

omit [Scheduler σ] in
/-- The check of a nonce reads the history and the pending table only. -/
lemma checkNonce_congr {r m : Relay σ κ} (hc : m.config = r.config) (hn : m.nonces = r.nonces)
    (hp : m.pending = r.pending) (packet : Packet) :
    (m.checkNonce packet).1 = (r.checkNonce packet).1 := by
  unfold checkNonce
  rw [hc, hn, hp]
  cases packet.nonce with
  | none => rfl
  | some nonce => cases r.config.nonceCheck <;> rfl

omit [Scheduler σ] in
lemma checkNonce_interestReceived (r : Relay σ κ) (id : FaceId) (packet : Packet) :
    ((r.interestReceived id).checkNonce packet).1 = (r.checkNonce packet).1 :=
  checkNonce_congr (r := r) (m := r.interestReceived id) rfl rfl rfl packet

lemma pending_takeInterest (r : Relay σ κ) (face : Face σ) (interest : Packet) :
    (r.takeInterest face interest).pending =
      if !(r.checkNonce interest).1 && (r.lookupCached interest).isNone then
        r.pendingWith face.id interest
      else r.pending := by
  have hkeeps := (r.checkNonce_acts interest).toKeepsFaces
  have hwith : (r.checkNonce interest).2.pendingWith face.id interest =
      r.pendingWith face.id interest := by
    unfold pendingWith lifetimeOf
    rw [hkeeps.pending, hkeeps.clock, hkeeps.config]
  rw [takeInterest_eq]
  dsimp only
  cases (r.checkNonce interest).1 with
  | true => exact hkeeps.pending
  | false =>
    cases r.lookupCached interest with
    | some h => exact (pending_answerFromCache _ face h).trans hkeeps.pending
    | none => exact (pending_recordInterest _ face interest).trans hwith

/-- An interest changes the pending table exactly if it reaches it. -/
lemma pending_handleInterest (r : Relay σ κ) (id : FaceId) (interest : Packet) :
    (r.handleInterest id interest).2.pending =
      if r.reachesPending id interest then r.pendingWith id interest else r.pending := by
  unfold reachesPending
  rcases r.handleInterest_cases id interest with ⟨hrefused, hsame⟩ | ⟨face, hkind, hface, htaken⟩
  · rw [hrefused, hsame]
    rfl
  · have hlive : r.isLive id = true := isLive_of_get? hface
    obtain rfl := FaceRegistry.id_of_get? hface
    rw [htaken, hkind, hlive, ← r.checkNonce_interestReceived face.id]
    exact (r.interestReceived face.id).pending_takeInterest face interest

/-- Interests of faces, one after the other. -/
def askAll (r : Relay σ κ) (asks : List (FaceId × Packet)) : Relay σ κ :=
  asks.foldl (fun r ask => (r.handleInterest ask.1 ask.2).2) r

/-- The faces whose interests reach the pending table. -/
def listed : Relay σ κ → List (FaceId × Packet) → List FaceId
  | _, [] => []
  | r, (id, interest) :: asks =>
    let rest := (r.handleInterest id interest).2.listed asks
    if r.reachesPending id interest then id :: rest else rest

/-- The request has an entry, or there is a handle left for one. -/
def Roomy (r : Relay σ κ) (request : Request) : Prop :=
  r.pending.slots.length ≤ UInt32.size ∧
    (r.pending.slots.length = UInt32.size →
      ∃ e ∈ r.pending.toList, e.packet.request = request)

omit [Scheduler σ] in
lemma mem_waitingFor_pendingWith {r : Relay σ κ} {interest : Packet}
    (hroomy : r.Roomy interest.request) (id j : FaceId) :
    j ∈ (r.pendingWith id interest).waitingFor interest.request ↔
      j ∈ r.pending.waitingFor interest.request ∨ j = id := by
  unfold pendingWith
  cases hf : r.pending.findSame? interest with
  | some h => exact PendingTable.waitingFor_addWaiter hroomy.1 hf
  | none => exact PendingTable.waitingFor_insert_fromFace

omit [Scheduler σ] in
lemma length_slots_pendingWith {r : Relay σ κ} {interest : Packet}
    (hroomy : r.Roomy interest.request) (id : FaceId) :
    (r.pendingWith id interest).slots.length ≤ UInt32.size := by
  unfold pendingWith
  cases hf : r.pending.findSame? interest with
  | some h =>
    dsimp only
    rw [SlotTable.length_slots_modify]
    exact hroomy.1
  | none =>
    dsimp only
    rw [SlotTable.length_slots_insert]
    -- A full table has an entry for the request, and none is added.
    have hne : r.pending.slots.length ≠ UInt32.size := by
      intro hfull
      obtain ⟨e, he, hr⟩ := hroomy.2 hfull
      have hsame := (Packet.isSameInterest_iff e.packet interest).mpr hr
      rw [(SlotTable.find?_eq_none _ _).mp hf e he] at hsame
      cases hsame
    have hle := hroomy.1
    omega

/-- One interest lists its face if it reaches the table, and no other. -/
lemma handleInterest_lists {r : Relay σ κ} {interest : Packet}
    (hroomy : r.Roomy interest.request) (id : FaceId) :
    (r.handleInterest id interest).2.Roomy interest.request ∧
      ∀ j, j ∈ (r.handleInterest id interest).2.pending.waitingFor interest.request ↔
        j ∈ r.pending.waitingFor interest.request ∨
          r.reachesPending id interest = true ∧ j = id := by
  have hpending := r.pending_handleInterest id interest
  split at hpending
  · rename_i hreaches
    have hmem := mem_waitingFor_pendingWith hroomy id
    unfold Roomy
    rw [hpending]
    refine ⟨⟨length_slots_pendingWith hroomy id, ?_⟩, ?_⟩
    · -- The entry that lists the face now is the one a full table has to have.
      intro _
      obtain ⟨e, he, hr, -⟩ := PendingTable.mem_waitingFor.mp ((hmem id).mpr (.inr rfl))
      exact ⟨e, he, hr⟩
    · intro j
      rw [hmem j]
      simp [hreaches]
  · rename_i hreaches
    unfold Roomy
    rw [hpending]
    refine ⟨hroomy, ?_⟩
    intro j
    simp [hreaches]

lemma askAll_lists {r : Relay σ κ} {request : Request} (hroomy : r.Roomy request)
    (asks : List (FaceId × Packet)) (hr : ∀ ask ∈ asks, ask.2.request = request) (j : FaceId) :
    j ∈ (r.askAll asks).pending.waitingFor request ↔
      j ∈ r.pending.waitingFor request ∨ j ∈ r.listed asks := by
  induction asks generalizing r with
  | nil => simp [askAll, listed]
  | cons ask asks ih =>
    obtain ⟨id, interest⟩ := ask
    obtain rfl : interest.request = request := hr (id, interest) List.mem_cons_self
    obtain ⟨hroomy', hlists⟩ := handleInterest_lists hroomy id
    have hrest := ih hroomy' (fun ask hask => hr ask (List.mem_cons_of_mem _ hask))
    change j ∈ ((r.handleInterest id interest).2.askAll asks).pending.waitingFor _ ↔ _
    rw [hrest, hlists, listed]
    split
    · rename_i hreaches
      simp only [hreaches, List.mem_cons, true_and, or_assoc]
    · rename_i hreaches
      simp [hreaches]

end Relay

/-- The pending table of every reachable relay: one entry for a request, each waiter once, the
arrival face among the waiters, somebody who wants it, and no more retries than are allowed. So any
interests for one request lead to one entry, which lists exactly the faces listed before and those
whose interests reach the table. -/
theorem interests_for_one_request_share_an_entry {σ κ : Type} [Scheduler σ] [CacheStrategy κ]
    {r : Relay σ κ} (h : Reachable r) :
    (r.pending.toList.Pairwise fun e e' => e.packet.isSameInterest e'.packet = false) ∧
    (∀ e ∈ r.pending.toList, e.waiting.Nodup ∧ (∀ id, e.arrival = some id → id ∈ e.waiting) ∧
      (e.waiting = [] → e.isLocal = true) ∧ e.retries ≤ r.config.maxRetransmits) ∧
    ∀ (request : Request) (asks : List (FaceId × Packet)),
      (∀ ask ∈ asks, ask.2.request = request) →
      ((r.askAll asks).pending.toList.filter fun e => e.packet.request = request).length ≤ 1 ∧
      ((r.askAll asks).pending.waitingFor request).Nodup ∧
      (r.pending.slots.length < UInt32.size →
        ∀ id, id ∈ (r.askAll asks).pending.waitingFor request ↔
          id ∈ r.pending.waitingFor request ∨ id ∈ r.listed asks) := by
  have hsound := h.pendingSound
  refine ⟨hsound.requests, ?_, ?_⟩
  · intro e he
    have hentry := hsound.entries e he
    exact ⟨hentry.once, hentry.arrival, hentry.wanted, hentry.retries⟩
  · intro request asks hr
    have hrun : r.askAll asks =
        Operation.runAll (asks.map fun ask => .handleInterest ask.1 ask.2) r := by
      unfold Relay.askAll Operation.runAll
      rw [List.foldl_map]
      rfl
    have hafter : (r.askAll asks).PendingSound := by
      rw [hrun]
      exact (h.runAll _).pendingSound
    refine ⟨hafter.length_filter_le_one request, hafter.nodup_waitingFor request, ?_⟩
    intro hsize
    have hroomy : r.Roomy request := ⟨Nat.le_of_lt hsize, fun hfull => by omega⟩
    exact Relay.askAll_lists hroomy asks hr

/-- Two peers ask for the same without a nonce, and both are listed. -/
theorem two_peers_share_an_entry :
    Sample.peered.listed (Sample.asks none) = [⟨1⟩, ⟨2⟩] ∧
    ∀ id, id ∈ (Sample.peered.askAll (Sample.asks none)).pending.waitingFor
        (Sample.interest none).request ↔
      id ∈ Sample.peered.pending.waitingFor (Sample.interest none).request ∨
        id ∈ Sample.peered.listed (Sample.asks none) := by
  obtain ⟨-, -, hasks⟩ := interests_for_one_request_share_an_entry Sample.reachable_peered
  obtain ⟨-, -, hlisted⟩ := hasks (Sample.interest none).request (Sample.asks none) (by decide)
  exact ⟨by decide, hlisted (by decide)⟩

/-- Two peers ask for the same, and the table does not list both of them: not if the second interest
repeats the nonce of the first one, and not if the store has the content. -/
theorem asking_faces_may_stay_unlisted :
    Reachable Sample.peered ∧
    (∀ ask ∈ Sample.asks (some [9]), Sample.peered.isLive ask.1 = true ∧
      ask.2.isInterest = true ∧ ask.2.request = (Sample.interest none).request) ∧
    (Sample.peered.askAll (Sample.asks (some [9]))).pending.waitingFor
      (Sample.interest none).request = [⟨1⟩] ∧
    Reachable Sample.copied ∧
    (∀ ask ∈ Sample.asks none, Sample.copied.isLive ask.1 = true ∧
      ask.2.isInterest = true ∧ ask.2.request = (Sample.interest none).request) ∧
    (Sample.copied.askAll (Sample.asks none)).pending.waitingFor
      (Sample.interest none).request = [] :=
  ⟨Sample.reachable_peered, by decide, by decide, Sample.reachable_copied, by decide, by decide⟩

end NamedRelay
