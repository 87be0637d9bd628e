import NamedRelay.Proofs.ContentStore
import NamedRelay.Proofs.Links

/-!
# Effects of operations

What an operation does to the pending table, in five ways: the table is left as it is, an interest
is recorded, content is served, a face is removed, or a sweep ages the relay. Whichever it is, what
the counters of forwarded packets gain is what was put on faces.
-/

namespace NamedRelay

/-- The packet that an arriving packet leads to be served: none for an interest. -/
def Relay.servedFor? {σ κ : Type} (r : Relay σ κ) (id : FaceId) (packet : Packet) :
    Option Packet :=
  if packet.isInterest || !r.isLive id then none else r.answering packet

/-- The content an operation serves. -/
def Operation.served? {σ κ : Type} [CacheStrategy κ] :
    Operation σ κ → Relay σ κ → Option Packet
  | receive decode interface peer bytes, r =>
    if maxPacketBytes < bytes.length then none
    else match decode bytes, r.getFace (some interface) (some peer) with
      | .ok packet, (.ok id, r) => r.servedFor? id packet
      | _, _ => none
  | dispatch id packet, r => r.servedFor? id packet
  | handleContent id content, r => r.servedFor? id content
  | addContent content, r =>
    match r.addToCache content with
    | (.ok h, r) => (r.store.get? h).map CachedContent.packet
    | (.error _, _) => none
  | servePending h, r => (r.store.get? h).map CachedContent.packet
  | _, _ => none

namespace Relay

variable {σ κ : Type}

/-! ## Recording interests -/

/-- How the pending table takes an interest in. -/
inductive Grows (r : Relay σ κ) : PendingTable → Prop where
  | kept : r.Grows r.pending
  | joined (h : Handle) {id : FaceId} : r.isLive id = true →
      r.Grows (r.pending.modify h fun e => e.addWaiter id r.clock)
  | claimed (h : Handle) : r.Grows (r.pending.modify h fun e => { e with origin := .application })
  | opened {interest : Packet} {id : FaceId} : r.pending.findSame? interest = none →
      r.isLive id = true →
      r.Grows (r.pending.insert (.fromFace interest id (r.lifetimeOf interest) r.clock)).2
  | openedOwn {interest : Packet} : r.pending.findSame? interest = none →
      r.Grows (r.pending.insert (.fromApplication interest (r.lifetimeOf interest) r.clock)).2

/-- The pending table takes an interest in, or none. -/
def Records (r r' : Relay σ κ) : Prop :=
  ∃ m t handed, r.KeepsFaces m ∧ m.Grows t ∧ ({ m with pending := t } : Relay σ κ).KeepsFaces r' ∧
    r.Hands r' handed

namespace Records

lemma of_grows {r r' : Relay σ κ} {t : PendingTable} {handed : List Handing} (hg : r.Grows t)
    (ha : ({ r with pending := t } : Relay σ κ).Acts r' handed) : r.Records r' :=
  ⟨r, t, handed, KeepsFaces.refl r, hg, ha.toKeepsFaces, ha.toHands.of_withPending⟩

lemma of_acts {r r' : Relay σ κ} {handed : List Handing} (h : r.Acts r' handed) : r.Records r' :=
  of_grows .kept h

lemma after {r m r' : Relay σ κ} {handed : List Handing} (h : r.Acts m handed)
    (hr : m.Records r') : r.Records r' := by
  obtain ⟨m', t, handed', hm, hg, hk, hh⟩ := hr
  exact ⟨m', t, handed ++ handed', h.toKeepsFaces.trans hm, hg, hk, h.toHands.trans hh⟩

end Records

lemma Linked.targets {r : Relay σ κ} (hl : r.Linked) (e : PendingInterest) :
    ∀ id ∈ r.targets e, r.isLive id = true := by
  intro id hid
  exact hl.routes id (mem_targets hid)

/-- A new entry may name faces that are there. -/
lemma Linked.grows {r : Relay σ κ} (hl : r.Linked) {t : PendingTable} (hg : r.Grows t) :
    ({ r with pending := t } : Relay σ κ).Linked := by
  have hold : ∀ e ∈ r.pending.toList, (∀ id, e.arrival = some id → r.isLive id = true) ∧
      ∀ id ∈ e.waiting, r.isLive id = true :=
    fun e he => ⟨hl.arrivals e he, hl.waiting e he⟩
  apply hl.withPending
  intro e he
  cases hg with
  | kept => exact hold e he
  | joined h hlive =>
    rcases SlotTable.mem_modify he with he | ⟨e, hmem, rfl⟩
    · exact hold e he
    · rw [PendingInterest.addWaiter_eq]
      refine ⟨(hold e hmem).1, ?_⟩
      intro j hj
      rcases PendingInterest.mem_waiting_addWaiter.mp hj with hj | rfl
      · exact (hold e hmem).2 j hj
      · exact hlive
  | claimed h =>
    rcases SlotTable.mem_modify he with he | ⟨e, hmem, rfl⟩
    · exact hold e he
    · exact hold e hmem
  | opened _ hlive =>
    rcases SlotTable.mem_insert.mp he with he | rfl
    · exact hold e he
    · constructor
      · rintro _ ⟨⟩
        exact hlive
      · intro j hj
        obtain rfl := List.mem_singleton.mp hj
        exact hlive
  | openedOwn _ =>
    rcases SlotTable.mem_insert.mp he with he | rfl
    · exact hold e he
    · constructor
      · rintro _ ⟨⟩
      · rintro _ ⟨⟩

variable [Scheduler σ]

lemma propagate_acts {r : Relay σ κ} (hl : r.Linked) (e : PendingInterest) :
    ∃ handed, r.Acts (r.propagate e) handed := by
  obtain ⟨others, hsends, -⟩ := r.propagate_sends e (hl.targets e)
  exact ⟨_, hsends.acts⟩

lemma interestPropagate_acts {r : Relay σ κ} (hl : r.Linked) (h : Handle) :
    ∃ handed, r.Acts (r.interestPropagate h) handed := by
  unfold interestPropagate
  split
  · rename_i e _
    exact propagate_acts hl e
  · exact ⟨[], Acts.refl r⟩

lemma interestBroadcast_acts (r : Relay σ κ) (h : Handle) :
    ∃ handed, r.Acts (r.interestBroadcast h) handed := by
  unfold interestBroadcast
  split
  · rename_i e _
    obtain ⟨handed, hsends, -⟩ := r.broadcast_sends e.packet.wire e.packet.suite
    exact ⟨handed, hsends.acts⟩
  · exact ⟨[], Acts.refl r⟩

lemma openPending_records {r : Relay σ κ} (hl : r.Linked) {e : PendingInterest}
    (hg : r.Grows (r.pending.insert e).2) : r.Records (r.openPending e) := by
  obtain ⟨handed, hacts⟩ := interestPropagate_acts (hl.grows hg) (r.pending.insert e).1
  exact Records.of_grows hg hacts

lemma recordInterest_records {r : Relay σ κ} (hl : r.Linked) {face : Face σ}
    (hf : r.isLive face.id = true) (interest : Packet) :
    r.Records (r.recordInterest face interest) := by
  unfold recordInterest
  split
  · rename_i h _
    have hg : r.Grows (r.pending.modify h fun e => e.addWaiter face.id r.clock) := .joined h hf
    dsimp only
    split
    · obtain ⟨handed, hacts⟩ := interestPropagate_acts (hl.grows hg) h
      exact Records.of_grows hg hacts
    · exact Records.of_grows hg (Acts.refl _)
  · rename_i hnew
    exact openPending_records hl (.opened hnew hf)

lemma recordOwn_records {r : Relay σ κ} (hl : r.Linked) (interest : Packet) :
    r.Records (r.recordOwn interest) := by
  unfold recordOwn
  split
  · rename_i h _
    exact Records.of_grows (.claimed h) (Acts.refl _)
  · rename_i hnew
    exact openPending_records hl (.openedOwn hnew)

omit [Scheduler σ] in
/-- Noting a cache hit changes counters and the store only. -/
lemma cacheHit_acts (r : Relay σ κ) (store : ContentStore) :
    r.Acts { r.tally fun c => { c with cacheHits := c.cacheHits + 1 } with store } [] := by
  have htally := r.tally_sends (fun c => { c with cacheHits := c.cacheHits + 1 })
    (fun _ => rfl) (fun _ => rfl)
  exact htally.acts.trans (Acts.of_store _ store r.strategy)

/-- A cache hit hands the packet of the cached entry to the face. -/
lemma answerFromCache_acts {r : Relay σ κ} {face : Face σ} (hf : r.isLive face.id = true)
    (h : Handle) : r.Acts (r.answerFromCache face h)
      ((r.store.get? h).elim [] fun c => r.answerTo face c.packet) := by
  have hhit := r.cacheHit_acts (r.store.modify h fun c => (c.recordServed 1).touch r.clock)
  have hget : (r.store.modify h fun c => (c.recordServed 1).touch r.clock).get? h =
      (r.store.get? h).map fun c => (c.recordServed 1).touch r.clock :=
    r.store.get?_modify_self h _
  unfold answerFromCache
  dsimp only
  split
  · rename_i hnone
    rw [Option.map_eq_none_iff.mp (hget.symm.trans hnone)]
    exact hhit
  · rename_i entry hsome
    obtain ⟨c, hc, rfl⟩ := Option.map_eq_some_iff.mp (hget.symm.trans hsome)
    rw [hc, Option.elim_some]
    unfold answerTo
    split
    · exact hhit.trans (deliver_sends _ (some face.id) c.packet).acts
    · exact hhit.trans (forwardContent_sends _ c.packet.wire (hhit.isLive hf)).acts

omit [Scheduler σ] in
lemma answerOwn_acts (r : Relay σ κ) (h : Handle) : r.Acts (r.answerOwn h)
    ((r.store.get? h).elim [] fun c =>
      if r.delivers then [.application none c.packet] else []) := by
  have hhit := r.cacheHit_acts
    (r.store.modify h fun c => ((c.recordServed 1).touch r.clock).pinIf true)
  have hget : (r.store.modify h fun c => ((c.recordServed 1).touch r.clock).pinIf true).get? h =
      (r.store.get? h).map fun c => ((c.recordServed 1).touch r.clock).pinIf true :=
    r.store.get?_modify_self h _
  unfold answerOwn
  dsimp only
  split
  · rename_i hnone
    rw [Option.map_eq_none_iff.mp (hget.symm.trans hnone)]
    exact hhit
  · rename_i entry hsome
    obtain ⟨c, hc, rfl⟩ := Option.map_eq_some_iff.mp (hget.symm.trans hsome)
    rw [hc, Option.elim_some]
    exact hhit.trans (deliver_sends _ none c.packet).acts

omit [Scheduler σ] in
lemma dropDuplicate_acts (r : Relay σ κ) : r.Acts r.dropDuplicate [] :=
  (r.tally_sends (fun c => { c with duplicatesDropped := c.duplicatesDropped + 1 })
    (fun _ => rfl) (fun _ => rfl)).acts

omit [Scheduler σ] in
lemma received_acts (r : Relay σ κ) (id : FaceId) (count : Counters → Counters)
    (hi : ∀ c, (count c).interestsForwarded = c.interestsForwarded)
    (hc : ∀ c, (count c).contentsForwarded = c.contentsForwarded) :
    r.Acts ((r.touchFace id r.clock).tally count) [] :=
  ((r.touchFace_sends id r.clock).trans (tally_sends _ count hi hc)).acts

omit [Scheduler σ] in
/-- It is noted that an interest came in on a face. -/
def interestReceived (r : Relay σ κ) (id : FaceId) : Relay σ κ :=
  (r.touchFace id r.clock).tally fun c => { c with interestsReceived := c.interestsReceived + 1 }

omit [Scheduler σ] in
lemma interestReceived_acts (r : Relay σ κ) (id : FaceId) : r.Acts (r.interestReceived id) [] :=
  r.received_acts id _ (fun _ => rfl) (fun _ => rfl)

/-- An interest is dropped, answered from the store, or recorded. -/
def takeInterest (r : Relay σ κ) (face : Face σ) (interest : Packet) : Relay σ κ :=
  match r.checkNonce interest with
  | (true, r) => r.dropDuplicate
  | (false, r) =>
    match r.lookupCached interest with
    | some h => r.answerFromCache face h
    | none => r.recordInterest face interest

lemma takeInterest_eq (r : Relay σ κ) (face : Face σ) (interest : Packet) :
    r.takeInterest face interest =
      let m := (r.checkNonce interest).2
      if (r.checkNonce interest).1 then m.dropDuplicate
      else match r.lookupCached interest with
        | some h => m.answerFromCache face h
        | none => m.recordInterest face interest := by
  unfold takeInterest
  rw [← r.lookupCached_checkNonce interest interest]
  rcases r.checkNonce interest with ⟨seen, m⟩
  cases seen <;> rfl

/-- An interest is refused, or taken in on a face that is there. -/
lemma handleInterest_cases (r : Relay σ κ) (id : FaceId) (interest : Packet) :
    ((interest.isInterest && r.isLive id) = false ∧ (r.handleInterest id interest).2 = r) ∨
      ∃ face, interest.isInterest = true ∧ r.faces.get? id = some face ∧
        (r.handleInterest id interest).2 =
          (r.interestReceived id).takeInterest face interest := by
  unfold handleInterest isLive
  cases hkind : interest.isInterest with
  | false => exact .inl ⟨rfl, rfl⟩
  | true =>
    cases hface : r.faces.get? id with
    | none => exact .inl ⟨rfl, rfl⟩
    | some face =>
      refine .inr ⟨face, rfl, rfl, ?_⟩
      change (match (r.interestReceived id).checkNonce interest with
        | (true, m) => (.ok (), m.dropDuplicate)
        | (false, m) =>
          match m.lookupCached interest with
          | some h => (.ok (), m.answerFromCache face h)
          | none => (.ok (), m.recordInterest face interest) : Except Error Unit × Relay σ κ).2 = _
      unfold takeInterest
      rcases (r.interestReceived id).checkNonce interest with ⟨seen, m⟩
      cases seen with
      | true => rfl
      | false => cases hcached : m.lookupCached interest <;> simp [hcached]

lemma expressInterest_of_content (r : Relay σ κ) {interest : Packet}
    (hkind : interest.isInterest = false) : (r.expressInterest interest).2 = r := by
  unfold expressInterest
  rw [hkind]
  rfl

lemma expressInterest_eq (r : Relay σ κ) {interest : Packet}
    (hkind : interest.isInterest = true) :
    (r.expressInterest interest).2 =
      let m := (r.checkNonce interest).2
      if (r.checkNonce interest).1 then m.dropDuplicate
      else match r.lookupCached interest with
        | some h => m.answerOwn h
        | none => m.recordOwn interest := by
  unfold expressInterest
  rw [hkind, ← r.lookupCached_checkNonce interest interest]
  rcases r.checkNonce interest with ⟨seen, m⟩
  cases seen with
  | true => rfl
  | false => cases hcached : m.lookupCached interest <;> simp [hcached]

lemma takeInterest_records {r : Relay σ κ} (hl : r.Linked) {face : Face σ}
    (hlive : r.isLive face.id = true) (interest : Packet) :
    r.Records (r.takeInterest face interest) := by
  have hchecked := r.checkNonce_acts interest
  have hlive' := hchecked.isLive hlive
  rw [takeInterest_eq]
  dsimp only
  split
  · exact Records.of_acts (hchecked.trans (dropDuplicate_acts _))
  · split
    · exact Records.of_acts (hchecked.trans (answerFromCache_acts hlive' _))
    · have hlinked := hl.of_keeps hchecked.toKeepsFaces
      exact Records.after hchecked (recordInterest_records hlinked hlive' interest)

lemma handleInterest_records {r : Relay σ κ} (hl : r.Linked) (id : FaceId) (interest : Packet) :
    r.Records (r.handleInterest id interest).2 := by
  rcases r.handleInterest_cases id interest with ⟨-, hsame⟩ | ⟨face, -, hface, htaken⟩
  · rw [hsame]
    exact Records.of_acts (Acts.refl r)
  · obtain rfl := FaceRegistry.id_of_get? hface
    have hreceived := r.interestReceived_acts face.id
    have hlive := hreceived.isLive (isLive_of_get? hface)
    rw [htaken]
    exact Records.after hreceived
      (takeInterest_records (hl.of_keeps hreceived.toKeepsFaces) hlive interest)

lemma expressInterest_records {r : Relay σ κ} (hl : r.Linked) (interest : Packet) :
    r.Records (r.expressInterest interest).2 := by
  cases hkind : interest.isInterest with
  | false =>
    rw [r.expressInterest_of_content hkind]
    exact Records.of_acts (Acts.refl r)
  | true =>
    have hchecked := r.checkNonce_acts interest
    rw [r.expressInterest_eq hkind]
    dsimp only
    split
    · exact Records.of_acts (hchecked.trans (dropDuplicate_acts _))
    · split
      · exact Records.of_acts (hchecked.trans (answerOwn_acts _ _))
      · have hlinked := hl.of_keeps hchecked.toKeepsFaces
        exact Records.after hchecked (recordOwn_records hlinked interest)

end Relay

end NamedRelay
