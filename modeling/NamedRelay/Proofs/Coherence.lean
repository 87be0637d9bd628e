import NamedRelay.Proofs.Collapse
import NamedRelay.Proofs.ContentStore

/-!
# Pending interests and cached content

An interest is recorded only where the store has no answer to it, and content is cached only when
the interests it satisfies are answered. So what is pending and what is cached do not meet, but for
interests that insist on fresh content and content that is stale.
-/

namespace NamedRelay

/-- A sweep changes no content, and what is stale stays stale. -/
lemma CachedContent.age?_eq_some {c c' : CachedContent} {timeout : UInt64} {now : Timestamp}
    (h : c.age? timeout now = some c') :
    c'.packet = c.packet ∧ (c.flags.stale = true → c'.flags.stale = true) := by
  unfold age? at h
  split at h
  · cases h
    exact ⟨rfl, id⟩
  · split at h
    · cases h
    · split at h
      · cases h
        exact ⟨rfl, fun _ => rfl⟩
      · cases h
        exact ⟨rfl, id⟩

namespace Relay

variable {σ κ : Type}

/-- No pending interest or cached content is new, and what is stale stays stale. -/
structure Narrows (r r' : Relay σ κ) : Prop where
  digest : r'.digest = r.digest
  pending : ∀ e' ∈ r'.pending.toList, ∃ e ∈ r.pending.toList, e'.packet = e.packet
  cached : ∀ c' ∈ r'.store.entries.toList, ∃ c ∈ r.store.entries.toList,
    c'.packet = c.packet ∧ (c.flags.stale = true → c'.flags.stale = true)
  packed : r.store.entries.Packed → r'.store.entries.Packed

namespace Narrows

lemma of_tables {r r' : Relay σ κ} (hd : r'.digest = r.digest) (hp : r'.pending = r.pending)
    (hs : r'.store = r.store) : r.Narrows r' where
  digest := hd
  pending e' he' := ⟨e', hp ▸ he', rfl⟩
  cached c' hc' := ⟨c', hs ▸ hc', rfl, id⟩
  packed h := by
    rw [hs]
    exact h

lemma refl (r : Relay σ κ) : r.Narrows r :=
  of_tables rfl rfl rfl

lemma of_keeps {r r' : Relay σ κ} (h : r.Keeps r') : r.Narrows r' :=
  of_tables h.digest h.pending h.store

lemma trans {r r' r'' : Relay σ κ} (h : r.Narrows r') (h' : r'.Narrows r'') : r.Narrows r'' where
  digest := h'.digest.trans h.digest
  pending e'' he'' := by
    obtain ⟨e', he', hp'⟩ := h'.pending e'' he''
    obtain ⟨e, he, hp⟩ := h.pending e' he'
    exact ⟨e, he, hp'.trans hp⟩
  cached c'' hc'' := by
    obtain ⟨c', hc', hp', hs'⟩ := h'.cached c'' hc''
    obtain ⟨c, hc, hp, hs⟩ := h.cached c' hc'
    exact ⟨c, hc, hp'.trans hp, fun hstale => hs' (hs hstale)⟩
  packed hpacked := h'.packed (h.packed hpacked)

lemma withPending (r : Relay σ κ) {t : PendingTable}
    (ht : ∀ e' ∈ t.toList, ∃ e ∈ r.pending.toList, e'.packet = e.packet) :
    r.Narrows { r with pending := t } :=
  { Narrows.refl r with pending := ht }

lemma withFewer (r : Relay σ κ) {s : ContentStore}
    (hs : s.entries.toList.Sublist r.store.entries.toList)
    (hpacked : r.store.entries.Packed → s.entries.Packed) : r.Narrows { r with store := s } where
  digest := rfl
  pending e he := ⟨e, he, rfl⟩
  cached c hc := ⟨c, hs.subset hc, rfl, id⟩
  packed := hpacked

lemma modifyCached (r : Relay σ κ) (h : Handle) {change : CachedContent → CachedContent}
    (hp : ∀ c, (change c).packet = c.packet)
    (hs : ∀ c, c.flags.stale = true → (change c).flags.stale = true) :
    r.Narrows { r with store := r.store.modify h change } where
  digest := rfl
  pending e he := ⟨e, he, rfl⟩
  cached c' hc' := by
    rcases SlotTable.mem_modify hc' with hc | ⟨c, hc, rfl⟩
    · exact ⟨c', hc, rfl, id⟩
    · exact ⟨c, hc, hp c, hs c⟩
  packed hpacked := hpacked.modify h change

end Narrows

/-- What is pending and what is cached do not meet, unless the interest insists on fresh content and
the content is stale. No slot of the store is empty. -/
structure Coherent (r : Relay σ κ) : Prop where
  apart : ∀ e ∈ r.pending.toList, ∀ c ∈ r.store.entries.toList,
    r.satisfies c.packet e = true → e.packet.mustBeFresh = true ∧ c.flags.stale = true
  packed : r.store.entries.Packed

/-- No pending interest is satisfied by the content. -/
def Unwanted (r : Relay σ κ) (content : Packet) : Prop :=
  ∀ e ∈ r.pending.toList, r.satisfies content e = false

lemma Coherent.narrows {r r' : Relay σ κ} (hc : r.Coherent) (h : r.Narrows r') : r'.Coherent where
  apart e' he' c' hc' hsat := by
    obtain ⟨e, he, hpacket⟩ := h.pending e' he'
    obtain ⟨c, hcached, hcontent, hstale⟩ := h.cached c' hc'
    have hold : r.satisfies c.packet e = true := by
      unfold satisfies at hsat ⊢
      rwa [h.digest, hpacket, hcontent] at hsat
    obtain ⟨hfresh, hs⟩ := hc.apart e he c hcached hold
    exact ⟨hpacket ▸ hfresh, hstale hs⟩
  packed := h.packed hc.packed

lemma Unwanted.narrows {r r' : Relay σ κ} {content : Packet} (hu : r.Unwanted content)
    (h : r.Narrows r') : r'.Unwanted content := by
  intro e' he'
  obtain ⟨e, he, hpacket⟩ := h.pending e' he'
  have hold := hu e he
  unfold satisfies at hold ⊢
  rwa [h.digest, hpacket]

/-- Content may be cached that no pending interest waits for. -/
lemma Coherent.caches {r : Relay σ κ} (hc : r.Coherent) {content : Packet}
    (hu : r.Unwanted content) {s : ContentStore}
    (hs : ∀ c ∈ s.entries.toList, c ∈ r.store.entries.toList ∨ c.packet = content)
    (hpacked : s.entries.Packed) : ({ r with store := s } : Relay σ κ).Coherent where
  apart e he c hcached hsat := by
    rcases hs c hcached with hold | rfl
    · exact hc.apart e he c hold hsat
    · have hnone := hu e he
      change r.satisfies c.packet e = true at hsat
      rw [hnone] at hsat
      cases hsat
  packed := hpacked

/-- An interest may be recorded that the store has no answer to. -/
lemma Coherent.records {r : Relay σ κ} (hc : r.Coherent) {e : PendingInterest}
    (hmiss : r.lookupCached e.packet = none) :
    ({ r with pending := (r.pending.insert e).2 } : Relay σ κ).Coherent where
  apart e' he' c hcached hsat := by
    rcases SlotTable.mem_insert.mp he' with hold | rfl
    · exact hc.apart e' hold c hcached hsat
    · have hnone := (SlotTable.find?_eq_none _ _).mp hmiss c hcached
      change e'.packet.isSatisfiedBy c.packet r.digest = true at hsat
      rw [hsat, Bool.and_true, Bool.not_eq_false'] at hnone
      simpa using hnone
  packed := hc.packed

/-- How the two tables change. Packets leave them, an interest is recorded that the store has no
answer to, or content is cached. If `answers` holds, nobody waits for that content any more. -/
inductive Fills (asked known : Packet → Prop) (answers : Prop) :
    Relay σ κ → Relay σ κ → Prop where
  | narrows {r r' : Relay σ κ} : r.Narrows r' → Fills asked known answers r r'
  | records {r : Relay σ κ} {e : PendingInterest} : asked e.packet →
      r.lookupCached e.packet = none →
      Fills asked known answers r { r with pending := (r.pending.insert e).2 }
  | caches {r : Relay σ κ} {content : Packet} {s : ContentStore} : known content →
      (answers → r.Unwanted content) →
      (∀ c ∈ s.entries.toList, c ∈ r.store.entries.toList ∨ c.packet = content) →
      (r.store.entries.Packed → s.entries.Packed) →
      Fills asked known answers r { r with store := s }
  | trans {r m r' : Relay σ κ} : Fills asked known answers r m → Fills asked known answers m r' →
      Fills asked known answers r r'

lemma Fills.refl {asked known : Packet → Prop} {answers : Prop} (r : Relay σ κ) :
    Fills asked known answers r r :=
  .narrows (.refl r)

lemma Fills.coherent {asked known : Packet → Prop} {answers : Prop} {r r' : Relay σ κ}
    (h : Fills asked known answers r r') (hanswers : answers) (hc : r.Coherent) :
    r'.Coherent := by
  induction h with
  | narrows h => exact hc.narrows h
  | records _ hmiss => exact hc.records hmiss
  | caches _ hu hs hpacked => exact hc.caches (hu hanswers) hs (hpacked hc.packed)
  | trans _ _ ihm ihr => exact ihr (ihm hc)

/-! ## Interests -/

lemma checkNonce_narrows (r : Relay σ κ) (packet : Packet) :
    r.Narrows (r.checkNonce packet).2 := by
  unfold checkNonce
  split
  · exact Narrows.refl r
  · split
    · exact .of_tables rfl rfl rfl
    · exact Narrows.refl r

section

variable [Scheduler σ]

omit [Scheduler σ] in
/-- A cache hit is counted, and noted on the entry. -/
lemma cacheHit_narrows (r : Relay σ κ) (h : Handle) (change : CachedContent → CachedContent)
    (hp : ∀ c, (change c).packet = c.packet)
    (hs : ∀ c, c.flags.stale = true → (change c).flags.stale = true) :
    r.Narrows { r.tally fun c => { c with cacheHits := c.cacheHits + 1 } with
      store := r.store.modify h change } := by
  have hcounted : r.Narrows (r.tally fun c => { c with cacheHits := c.cacheHits + 1 }) :=
    .of_tables rfl rfl rfl
  exact hcounted.trans (.modifyCached _ h hp hs)

lemma answerFromCache_narrows (r : Relay σ κ) (face : Face σ) (h : Handle) :
    r.Narrows (r.answerFromCache face h) := by
  have hhit := r.cacheHit_narrows h (fun c => (c.recordServed 1).touch r.clock)
    (fun _ => rfl) (fun _ hs => hs)
  unfold answerFromCache
  dsimp only
  split
  · exact hhit
  · split
    · exact hhit.trans (.of_keeps (deliver_sends _ _ _).toKeeps)
    · exact hhit.trans (.of_keeps (forwardContent_keeps _ _ _))

omit [Scheduler σ] in
lemma answerOwn_narrows (r : Relay σ κ) (h : Handle) : r.Narrows (r.answerOwn h) := by
  have hhit := r.cacheHit_narrows h (fun c => ((c.recordServed 1).touch r.clock).pinIf true)
    (fun _ => rfl) (fun _ hs => hs)
  unfold answerOwn
  dsimp only
  split
  · exact hhit
  · exact hhit.trans (.of_keeps (deliver_sends _ _ _).toKeeps)

omit [Scheduler σ] in
/-- Joining an entry changes no packets. -/
lemma addWaiter_narrows (r : Relay σ κ) (h : Handle) (id : FaceId) :
    r.Narrows { r with pending := r.pending.modify h fun e => e.addWaiter id r.clock } := by
  apply Narrows.withPending
  intro e' he'
  rcases SlotTable.mem_modify he' with he | ⟨e, he, rfl⟩
  · exact ⟨e', he, rfl⟩
  · exact ⟨e, he, by rw [PendingInterest.addWaiter_eq]⟩

omit [Scheduler σ] in
lemma claimed_narrows (r : Relay σ κ) (h : Handle) :
    r.Narrows { r with
      pending := r.pending.modify h fun e => { e with origin := .application } } := by
  apply Narrows.withPending
  intro e' he'
  rcases SlotTable.mem_modify he' with he | ⟨e, he, rfl⟩
  · exact ⟨e', he, rfl⟩
  · exact ⟨e, he, rfl⟩

section

variable {asked known : Packet → Prop} {answers : Prop}

lemma openPending_fills {r : Relay σ κ} {e : PendingInterest} (he : asked e.packet)
    (hmiss : r.lookupCached e.packet = none) :
    Fills asked known answers r (r.openPending e) :=
  (Fills.records he hmiss).trans (.narrows (.of_keeps (interestPropagate_keeps _ _)))

lemma recordInterest_fills {r : Relay σ κ} {interest : Packet} (hi : asked interest)
    (hmiss : r.lookupCached interest = none) (face : Face σ) :
    Fills asked known answers r (r.recordInterest face interest) := by
  unfold recordInterest
  split
  · rename_i h _
    have hjoined : Fills asked known answers r _ := .narrows (r.addWaiter_narrows h face.id)
    dsimp only
    split
    · exact hjoined.trans (.narrows (.of_keeps (interestPropagate_keeps _ _)))
    · exact hjoined
  · exact openPending_fills hi hmiss

lemma recordOwn_fills {r : Relay σ κ} {interest : Packet} (hi : asked interest)
    (hmiss : r.lookupCached interest = none) :
    Fills asked known answers r (r.recordOwn interest) := by
  unfold recordOwn
  split
  · rename_i h _
    exact .narrows (r.claimed_narrows h)
  · exact openPending_fills hi hmiss

lemma takeInterest_fills (r : Relay σ κ) (face : Face σ) {interest : Packet}
    (hi : asked interest) : Fills asked known answers r (r.takeInterest face interest) := by
  have hchecked : Fills asked known answers r _ := .narrows (r.checkNonce_narrows interest)
  have hlookup := r.lookupCached_checkNonce interest interest
  rw [takeInterest_eq]
  dsimp only
  split
  · exact hchecked.trans (.narrows (.of_tables rfl rfl rfl))
  · split
    · exact hchecked.trans (.narrows (answerFromCache_narrows _ face _))
    · rename_i hmiss
      exact hchecked.trans (recordInterest_fills hi (hlookup.trans hmiss) face)

lemma handleInterest_fills (r : Relay σ κ) (id : FaceId) {interest : Packet}
    (hi : interest.isInterest = true → asked interest) :
    Fills asked known answers r (r.handleInterest id interest).2 := by
  rcases r.handleInterest_cases id interest with ⟨-, hsame⟩ | ⟨face, hkind, -, htaken⟩
  · rw [hsame]
    exact .refl r
  · have hreceived : r.Narrows (r.interestReceived id) := .of_tables rfl rfl rfl
    rw [htaken]
    exact (Fills.narrows hreceived).trans (takeInterest_fills _ face (hi hkind))

lemma expressInterest_fills (r : Relay σ κ) {interest : Packet}
    (hi : interest.isInterest = true → asked interest) :
    Fills asked known answers r (r.expressInterest interest).2 := by
  cases hkind : interest.isInterest with
  | false =>
    rw [r.expressInterest_of_content hkind]
    exact .refl r
  | true =>
    have hchecked : Fills asked known answers r _ := .narrows (r.checkNonce_narrows interest)
    have hlookup := r.lookupCached_checkNonce interest interest
    rw [r.expressInterest_eq hkind]
    dsimp only
    split
    · exact hchecked.trans (.narrows (.of_tables rfl rfl rfl))
    · split
      · exact hchecked.trans (.narrows (answerOwn_narrows _ _))
      · rename_i hmiss
        exact hchecked.trans (recordOwn_fills (hi hkind) (hlookup.trans hmiss))

end

/-! ## Content -/

omit [Scheduler σ] in
lemma withoutSatisfied_narrows (r : Relay σ κ) (content : Packet) :
    r.Narrows (r.withoutSatisfied content) := by
  apply Narrows.withPending
  intro e he
  have hmem : e ∈ (r.withoutSatisfied content).pending.toList := he
  rw [toList_withoutSatisfied] at hmem
  exact ⟨e, (List.mem_filter.mp hmem).1, rfl⟩

omit [Scheduler σ] in
lemma withoutSatisfied_unwanted (r : Relay σ κ) (content : Packet) :
    (r.withoutSatisfied content).Unwanted content := by
  intro e he
  rw [toList_withoutSatisfied] at he
  have hunsat : r.satisfies content e = false := by simpa using (List.mem_filter.mp he).2
  exact hunsat

lemma servePacket_narrows (r : Relay σ κ) (content : Packet) :
    (r.withoutSatisfied content).Narrows (r.servePacket content).2 :=
  .of_keeps (r.servePacket_sends content).toKeeps

lemma servePending_narrows (r : Relay σ κ) {h : Handle} {copy : CachedContent}
    (hcopy : r.store.get? h = some copy) :
    (r.withoutSatisfied copy.packet).Narrows (r.servePending h).2 := by
  unfold servePending
  rw [hcopy]
  exact (r.servePacket_narrows copy.packet).trans
    (.modifyCached _ h (fun _ => rfl) (fun _ hs => hs))

variable {asked known : Packet → Prop} {answers : Prop}

lemma servePending_fills (r : Relay σ κ) (h : Handle) :
    Fills asked known answers r (r.servePending h).2 := by
  cases hcopy : r.store.get? h with
  | none =>
    rw [servePending_of_none r hcopy]
    exact .refl r
  | some copy =>
    exact .narrows ((r.withoutSatisfied_narrows copy.packet).trans (r.servePending_narrows hcopy))

variable [CacheStrategy κ]

omit [Scheduler σ] in
lemma storeEntry_narrows_of_refused {r : Relay σ κ} {entry : CachedContent}
    (h : r.store.Refused (r.store.add entry r.strategy)) : r.Narrows (r.storeEntry entry).2 := by
  have hfewer : r.Narrows { r with store := (r.store.add entry r.strategy).store } :=
    .withFewer r h.entries h.packed
  exact hfewer.trans (.of_tables rfl rfl rfl)

omit [Scheduler σ] in
lemma storeEntry_fills (hκ : CacheStrategy.OnlyRemoves κ) {r : Relay σ κ} {entry : CachedContent}
    (hentry : known entry.packet) (hu : answers → r.Unwanted entry.packet) :
    Fills asked known answers r (r.storeEntry entry).2 := by
  rcases r.store.add_cases hκ entry r.strategy with hstored | hrefused
  · have hcached : Fills asked known answers r
        { r with store := (r.store.add entry r.strategy).store } := by
      refine .caches hentry hu ?_ hstored.packed
      intro c hmem
      rcases hstored.mem hmem with hold | rfl
      · exact .inl hold
      · exact .inr rfl
    exact hcached.trans (.narrows (.of_tables rfl rfl rfl))
  · exact .narrows (storeEntry_narrows_of_refused hrefused)

omit [Scheduler σ] in
lemma cacheServed_fills (hκ : CacheStrategy.OnlyRemoves κ) {r : Relay σ κ} {content : Packet}
    (hcontent : known content) (hu : r.Unwanted content) (staleCopy : Option Handle)
    (served : Recipients) :
    Fills asked known answers r (r.cacheServed staleCopy content served) := by
  unfold cacheServed
  split
  · rename_i h
    refine .caches hcontent (fun _ => hu) ?_ fun hpacked => hpacked.modify h _
    intro c' hc'
    rcases SlotTable.mem_modify hc' with hold | ⟨c, -, rfl⟩
    · exact .inl hold
    · exact .inr rfl
  · exact storeEntry_fills hκ hcontent fun _ => hu

omit [Scheduler σ] in
lemma askAdmission_narrows (r : Relay σ κ) (content : Packet) :
    r.Narrows (r.askAdmission content).2 := by
  unfold askAdmission
  split
  · exact Narrows.refl r
  · exact .of_tables rfl rfl rfl

lemma acceptContent_fills (hκ : CacheStrategy.OnlyRemoves κ) (r : Relay σ κ)
    (staleCopy : Option Handle) {content : Packet} (hcontent : known content) :
    Fills asked known answers r (r.acceptContent staleCopy content) := by
  have hpass := r.servePacket_narrows content
  have hserved : Fills asked known answers r _ :=
    .narrows ((r.withoutSatisfied_narrows content).trans hpass)
  have hunwanted := (r.withoutSatisfied_unwanted content).narrows hpass
  have hasked := (r.servePacket content).2.askAdmission_narrows content
  rw [acceptContent_eq]
  dsimp only
  split
  · exact hserved.trans (.narrows (.of_tables rfl rfl rfl))
  · split
    · exact (hserved.trans (.narrows hasked)).trans
        (cacheServed_fills hκ hcontent (hunwanted.narrows hasked) staleCopy _)
    · exact hserved.trans (.narrows hasked)

lemma answerContent_fills (hκ : CacheStrategy.OnlyRemoves κ) (r : Relay σ κ) {content : Packet}
    (hcontent : known content) : Fills asked known answers r (r.answerContent content) := by
  unfold answerContent
  split
  · exact r.acceptContent_fills hκ none hcontent
  · split
    · exact r.acceptContent_fills hκ _ hcontent
    · exact r.servePending_fills _

lemma handleContent_fills (hκ : CacheStrategy.OnlyRemoves κ) (r : Relay σ κ) (id : FaceId)
    {content : Packet} (hcontent : content.isInterest = false → known content) :
    Fills asked known answers r (r.handleContent id content).2 := by
  rcases r.handleContent_cases id content with ⟨-, hsame⟩ | ⟨hkind, -, hanswered⟩
  · rw [hsame]
    exact .refl r
  · have hreceived : r.Narrows (r.contentReceived id) := .of_tables rfl rfl rfl
    rw [hanswered]
    exact (Fills.narrows hreceived).trans (answerContent_fills hκ _ (hcontent hkind))

/-- The handle of the new entry leads to it, so the content answers before it counts as cached. -/
lemma addContent_fills (hκ : CacheStrategy.OnlyRemoves κ) (r : Relay σ κ) {content : Packet}
    (hcontent : known content)
    (hroom : answers → r.store.entries.slots.length < UInt32.size) :
    Fills asked known answers r (r.addContent content).2 := by
  by_cases hslots : r.store.entries.slots.length < UInt32.size
  · unfold addContent
    rcases addToCache_cases hκ hslots content with
      ⟨h, hadded, hentry⟩ | ⟨⟨e, hadded⟩, hrefused⟩
    · -- It comes to the same whether the interests go before the content is stored or after.
      have hstore : Fills asked known answers r
          ((r.withoutSatisfied content).addToCache content).2 :=
        (Fills.narrows (r.withoutSatisfied_narrows content)).trans
          (storeEntry_fills hκ hcontent fun _ => r.withoutSatisfied_unwanted content)
      have hserved : Fills asked known answers r
          ((r.addToCache content).2.withoutSatisfied content) :=
        hstore.trans (.narrows (.of_tables rfl rfl rfl))
      rw [hadded]
      exact hserved.trans (.narrows (servePending_narrows _ hentry))
    · rw [hadded]
      exact .narrows (storeEntry_narrows_of_refused hrefused)
  · have hadded : Fills asked known answers r (r.addToCache content).2 :=
      storeEntry_fills hκ hcontent fun hanswers => absurd (hroom hanswers) hslots
    unfold addContent
    rcases hm : r.addToCache content with ⟨e | h, m⟩
    · rw [hm] at hadded
      exact hadded
    · rw [hm] at hadded
      exact hadded.trans (m.servePending_fills h)

lemma dispatch_fills (hκ : CacheStrategy.OnlyRemoves κ) (r : Relay σ κ) (id : FaceId)
    {packet : Packet} (hinterest : packet.isInterest = true → asked packet)
    (hcontent : packet.isInterest = false → known packet) :
    Fills asked known answers r (r.dispatch id packet).2 := by
  unfold dispatch
  split
  · exact r.handleInterest_fills id hinterest
  · exact r.handleContent_fills hκ id hcontent

lemma receive_fills (hκ : CacheStrategy.OnlyRemoves κ) (r : Relay σ κ)
    {decode : Bytes → Except Error Packet} (interface : Nat) (peer : Address) {bytes : Bytes}
    (hinterest : ∀ packet, decode bytes = .ok packet → packet.isInterest = true → asked packet)
    (hcontent : ∀ packet, packet.isInterest = false → known packet) :
    Fills asked known answers r (r.receive decode interface peer bytes).2 := by
  have hface : Fills asked known answers r (r.getFace (some interface) (some peer)).2 :=
    .narrows (.of_keeps (r.getFace_sends (some interface) (some peer)).toKeeps)
  unfold receive
  split
  · exact .refl r
  · split
    · exact .refl r
    · rename_i packet hdecode
      split
      · rename_i hm
        rw [hm] at hface
        exact hface
      · rename_i m hm
        rw [hm] at hface
        exact hface.trans
          (m.dispatch_fills hκ _ (hinterest packet hdecode) (hcontent packet))

end

/-! ## Sweeps and removals -/

lemma ageStore_narrows (r : Relay σ κ) : r.Narrows r.ageStore where
  digest := rfl
  pending e he := ⟨e, he, rfl⟩
  cached c' hc' := by
    have hmem : c' ∈ (r.store.entries.retain
        (CachedContent.age? r.config.contentTimeout r.clock)).toList := hc'
    rw [SlotTable.toList_retain] at hmem
    obtain ⟨c, hc, hage⟩ := List.mem_filterMap.mp hmem
    exact ⟨c, hc, CachedContent.age?_eq_some hage⟩
  packed _ := SlotTable.packed_retain _ _

lemma aged_narrows (r : Relay σ κ) : r.Narrows r.aged := by
  apply Narrows.withPending
  intro e' he'
  obtain ⟨e, he, -, rfl⟩ := mem_aged.mp he'
  exact ⟨e, he, rfl⟩

lemma removeFace_narrows (r : Relay σ κ) (id : FaceId) : r.Narrows (r.removeFace id).2 := by
  by_cases hlive : r.isLive id = true
  · rw [removeFace_of_live hlive]
    refine ⟨rfl, ?_, fun c hc => ⟨c, hc, rfl, fun hs => hs⟩, fun hpacked => hpacked⟩
    intro e' he'
    obtain ⟨e, he, rfl, -⟩ := mem_pending_withoutFace.mp he'
    exact ⟨e, he, rfl⟩
  · rw [removeFace_of_not_live hlive]
    exact Narrows.refl r

lemma removeFaces_narrows (r : Relay σ κ) (ids : List FaceId) :
    r.Narrows (r.removeFaces ids) := by
  induction ids generalizing r with
  | nil => exact Narrows.refl r
  | cons id ids ih => exact (r.removeFace_narrows id).trans (ih _)

lemma removeCached_narrows (r : Relay σ κ) (path : String) :
    r.Narrows (r.removeCached path).2 := by
  unfold removeCached
  split
  · exact Narrows.refl r
  · rename_i h _
    refine .withFewer r ?_ (fun _ => SlotTable.packed_compact _)
    have hfewer := r.store.entries.toList_remove_sublist h
    simpa [ContentStore.compact, ContentStore.remove] using hfewer

variable [Scheduler σ]

lemma propagateAll_keeps (r : Relay σ κ) (entries : List PendingInterest) :
    r.Keeps (entries.foldl propagate r) := by
  induction entries generalizing r with
  | nil => exact Keeps.refl r
  | cons e entries ih => exact (r.propagate_keeps e).trans (ih _)

lemma interestBroadcast_keeps (r : Relay σ κ) (h : Handle) : r.Keeps (r.interestBroadcast h) := by
  unfold interestBroadcast
  split
  · rename_i e _
    obtain ⟨_, hsends, -⟩ := r.broadcast_sends e.packet.wire e.packet.suite
    exact hsends.toKeeps
  · exact Keeps.refl r

lemma agePending_narrows (r : Relay σ κ) : r.Narrows r.agePending := by
  have hcounted : r.aged.Narrows (r.aged.tally fun c => { c with
      interestTimeouts := c.interestTimeouts +
        UInt64.ofNat (r.pending.toList.filter r.isExpired).length }) := .of_tables rfl rfl rfl
  exact (r.aged_narrows.trans hcounted).trans (.of_keeps (propagateAll_keeps _ _))

lemma doAgeing_narrows (r : Relay σ κ) : r.Narrows r.doAgeing := by
  unfold doAgeing
  rw [ageFaces_eq]
  exact (r.ageStore_narrows.trans r.ageStore.agePending_narrows).trans (removeFaces_narrows _ _)

end Relay

/-! ## Along a run -/

namespace Operation

variable {σ κ : Type}

/-- The operation answers what waits for the content it caches: `addContent` does as long as there
is a handle left for the new entry, `addToCache` does not. -/
def AnswersWhatItCaches (r : Relay σ κ) : Operation σ κ → Prop
  | addToCache _ => False
  | addContent _ => r.store.len < UInt32.size
  | _ => True

/-- Interests that an operation brings in are asked for, and content that it may bring and whatever
it adds to the store is known. -/
structure Supplies (op : Operation σ κ) (asked known : Packet → Prop) : Prop where
  interests : ∀ packet, op.asks? = some packet → packet.isInterest = true → asked packet
  content : ∀ packet, packet.isInterest = false → known packet
  added : ∀ packet, op.adds? = some packet → known packet

end Operation

variable {σ κ : Type} [Scheduler σ] [CacheStrategy κ]

namespace Relay

lemma narrows_run_of_quiet (r : Relay σ κ) {op : Operation σ κ} (hquiet : op.isQuiet = true) :
    r.Narrows (op.run r) := by
  cases op with
  | setClock ms => exact .of_tables rfl rfl rfl
  | advance ms => exact .of_tables rfl rfl rfl
  | setStrategy strategy => exact .of_tables rfl rfl rfl
  | setSchedulerFor schedulerFor => exact .of_tables rfl rfl rfl
  | setDelivers => exact .of_tables rfl rfl rfl
  | addInterface config =>
    change r.Narrows (r.addInterface config).2
    unfold addInterface
    split <;> exact .of_tables rfl rfl rfl
  | setInterfaceScheduler index scheduler =>
    change r.Narrows (r.setInterfaceScheduler index scheduler).2
    unfold setInterfaceScheduler
    split <;> exact .of_tables rfl rfl rfl
  | interfaceEnqueue index face packet destination =>
    exact .of_keeps (r.interfaceEnqueue_sends index face packet destination).toKeeps
  | interfaceClearToSend index => exact .of_keeps (r.interfaceClearToSend_sends index).toKeeps
  | transmitAll => exact .of_keeps r.transmitAll_sends.toKeeps
  | getFace interface peer => exact .of_keeps (r.getFace_sends interface peer).toKeeps
  | changeFace id change => exact .of_tables rfl rfl rfl
  | removeFace id => exact r.removeFace_narrows id
  | faceDequeue id => exact .of_keeps (r.faceDequeue_sends id).toKeeps
  | faceClearToSend id => exact .of_keeps (r.faceClearToSend_sends id).toKeeps
  | addRoute name face =>
    change r.Narrows (r.addRoute name face).2
    unfold addRoute
    split <;> exact .of_tables rfl rfl rfl
  | addTap name tap => exact .of_tables rfl rfl rfl
  | removeRoute name face =>
    change r.Narrows (r.removeRoute name face).2
    unfold removeRoute
    split <;> exact .of_tables rfl rfl rfl
  | checkNonce packet => exact r.checkNonce_narrows packet
  | removeCached path => exact r.removeCached_narrows path
  | _ => cases hquiet

/-- The tables change by the packets that the operation brings, each by its kind, and by those that
it adds. -/
lemma fills_run (hκ : CacheStrategy.OnlyRemoves κ) (r : Relay σ κ) {op : Operation σ κ}
    {asked known : Packet → Prop} (hop : op.Supplies asked known) :
    Fills asked known (op.AnswersWhatItCaches r ∧ r.store.entries.Packed) r (op.run r) := by
  cases op with
  | faceEnqueue id packet => exact .narrows (.of_keeps (r.faceEnqueue_sends id packet).toKeeps)
  | receive decode interface peer bytes =>
    refine r.receive_fills hκ interface peer (fun packet hdecode hkind => ?_) hop.content
    exact hop.interests packet (by simp [Operation.asks?, hdecode, Except.toOption, hkind]) hkind
  | dispatch id packet =>
    refine r.dispatch_fills hκ id (fun hkind => ?_) (hop.content packet)
    exact hop.interests packet (by simp [Operation.asks?, hkind]) hkind
  | handleInterest id interest => exact r.handleInterest_fills id (hop.interests interest rfl)
  | expressInterest interest => exact r.expressInterest_fills (hop.interests interest rfl)
  | handleContent id content => exact r.handleContent_fills hκ id (hop.content content)
  | interestPropagate h => exact .narrows (.of_keeps (r.interestPropagate_keeps h))
  | interestBroadcast h => exact .narrows (.of_keeps (r.interestBroadcast_keeps h))
  | addToCache content =>
    exact storeEntry_fills hκ (hop.added content rfl) fun hanswers => hanswers.1.elim
  | addContent content =>
    refine r.addContent_fills hκ (hop.added content rfl) ?_
    rintro ⟨hroom, hpacked⟩
    rw [hpacked.length_slots]
    exact hroom
  | servePending h => exact r.servePending_fills h
  | doAgeing => exact .narrows r.doAgeing_narrows
  | _ => exact .narrows (r.narrows_run_of_quiet rfl)

/-- What is pending stays apart from what is cached, if the operation answers what waits for the
content it caches. -/
lemma Coherent.run (hκ : CacheStrategy.OnlyRemoves κ) {r : Relay σ κ} (hc : r.Coherent)
    {op : Operation σ κ} (hop : op.AnswersWhatItCaches r) : (op.run r).Coherent := by
  have hany : op.Supplies (fun _ => True) (fun _ => True) :=
    ⟨fun _ _ _ => trivial, fun _ _ => trivial, fun _ _ => trivial⟩
  exact (fills_run hκ r hany).coherent ⟨hop, hc.packed⟩ hc

end Relay

lemma ReachableBy.coherent (hκ : CacheStrategy.OnlyRemoves κ) {r : Relay σ κ}
    (h : ReachableBy Operation.AnswersWhatItCaches r) : r.Coherent := by
  induction h with
  | create config clock digest hnew =>
    unfold Relay.create at hnew
    split at hnew
    · cases hnew
    · cases hnew
      exact ⟨by rintro _ ⟨⟩, by rintro _ ⟨⟩⟩
  | run op _ hop ih => exact ih.run hκ hop

lemma Sample.reachableBy_aged : ReachableBy Operation.AnswersWhatItCaches Sample.aged := by
  have hpeered : ReachableBy Operation.AnswersWhatItCaches Sample.peered :=
    ((((ReachableBy.create Sample.config ⟨0⟩ Sample.digest rfl).run .setDelivers trivial).run
      (Sample.meets 2) trivial).run (Sample.meets 3) trivial).run (.getFace none none) trivial
  have hroom : Sample.peered.store.len < UInt32.size := by decide
  exact ((hpeered.run (.addContent Sample.fleeting) hroom).run .doAgeing trivial).run
    (.handleInterest ⟨1⟩ Sample.freshInterest) trivial

end NamedRelay
