import NamedRelay.Proofs.Coherence

/-!
# What operations do to the cache

The store and the caching strategy go together: a full store asks the strategy for room, and so does
content that comes in for admission. An operation does one thing to them. It credits an entry that
answers, puts content in the place of its stale copy or behind the other entries, removes the entry
of a path, sweeps, or sets a strategy.
-/

namespace NamedRelay

/-- The change leaves the packet of an entry, and its pin if it has one. -/
structure CachedContent.Credits (change : CachedContent → CachedContent) : Prop where
  packet : ∀ c, (change c).packet = c.packet
  pin : ∀ c, c.flags.isStatic = true → (change c).flags.isStatic = true

lemma CachedContent.isStatic_pinIf (c : CachedContent) (pin : Bool) :
    (c.pinIf pin).flags.isStatic = (c.flags.isStatic || pin) :=
  rfl

structure Cache (κ : Type) where
  store : ContentStore
  strategy : Option κ

namespace Cache

variable {κ : Type}

def modify (c : Cache κ) (h : Handle) (change : CachedContent → CachedContent) : Cache κ :=
  { c with store := c.store.modify h change }

/-- Nothing happens, or one entry is credited. -/
inductive Credited (c : Cache κ) : Cache κ → Prop where
  | same : c.Credited c
  | entry (h : Handle) {change : CachedContent → CachedContent} :
      CachedContent.Credits change → c.Credited (c.modify h change)

variable [CacheStrategy κ]

/-- The strategy, if there is one, was asked to admit content. -/
def ask (c : Cache κ) (content : Packet) : Cache κ :=
  match c.strategy with
  | none => c
  | some k => { c with strategy := some (CacheStrategy.admits k c.store content).2 }

def add (c : Cache κ) (entry : CachedContent) : Cache κ :=
  ⟨(c.store.add entry c.strategy).store, (c.store.add entry c.strategy).strategy⟩

lemma store_ask (c : Cache κ) (content : Packet) : (c.ask content).store = c.store := by
  unfold ask
  split
  · rfl
  · rfl

inductive Asked (c : Cache κ) : Cache κ → Prop where
  | never : c.Asked c
  | once (content : Packet) : c.Asked (c.ask content)

lemma Asked.store {c c' : Cache κ} (h : c.Asked c') : c'.store = c.store := by
  cases h with
  | never => rfl
  | once content => exact c.store_ask content

/-- What an operation does to the cache. -/
inductive Changes {σ : Type} (op : Operation σ κ) (c : Cache κ) : Cache κ → Prop where
  | credits {c' : Cache κ} : c.Credited c' → c.Changes op c'
  | asks (content : Packet) : c.Changes op (c.ask content)
  | refreshes {content : Packet} {h : Handle} {change : CachedContent → CachedContent} :
      c.store.findExact? content.name = some h → (∀ e, (change e).packet = content) →
      (∀ e, e.flags.isStatic = true → (change e).flags.isStatic = true) →
      c.Changes op ((c.ask content).modify h change)
  | adds {c₁ c' : Cache κ} (entry : CachedContent) : c.Asked c₁ → (c₁.add entry).Credited c' →
      c.Changes op c'
  | removes {path : String} {h : Handle} : op = .removeCached path →
      c.store.lookupPath? path = some h →
      c.Changes op { c with store := (c.store.remove h).2.compact }
  | sweeps (timeout : UInt64) (now : Timestamp) : op = .doAgeing →
      c.Changes op { c with store := { c.store with
        entries := c.store.entries.retain (CachedContent.age? timeout now) } }
  | sets (strategy : κ) : op = .setStrategy strategy →
      c.Changes op { c with strategy := some strategy }

end Cache

namespace Relay

variable {σ κ : Type}

def cache (r : Relay σ κ) : Cache κ :=
  ⟨r.store, r.strategy⟩

lemma Keeps.cache {r r' : Relay σ κ} (h : r.Keeps r') : r'.cache = r.cache := by
  unfold Relay.cache
  rw [h.store, h.strategy]

/-! ## Interests -/

lemma cache_checkNonce (r : Relay σ κ) (packet : Packet) :
    (r.checkNonce packet).2.cache = r.cache := by
  unfold checkNonce
  split
  · rfl
  · split
    · rfl
    · rfl

lemma cache_answerOwn (r : Relay σ κ) (h : Handle) :
    (r.answerOwn h).cache =
      r.cache.modify h fun c => ((c.recordServed 1).touch r.clock).pinIf true := by
  unfold answerOwn
  dsimp only
  split
  · rfl
  · exact (deliver_sends _ _ _).cache

section

variable [Scheduler σ]

lemma cache_answerFromCache (r : Relay σ κ) (face : Face σ) (h : Handle) :
    (r.answerFromCache face h).cache =
      r.cache.modify h fun c => (c.recordServed 1).touch r.clock := by
  unfold answerFromCache
  dsimp only
  split
  · rfl
  · split
    · exact (deliver_sends _ _ _).cache
    · exact (forwardContent_keeps _ _ _).cache

lemma store_answerFromCache (r : Relay σ κ) (face : Face σ) (h : Handle) :
    (r.answerFromCache face h).store =
      r.store.modify h fun c => (c.recordServed 1).touch r.clock :=
  congrArg Cache.store (r.cache_answerFromCache face h)

lemma cache_openPending (r : Relay σ κ) (e : PendingInterest) :
    (r.openPending e).cache = r.cache :=
  (interestPropagate_keeps _ _).cache

lemma cache_recordInterest (r : Relay σ κ) (face : Face σ) (interest : Packet) :
    (r.recordInterest face interest).cache = r.cache := by
  unfold recordInterest
  split
  · dsimp only
    split
    · exact (interestPropagate_keeps _ _).cache
    · rfl
  · exact r.cache_openPending _

lemma cache_recordOwn (r : Relay σ κ) (interest : Packet) :
    (r.recordOwn interest).cache = r.cache := by
  unfold recordOwn
  split
  · rfl
  · exact r.cache_openPending _

lemma takeInterest_credits (r : Relay σ κ) (face : Face σ) (interest : Packet) :
    r.cache.Credited (r.takeInterest face interest).cache := by
  have hchecked := r.cache_checkNonce interest
  rw [takeInterest_eq]
  dsimp only
  split
  · change r.cache.Credited (r.checkNonce interest).2.cache
    rw [hchecked]
    exact .same
  · split
    · rw [cache_answerFromCache, hchecked]
      exact .entry _ ⟨fun _ => rfl, fun _ => id⟩
    · rw [cache_recordInterest, hchecked]
      exact .same

lemma handleInterest_credits (r : Relay σ κ) (id : FaceId) (interest : Packet) :
    r.cache.Credited (r.handleInterest id interest).2.cache := by
  rcases r.handleInterest_cases id interest with ⟨-, hsame⟩ | ⟨face, -, -, htaken⟩
  · rw [hsame]
    exact .same
  · rw [htaken]
    exact (r.interestReceived id).takeInterest_credits face interest

lemma expressInterest_credits (r : Relay σ κ) (interest : Packet) :
    r.cache.Credited (r.expressInterest interest).2.cache := by
  cases hkind : interest.isInterest with
  | false =>
    rw [r.expressInterest_of_content hkind]
    exact .same
  | true =>
    have hchecked := r.cache_checkNonce interest
    rw [r.expressInterest_eq hkind]
    dsimp only
    split
    · change r.cache.Credited (r.checkNonce interest).2.cache
      rw [hchecked]
      exact .same
    · split
      · rw [cache_answerOwn, hchecked]
        refine .entry _ ⟨fun _ => rfl, fun c _ => ?_⟩
        rw [CachedContent.isStatic_pinIf, Bool.or_true]
      · rw [cache_recordOwn, hchecked]
        exact .same

/-! ## Content -/

lemma cache_servePacket (r : Relay σ κ) (content : Packet) :
    (r.servePacket content).2.cache = r.cache :=
  (r.servePacket_sends content).cache

lemma servePending_credits (r : Relay σ κ) (h : Handle) :
    r.cache.Credited (r.servePending h).2.cache := by
  cases hcopy : r.store.get? h with
  | none =>
    rw [servePending_of_none r hcopy]
    exact .same
  | some copy =>
    unfold servePending
    rw [hcopy]
    change r.cache.Credited ((r.servePacket copy.packet).2.cache.modify h fun c =>
      (c.recordServed (r.recipients copy.packet).count).pinIf
        (r.recipients copy.packet).ownRequest)
    rw [cache_servePacket]
    refine .entry _ ⟨fun _ => rfl, fun c hpin => ?_⟩
    rw [CachedContent.isStatic_pinIf]
    simp [CachedContent.recordServed, hpin]

end

section

variable [CacheStrategy κ]

lemma cache_askAdmission (r : Relay σ κ) (content : Packet) :
    (r.askAdmission content).2.cache = r.cache.ask content := by
  unfold askAdmission Cache.ask cache
  cases hstrategy : r.strategy with
  | none => exact congrArg (Cache.mk r.store) hstrategy
  | some k => rfl

lemma cache_storeEntry (r : Relay σ κ) (entry : CachedContent) :
    (r.storeEntry entry).2.cache = r.cache.add entry :=
  rfl

variable [Scheduler σ] {op : Operation σ κ}

/-- Content is cached in the place of the copy that was found, or added where none was. -/
lemma acceptContent_changes (r : Relay σ κ) {content : Packet} {staleCopy : Option Handle}
    (hcopy : ∀ h, staleCopy = some h → r.store.findExact? content.name = some h) :
    r.cache.Changes op (r.acceptContent staleCopy content).cache := by
  have hserved := r.cache_servePacket content
  have hasked : ((r.servePacket content).2.askAdmission content).2.cache =
      r.cache.ask content := by
    rw [cache_askAdmission, hserved]
  rw [acceptContent_eq]
  dsimp only
  split
  · change r.cache.Changes op (r.servePacket content).2.cache
    rw [hserved]
    exact .credits .same
  · split
    · unfold cacheServed
      split
      · rename_i h
        change r.cache.Changes op
          (((r.servePacket content).2.askAdmission content).2.cache.modify h _)
        rw [hasked]
        refine .refreshes (hcopy h rfl) (fun _ => rfl) fun c hpin => ?_
        rw [CachedContent.isStatic_pinIf]
        simp [CachedContent.recordServed, CachedContent.refresh, CachedContent.touch, hpin]
      · rw [cache_storeEntry, hasked]
        exact .adds _ (.once content) .same
    · rw [hasked]
      exact .asks content

lemma answerContent_changes (r : Relay σ κ) (content : Packet) :
    r.cache.Changes op (r.answerContent content).cache := by
  unfold answerContent
  split
  · apply r.acceptContent_changes
    rintro _ ⟨⟩
  · rename_i h hfound
    split
    · apply r.acceptContent_changes
      rintro _ ⟨⟩
      exact hfound
    · exact .credits (r.servePending_credits h)

lemma handleContent_changes (r : Relay σ κ) (id : FaceId) (content : Packet) :
    r.cache.Changes op (r.handleContent id content).2.cache := by
  rcases r.handleContent_cases id content with ⟨-, hsame⟩ | ⟨-, -, hanswered⟩
  · rw [hsame]
    exact .credits .same
  · rw [hanswered]
    exact (r.contentReceived id).answerContent_changes content

lemma addContent_changes (r : Relay σ κ) (content : Packet) :
    r.cache.Changes op (r.addContent content).2.cache := by
  let entry : CachedContent := { packet := content, lastUsed := r.clock }
  have hadded : (r.addToCache content).2.cache = r.cache.add entry := r.cache_storeEntry entry
  unfold addContent
  split
  · rename_i m hm
    rw [hm] at hadded
    rw [hadded]
    exact .adds entry .never .same
  · rename_i h m hm
    rw [hm] at hadded
    refine .adds entry .never ?_
    rw [← hadded]
    exact m.servePending_credits h

/-! ## Packets coming in -/

lemma dispatch_changes (r : Relay σ κ) (id : FaceId) (packet : Packet) :
    r.cache.Changes op (r.dispatch id packet).2.cache := by
  unfold dispatch
  split
  · exact .credits (r.handleInterest_credits id packet)
  · exact r.handleContent_changes id packet

lemma receive_changes (r : Relay σ κ) (decode : Bytes → Except Error Packet) (interface : Nat)
    (peer : Address) (bytes : Bytes) :
    r.cache.Changes op (r.receive decode interface peer bytes).2.cache := by
  have hface := (r.getFace_sends (some interface) (some peer)).cache
  unfold receive
  split
  · exact .credits .same
  · split
    · exact .credits .same
    · split
      · rename_i m hm
        rw [hm] at hface
        rw [hface]
        exact .credits .same
      · rename_i id m hm
        rw [hm] at hface
        rw [← hface]
        exact m.dispatch_changes id _

end

/-! ## Removing and ageing -/

lemma cache_removeFace (r : Relay σ κ) (id : FaceId) : (r.removeFace id).2.cache = r.cache := by
  unfold removeFace
  split
  · rfl
  · rfl

lemma cache_removeFaces (r : Relay σ κ) (ids : List FaceId) :
    (r.removeFaces ids).cache = r.cache := by
  induction ids generalizing r with
  | nil => rfl
  | cons id ids ih => exact (ih _).trans (r.cache_removeFace id)

lemma cache_doAgeing [Scheduler σ] (r : Relay σ κ) : r.doAgeing.cache = r.ageStore.cache := by
  have hpending : r.ageStore.agePending.cache = r.ageStore.cache := (propagateAll_keeps _ _).cache
  unfold doAgeing
  rw [ageFaces_eq, cache_removeFaces, hpending]

variable [CacheStrategy κ]

lemma removeCached_changes (r : Relay σ κ) (path : String) :
    r.cache.Changes (Operation.removeCached path : Operation σ κ) (r.removeCached path).2.cache := by
  unfold removeCached
  split
  · exact .credits .same
  · rename_i h hfound
    exact .removes rfl hfound

lemma changes_run [Scheduler σ] (r : Relay σ κ) (op : Operation σ κ) :
    r.cache.Changes op (op.run r).cache := by
  have hsame : ∀ {r' : Relay σ κ}, r'.cache = r.cache → r.cache.Changes op r'.cache := by
    intro r' hcache
    rw [hcache]
    exact .credits .same
  cases op with
  | setClock ms => exact hsame rfl
  | advance ms => exact hsame rfl
  | setStrategy strategy => exact .sets strategy rfl
  | setSchedulerFor schedulerFor => exact hsame rfl
  | setDelivers => exact hsame rfl
  | addInterface config =>
    apply hsame
    change (r.addInterface config).2.cache = r.cache
    unfold addInterface
    split <;> rfl
  | setInterfaceScheduler index scheduler =>
    apply hsame
    change (r.setInterfaceScheduler index scheduler).2.cache = r.cache
    unfold setInterfaceScheduler
    split <;> rfl
  | interfaceEnqueue index face packet destination =>
    exact hsame (r.interfaceEnqueue_sends index face packet destination).cache
  | interfaceClearToSend index => exact hsame (r.interfaceClearToSend_sends index).cache
  | transmitAll => exact hsame r.transmitAll_sends.cache
  | getFace interface peer => exact hsame (r.getFace_sends interface peer).cache
  | changeFace id change => exact hsame rfl
  | removeFace id => exact hsame (r.cache_removeFace id)
  | faceEnqueue id packet => exact hsame (r.faceEnqueue_sends id packet).cache
  | faceDequeue id => exact hsame (r.faceDequeue_sends id).cache
  | faceClearToSend id => exact hsame (r.faceClearToSend_sends id).cache
  | addRoute name face =>
    apply hsame
    change (r.addRoute name face).2.cache = r.cache
    unfold addRoute
    split <;> rfl
  | addTap name tap => exact hsame rfl
  | removeRoute name face =>
    apply hsame
    change (r.removeRoute name face).2.cache = r.cache
    unfold removeRoute
    split <;> rfl
  | receive decode interface peer bytes => exact r.receive_changes decode interface peer bytes
  | dispatch id packet => exact r.dispatch_changes id packet
  | checkNonce packet => exact hsame (r.cache_checkNonce packet)
  | handleInterest id interest => exact .credits (r.handleInterest_credits id interest)
  | expressInterest interest => exact .credits (r.expressInterest_credits interest)
  | handleContent id content => exact r.handleContent_changes id content
  | interestPropagate h => exact hsame (r.interestPropagate_keeps h).cache
  | interestBroadcast h => exact hsame (r.interestBroadcast_keeps h).cache
  | addToCache content => exact .adds _ .never .same
  | addContent content => exact r.addContent_changes content
  | removeCached path => exact r.removeCached_changes path
  | servePending h => exact .credits (r.servePending_credits h)
  | doAgeing =>
    change r.cache.Changes _ r.doAgeing.cache
    rw [cache_doAgeing]
    exact .sweeps r.config.contentTimeout r.clock rfl

end Relay

end NamedRelay
