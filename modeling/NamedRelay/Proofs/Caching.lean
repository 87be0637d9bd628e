import NamedRelay.Proofs.ContentStore
import NamedRelay.Proofs.Serving

/-!
# Caching and serving

The content store and the nonce history are no concern of the faces: filling them keeps the faces
and hands nothing out. A pass that serves content takes exactly the satisfied entries out of the
pending table, whichever way the content came to be served.
-/

namespace NamedRelay

lemma ContentStore.add_handing {κ : Type} [CacheStrategy κ] (s : ContentStore)
    (entry : CachedContent) (strategy : Option κ) :
    (s.add entry strategy).events.filterMap Event.handing? = [] := by
  rw [List.filterMap_eq_nil_iff]
  intro event hevent
  obtain ⟨_, _, _, rfl⟩ := s.roomRequested_of_mem_add hevent
  rfl

namespace Relay

variable {σ κ : Type}

/-- A change of the tables that name no faces. -/
lemma Acts.of_store (r : Relay σ κ) (store : ContentStore) (strategy : Option κ) :
    r.Acts { r with store, strategy } [] :=
  { KeepsFaces.refl r, Hands.refl r with }

lemma checkNonce_acts (r : Relay σ κ) (packet : Packet) : r.Acts (r.checkNonce packet).2 [] := by
  unfold checkNonce
  split
  · exact Acts.refl r
  · split
    · exact { KeepsFaces.refl r, Hands.refl r with }
    · exact Acts.refl r

lemma lookupCached_checkNonce (r : Relay σ κ) (packet interest : Packet) :
    (r.checkNonce packet).2.lookupCached interest = r.lookupCached interest := by
  unfold checkNonce
  split
  · rfl
  · split <;> rfl

lemma store_checkNonce (r : Relay σ κ) (packet : Packet) :
    (r.checkNonce packet).2.store = r.store := by
  unfold checkNonce
  split
  · rfl
  · split <;> rfl

lemma removeCached_acts (r : Relay σ κ) (path : String) : r.Acts (r.removeCached path).2 [] := by
  unfold removeCached
  split
  · exact Acts.refl r
  · exact Acts.of_store r _ r.strategy

section

variable [CacheStrategy κ]

lemma storeEntry_acts (r : Relay σ κ) (entry : CachedContent) :
    r.Acts (r.storeEntry entry).2 [] := by
  have hevents := Sends.emitAll { r with
    store := (r.store.add entry r.strategy).store
    strategy := (r.store.add entry r.strategy).strategy } _ (r.store.add_handing entry r.strategy)
  exact (Acts.of_store r _ _).trans hevents.acts

lemma addToCache_acts (r : Relay σ κ) (content : Packet) : r.Acts (r.addToCache content).2 [] :=
  r.storeEntry_acts _

/-- Content is let in and has a handle that leads to it, or some of the cached entries are gone and
it is not. -/
lemma addToCache_cases (hκ : CacheStrategy.OnlyRemoves κ) {r : Relay σ κ}
    (hroom : r.store.entries.slots.length < UInt32.size) (content : Packet) :
    (∃ h, r.addToCache content = (.ok h, (r.addToCache content).2) ∧
      (r.addToCache content).2.store.get? h =
        some { packet := content, lastUsed := r.clock }) ∨
      (∃ e, r.addToCache content = (.error e, (r.addToCache content).2)) ∧
        r.store.Refused (r.store.add { packet := content, lastUsed := r.clock } r.strategy) := by
  rcases r.store.add_cases hκ { packet := content, lastUsed := r.clock } r.strategy with
    hstored | hrefused
  · obtain ⟨h, hresult, hget⟩ := hstored.handle hroom
    exact .inl ⟨h, Prod.ext hresult rfl, hget⟩
  · obtain ⟨e, hresult⟩ := hrefused.error
    exact .inr ⟨⟨e, Prod.ext hresult rfl⟩, hrefused⟩

lemma askAdmission_acts (r : Relay σ κ) (content : Packet) :
    r.Acts (r.askAdmission content).2 [] := by
  unfold askAdmission
  split
  · exact Acts.refl r
  · exact ⟨{ KeepsFaces.refl r with }, Hands.of_log rfl rfl rfl rfl⟩

lemma cacheServed_acts (r : Relay σ κ) (staleCopy : Option Handle) (content : Packet)
    (served : Recipients) : r.Acts (r.cacheServed staleCopy content served) [] := by
  unfold cacheServed
  split
  · exact Acts.of_store r _ r.strategy
  · exact r.storeEntry_acts _

end

/-! ## Serving -/

/-- The satisfied entries go, and the content is handed to those who wait on them. In between the
faces stay. -/
def Serves (r : Relay σ κ) (content : Packet) (r' : Relay σ κ) : Prop :=
  ∃ m, r.KeepsFaces m ∧ (m.withoutSatisfied content).KeepsFaces r' ∧
    r.Hands r' (m.answers content)

lemma Serves.after {r m r' : Relay σ κ} {content : Packet} (h : r.Acts m [])
    (hs : m.Serves content r') : r.Serves content r' := by
  obtain ⟨m', hm, hw, hh⟩ := hs
  exact ⟨m', h.toKeepsFaces.trans hm, hw, h.toHands.trans hh⟩

lemma Serves.before {r m r' : Relay σ κ} {content : Packet} (hs : r.Serves content m)
    (h : m.Acts r' []) : r.Serves content r' := by
  obtain ⟨m', hm, hw, hh⟩ := hs
  refine ⟨m', hm, hw.trans h.toKeepsFaces, ?_⟩
  have hall := hh.trans h.toHands
  rwa [List.append_nil] at hall

variable [Scheduler σ]

lemma servePacket_serves (r : Relay σ κ) (content : Packet) :
    r.Serves content (r.servePacket content).2 := by
  have hs := r.servePacket_sends content
  exact ⟨r, KeepsFaces.refl r, hs.toKeepsFaces, hs.toHands.of_withPending⟩

/-- A cached entry that is there is served. -/
lemma servePending_serves (r : Relay σ κ) {h : Handle} {entry : CachedContent}
    (he : r.store.get? h = some entry) : r.Serves entry.packet (r.servePending h).2 := by
  unfold servePending
  rw [he]
  exact (r.servePacket_serves entry.packet).before (Acts.of_store _ _ _)

lemma servePending_of_none (r : Relay σ κ) {h : Handle}
    (he : r.store.get? h = none) : r.servePending h = (0, r) := by
  unfold servePending
  rw [he]

variable [CacheStrategy κ]

lemma acceptContent_eq (r : Relay σ κ) (staleCopy : Option Handle) (content : Packet) :
    r.acceptContent staleCopy content =
      let served := r.recipients content
      let m := (r.servePacket content).2
      if served.count = 0 then
        m.tally fun c => { c with unsolicitedDropped := c.unsolicitedDropped + 1 }
      else if (m.askAdmission content).1 then
        (m.askAdmission content).2.cacheServed staleCopy content served
      else (m.askAdmission content).2 := by
  have hpair : r.servePacket content = (r.recipients content, (r.servePacket content).2) := rfl
  unfold acceptContent
  rw [hpair]
  dsimp only
  split
  · rfl
  · generalize (r.servePacket content).2.askAdmission content = asked
    rcases asked with ⟨admitted, m⟩
    cases admitted <;> rfl

lemma acceptContent_serves (r : Relay σ κ) (staleCopy : Option Handle) (content : Packet) :
    r.Serves content (r.acceptContent staleCopy content) := by
  have hs := r.servePacket_serves content
  have hadmission := (r.servePacket content).2.askAdmission_acts content
  rw [acceptContent_eq]
  dsimp only
  split
  · have htally := (r.servePacket content).2.tally_sends
      (fun c => { c with unsolicitedDropped := c.unsolicitedDropped + 1 }) (fun _ => rfl)
      (fun _ => rfl)
    exact hs.before htally.acts
  · split
    · exact hs.before (hadmission.trans (cacheServed_acts _ staleCopy content _))
    · exact hs.before hadmission

/-- The packet that arriving content is served with: a cached copy of its name where there is one
that is not stale, and the content itself otherwise. -/
def answering (r : Relay σ κ) (content : Packet) : Option Packet :=
  match r.store.findExact? content.name with
  | none => some content
  | some h =>
    if (r.store.get? h).any fun copy => copy.flags.stale then some content
    else (r.store.get? h).map CachedContent.packet

end Relay

end NamedRelay
