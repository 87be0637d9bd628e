import NamedRelay.Relay.Serving

/-!
# The relay's content store
-/

namespace NamedRelay.Relay

variable {σ κ : Type}

/-- The first cached entry that answers an interest. A stale entry does not answer an interest
that insists on fresh content. -/
def lookupCached (r : Relay σ κ) (interest : Packet) : Option Handle :=
  r.store.entries.find? fun e =>
    !(interest.mustBeFresh && e.flags.stale) && interest.isSatisfiedBy e.packet r.digest

/-- Removes the first entry whose path leads the text. -/
def removeCached (r : Relay σ κ) (path : String) : Except Error Unit × Relay σ κ :=
  match r.store.lookupPath? path with
  | none => (.error (.notFound .content), r)
  | some h => (.ok (), { r with store := (r.store.remove h).2.compact })

def cachedAt? (r : Relay σ κ) (path : String) : Option CachedContent :=
  (r.store.lookupPath? path).bind r.store.get?

variable [CacheStrategy κ]

/-- Stores an entry, as far as the store and the strategy let it in. -/
def storeEntry (r : Relay σ κ) (entry : CachedContent) : Except Error Handle × Relay σ κ :=
  let added := r.store.add entry r.strategy
  (added.result,
    ({ r with store := added.store, strategy := added.strategy }).emitAll added.events)

def addToCache (r : Relay σ κ) (content : Packet) : Except Error Handle × Relay σ κ :=
  r.storeEntry { packet := content, lastUsed := r.clock }

def askAdmission (r : Relay σ κ) (content : Packet) : Bool × Relay σ κ :=
  match r.strategy with
  | none => (true, r)
  | some k =>
    let (admitted, k) := CacheStrategy.admits k r.store content
    (admitted, ({ r with strategy := some k }).emit
      (.admissionRequested r.store.len content.name admitted))

/-- Caches content and answers the interests that wait for it. Gives the number of replies. -/
def addContent [Scheduler σ] (r : Relay σ κ) (content : Packet) : Except Error Nat × Relay σ κ :=
  match r.addToCache content with
  | (.error e, r) => (.error e, r)
  | (.ok h, r) =>
    let (served, r) := r.servePending h
    (.ok served, r)

end NamedRelay.Relay
