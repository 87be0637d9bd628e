import NamedRelay.Event
import NamedRelay.Name.Path
import NamedRelay.Route
import NamedRelay.SlotTable

/-!
# The content store

Cached content, one entry for a name. A store of capacity `n > 0` holds at most `n` entries: when
it is full, the caching strategy may make room, and otherwise the entry unused for longest goes,
unless it is pinned. Capacity zero means no limit.
-/

namespace NamedRelay

structure ContentFlags where
  /-- Pinned: never evicted or aged out. -/
  isStatic : Bool := false
  /-- Past its freshness. Still an answer, except to an interest that insists on fresh content. -/
  stale : Bool := false
deriving DecidableEq, Repr

structure CachedContent where
  packet : Packet
  flags : ContentFlags := {}
  served : UInt32 := 0
  lastUsed : Timestamp
deriving DecidableEq

namespace CachedContent

def name (e : CachedContent) : Name :=
  e.packet.name

def recordServed (e : CachedContent) (times : UInt32) : CachedContent :=
  { e with served := addSaturating32 e.served times }

def touch (e : CachedContent) (now : Timestamp) : CachedContent :=
  { e with lastUsed := e.lastUsed.latest now }

/-- Marks an entry as pinned if asked, and never unpins it. -/
def pinIf (e : CachedContent) (pin : Bool) : CachedContent :=
  { e with flags := { e.flags with isStatic := e.flags.isStatic || pin } }

/-- Puts a newer copy of the same content in, which is not stale. -/
def refresh (e : CachedContent) (packet : Packet) (now : Timestamp) : CachedContent :=
  ({ e with packet, flags := { e.flags with stale := false } } : CachedContent).touch now

end CachedContent

structure ContentStore where
  entries : SlotTable CachedContent := {}
  capacity : Nat

/-- What the program around the relay decides about caching. `κ` is the state of a strategy. -/
class CacheStrategy (κ : Type) where
  /-- Asked when the store is full. Gives the entries that are left, and whether the strategy has
  dealt with the matter, so that nothing else is evicted. -/
  makeRoom : κ → ContentStore → (incoming : Packet) → Bool × SlotTable CachedContent × κ
  /-- Whether content is cached at all. -/
  admits : κ → ContentStore → Packet → Bool × κ

namespace ContentStore

def len (s : ContentStore) : Nat :=
  s.entries.len

def isFull (s : ContentStore) : Bool :=
  s.capacity != 0 && s.capacity ≤ s.len

def get? (s : ContentStore) (h : Handle) : Option CachedContent :=
  s.entries.get? h

def modify (s : ContentStore) (h : Handle) (change : CachedContent → CachedContent) :
    ContentStore :=
  { s with entries := s.entries.modify h change }

def remove (s : ContentStore) (h : Handle) : Option CachedContent × ContentStore :=
  let (entry, entries) := s.entries.remove h
  (entry, { s with entries })

def compact (s : ContentStore) : ContentStore :=
  { s with entries := s.entries.compact }

def findExact? (s : ContentStore) (name : Name) : Option Handle :=
  s.entries.find? fun e => e.name.isSame name

/-- The older of two entries; the first one if they are as old. -/
def older (best : Option (Handle × CachedContent)) (entry : Handle × CachedContent) :
    Option (Handle × CachedContent) :=
  match best with
  | none => some entry
  | some b => if entry.2.lastUsed.ms < b.2.lastUsed.ms then some entry else some b

/-- The entry unused for longest among those not pinned, the earliest stored of equal ones. -/
def oldestEvictable? (s : ContentStore) : Option Handle :=
  ((s.entries.entries.filter fun entry => !entry.2.flags.isStatic).foldl older none).map Prod.fst

/-- Without the entry that is evicted by default. -/
def evictOldest (s : ContentStore) : ContentStore :=
  match s.oldestEvictable? with
  | some h => (s.remove h).2
  | none => s

def pathLeads (text : String) (e : CachedContent) : Bool :=
  match e.name.toPath with
  | .ok path => path.toList.isPrefixOf text.toList
  | .error _ => false

def lookupPath? (s : ContentStore) (text : String) : Option Handle :=
  s.entries.find? (pathLeads text)

variable {κ : Type} [CacheStrategy κ]

def askForRoom (s : ContentStore) (strategy : Option κ) (incoming : Packet) :
    Bool × ContentStore × Option κ × List Event :=
  match strategy with
  | none => (false, s, none, [])
  | some k =>
    let (handled, entries, k) := CacheStrategy.makeRoom k s incoming
    (handled, { s with entries }, some k, [.roomRequested s.len incoming.name handled])

structure Addition (κ : Type) where
  result : Except Error Handle
  store : ContentStore
  strategy : Option κ
  events : List Event

def insert (s : ContentStore) (entry : CachedContent) : Handle × ContentStore :=
  let (h, entries) := s.entries.insert entry
  (h, { s with entries })

/-- Adds an entry. Content of the same name is refused, and so is content that finds no room. -/
def add (s : ContentStore) (entry : CachedContent) (strategy : Option κ) : Addition κ :=
  if (s.findExact? entry.name).isSome then ⟨.error (.alreadyPresent .content), s, strategy, []⟩
  else if s.isFull then
    let (handled, asked, strategy, events) := s.askForRoom strategy entry.packet
    let evicted := (if handled then asked else asked.evictOldest).compact
    if evicted.isFull then
      ⟨.error (.capacityExceeded .contentStore s.capacity), evicted, strategy, events⟩
    else
      let (h, store) := evicted.insert entry
      ⟨.ok h, store, strategy, events⟩
  else
    let (h, store) := s.insert entry
    ⟨.ok h, store, strategy, []⟩

end ContentStore

end NamedRelay
