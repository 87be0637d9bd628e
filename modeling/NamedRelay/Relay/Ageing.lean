import NamedRelay.Relay.Propagation

/-!
# Ageing

One sweep over the store, the pending interests and the faces. What has timed out goes. Pending
interests that have not are sent again.
-/

namespace NamedRelay

/-- What a sweep leaves of a cached entry. Pinned entries stay as they are. -/
def CachedContent.age? (timeout : UInt64) (now : Timestamp) (e : CachedContent) :
    Option CachedContent :=
  if e.flags.isStatic then some e
  else if e.lastUsed.hasElapsed timeout now then none
  else if e.packet.freshness.any fun freshness => e.lastUsed.hasElapsed freshness now then
    some { e with flags := { e.flags with stale := true } }
  else some e

/-- What a sweep leaves of a pending interest: one more retry. -/
def PendingInterest.age? (maxRetransmits : UInt32) (now : Timestamp) (e : PendingInterest) :
    Option PendingInterest :=
  if e.isExpired maxRetransmits now then none else some { e with retries := e.retries + 1 }

namespace Relay

variable {σ κ : Type}

def ageStore (r : Relay σ κ) : Relay σ κ :=
  { r with store := { r.store with
      entries := r.store.entries.retain (CachedContent.age? r.config.contentTimeout r.clock) } }

def isExpired (r : Relay σ κ) (e : PendingInterest) : Bool :=
  e.isExpired r.config.maxRetransmits r.clock

/-- Drops the expired pending interests, counts them, and sends the others again. -/
def agePending [Scheduler σ] (r : Relay σ κ) : Relay σ κ :=
  let entries := r.pending.toList
  let expired := (entries.filter r.isExpired).length
  let swept := ({ r with
      pending := r.pending.retain (PendingInterest.age? r.config.maxRetransmits r.clock) }).tally
    fun c => { c with interestTimeouts := c.interestTimeouts + UInt64.ofNat expired }
  (entries.filter fun e => !r.isExpired e).foldl propagate swept

def ageFaces (r : Relay σ κ) : Relay σ κ :=
  let expired := r.faces.faces.filter fun f => f.isExpired r.config.faceTimeout r.clock
  expired.foldl (fun r f => (r.removeFace f.id).2) r

def doAgeing [Scheduler σ] (r : Relay σ κ) : Relay σ κ :=
  r.ageStore.agePending.ageFaces

end Relay

end NamedRelay
