import NamedRelay.Config.Encode
import NamedRelay.Relay.Status

/-!
# Reports

The status of a relay and single entries of its tables as documents.
-/

namespace NamedRelay

open Document

def Timestamp.toDocument (t : Timestamp) : Document :=
  ofFields [("ms_since_1970", ofNat t.ms.toNat)]

def FaceId.toDocument (id : FaceId) : Document :=
  ofNat id.number.toNat

def FaceFlags.toDocument (f : FaceFlags) : Document :=
  ofFields [("is_static", ofBool f.isStatic), ("reflect", ofBool f.reflect),
    ("forward_all", ofBool f.forwardAll)]

def ContentFlags.toDocument (f : ContentFlags) : Document :=
  ofFields [("is_static", ofBool f.isStatic), ("stale", ofBool f.stale)]

def FaceStatus.toDocument (f : FaceStatus) : Document :=
  ofFields
    [("id", f.id.toDocument), ("interface", ofOption ofNat f.interface),
     ("peer", ofOption Address.toDocument f.peer), ("flags", f.flags.toDocument),
     ("last_used", f.lastUsed.toDocument), ("queued", ofNat f.queued)]

def InterfaceStatus.toDocument (i : InterfaceStatus) : Document :=
  ofFields
    [("index", ofNat i.index), ("address", i.address.toDocument), ("queued", ofNat i.queued),
     ("transmitted", ofNat i.transmitted.toNat), ("dropped", ofNat i.dropped.toNat)]

def RouteStatus.toDocument (r : RouteStatus) : Document :=
  ofFields
    [("prefix", ofText r.name), ("suite", ofText r.suite.key),
     ("face", ofOption FaceId.toDocument r.face), ("tap", ofBool r.tap)]

def PendingStatus.toDocument (p : PendingStatus) : Document :=
  ofFields
    [("name", ofText p.name), ("suite", ofText p.suite.key),
     ("from", ofOption FaceId.toDocument p.arrival), ("local", ofBool p.isLocal),
     ("waiters", ofNat p.waiters), ("retries", ofNat p.retries.toNat),
     ("last_used", p.lastUsed.toDocument)]

def ContentStatus.toDocument (c : ContentStatus) : Document :=
  ofFields
    [("name", ofText c.name), ("suite", ofText c.suite.key),
     ("chunk", ofOption (fun n : UInt32 => ofNat n.toNat) c.chunk),
     ("served", ofNat c.served.toNat),
     ("flags", c.flags.toDocument), ("last_used", c.lastUsed.toDocument), ("size", ofNat c.size)]

def Counters.toDocument (c : Counters) : Document :=
  ofFields
    [("interests_received", ofNat c.interestsReceived.toNat),
     ("contents_received", ofNat c.contentsReceived.toNat),
     ("interests_forwarded", ofNat c.interestsForwarded.toNat),
     ("contents_forwarded", ofNat c.contentsForwarded.toNat),
     ("cache_hits", ofNat c.cacheHits.toNat),
     ("duplicates_dropped", ofNat c.duplicatesDropped.toNat),
     ("unsolicited_dropped", ofNat c.unsolicitedDropped.toNat),
     ("interest_timeouts", ofNat c.interestTimeouts.toNat),
     ("queue_drops", ofNat c.queueDrops.toNat)]

def ofBytes (bytes : Bytes) : Document :=
  ofText (Bytes.hex bytes)

def ofWord (word : UInt64) : Document :=
  ofNat word.toNat

def Fields.toDocument : Fields → Document
  | ccntlv => ofFields []
  | ccnb least greatest nonce =>
    ofFields [("min_suffix", ofWord least), ("max_suffix", ofWord greatest),
      ("nonce", ofOption ofBytes nonce)]
  | ndntlv least greatest nonce fresh lifetime freshness =>
    ofFields [("min_suffix", ofWord least), ("max_suffix", ofWord greatest),
      ("nonce", ofOption ofBytes nonce), ("must_be_fresh", ofBool fresh),
      ("lifetime_ms", ofOption ofWord lifetime), ("freshness_period_ms", ofWord freshness)]

def PacketKind.key : PacketKind → String
  | interest => "interest"
  | content => "content"

def Packet.toDocument (p : Packet) : Document :=
  ofFields
    [("kind", ofText p.kind.key), ("is_interest", ofBool p.isInterest),
     ("suite", ofText p.suite.key), ("name", ofText p.name.display),
     ("fields_suite", ofText p.fields.suite.key), ("fields", p.fields.toDocument),
     ("payload", ofBytes p.payload), ("wire", ofBytes p.wire), ("nonce", ofOption ofBytes p.nonce),
     ("lifetime_ms", ofOption ofWord p.lifetime),
     ("freshness_period_ms", ofOption ofWord p.freshness),
     ("must_be_fresh", ofBool p.mustBeFresh)]

def Waiter.toDocument (w : Waiter) : Document :=
  .list [w.face.toDocument, ofWord w.lastUsed.ms]

def PendingInterest.toDocument (e : PendingInterest) : Document :=
  ofFields
    [("name", ofText e.packet.name.display), ("suite", ofText e.packet.suite.key),
     ("from", ofOption FaceId.toDocument e.arrival),
     ("origin", ofText (if e.isLocal then "local" else "network")),
     ("is_local", ofBool e.isLocal), ("waiters", .list (e.waiters.map Waiter.toDocument)),
     ("retries", ofNat e.retries.toNat), ("lifetime_ms", ofWord e.lifetime),
     ("last_used", ofWord e.lastUsed.ms), ("nonce", ofOption ofBytes e.packet.nonce),
     ("wire", ofBytes e.packet.wire)]

def CachedContent.toDocument (e : CachedContent) : Document :=
  ofFields
    [("name", ofText e.name.display), ("suite", ofText e.name.suite.key),
     ("chunk", ofOption (fun n : UInt32 => ofNat n.toNat) e.name.chunk),
     ("flags", e.flags.toDocument), ("served", ofNat e.served.toNat),
     ("last_used", ofWord e.lastUsed.ms), ("payload", ofBytes e.packet.payload),
     ("wire", ofBytes e.packet.wire)]

def Status.fields (s : Status) : List (String × Document) :=
  [("now", s.now.toDocument),
   ("faces", .list (s.faces.map FaceStatus.toDocument)),
   ("interfaces", .list (s.interfaces.map InterfaceStatus.toDocument)),
   ("fib", .list (s.routes.map RouteStatus.toDocument)),
   ("pit", .list (s.pending.map PendingStatus.toDocument)),
   ("contents", .list (s.contents.map ContentStatus.toDocument)),
   ("max_cache_entries", ofNat s.maxCacheEntries),
   ("counters", s.counters.toDocument)]

end NamedRelay
