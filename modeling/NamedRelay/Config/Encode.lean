import NamedRelay.Config.Basic
import NamedRelay.Document.Basic

/-!
# Documents from configurations

The written form names every field, except that an empty list of interfaces is left out.
-/

namespace NamedRelay

namespace Document

def ofBool (value : Bool) : Document :=
  .scalar (.plain (if value then "true" else "false"))

def ofNat (value : Nat) : Document :=
  .scalar (.plain (toString value))

def ofText (text : String) : Document :=
  .scalar (.quoted text)

def null : Document :=
  .scalar (.plain "null")

def ofOption {α : Type} (encode : α → Document) : Option α → Document
  | some value => encode value
  | none => null

def ofFields (fields : List (String × Document)) : Document :=
  .record (fields.map fun (name, value) => (ofText name, value))

end Document

open Document

def Address.toDocument : Address → Document
  | inet addr => ofFields [("family", ofText "inet"), ("addr", ofText addr.text)]
  | link mac ethertype =>
    ofFields [("family", ofText "link"), ("mac", .list (mac.toList.map fun b => ofNat b.toNat)),
      ("ethertype", ofNat ethertype.toNat)]

def NonceCheck.toDocument : NonceCheck → Document
  | history capacity => ofFields [("mode", ofText "history"), ("capacity", ofNat capacity)]
  | pendingTable => ofFields [("mode", ofText "pending_table")]

def InterfaceConfig.toDocument (c : InterfaceConfig) : Document :=
  ofFields [("address", c.address.toDocument), ("reflect", ofBool c.reflect),
    ("forward_all", ofBool c.forwardAll)]

def Config.toDocument (c : Config) : Document :=
  let interfaces :=
    if c.interfaces.isEmpty then []
    else [("interfaces", .list (c.interfaces.map InterfaceConfig.toDocument))]
  ofFields <|
    [("max_cache_entries", ofNat c.maxCacheEntries),
     ("content_timeout_ms", ofNat c.contentTimeout.toNat),
     ("face_timeout_ms", ofNat c.faceTimeout.toNat),
     ("interest_timeout_ms", ofNat c.interestTimeout.toNat),
     ("max_interest_retransmit", ofNat c.maxRetransmits.toNat),
     ("nonce_check", c.nonceCheck.toDocument),
     ("broadcast_fallback", ofBool c.broadcastFallback),
     ("max_interfaces", ofNat c.maxInterfaces)] ++ interfaces

end NamedRelay
