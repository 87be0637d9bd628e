import NamedRelay.Name.Basic

/-!
# Packets

A packet is an interest or a content, with a name, the fields of the name's family, a payload and
the bytes it has on the wire. That name and fields are of one family, and that the wire fits a
packet, is part of the type.
-/

namespace NamedRelay

def maxPacketBytes : Nat := 8096

inductive PacketKind where
  | interest
  | content
deriving DecidableEq, Repr

/-- The fields each family has. -/
inductive Fields where
  | ccnb (minSuffix maxSuffix : UInt64) (nonce : Option Bytes)
  | ccntlv
  | ndntlv (minSuffix maxSuffix : UInt64) (nonce : Option Bytes) (mustBeFresh : Bool)
      (lifetime : Option UInt64) (freshness : UInt64)
deriving DecidableEq

namespace Fields

def suite : Fields → Suite
  | ccnb .. => .ccnb
  | ccntlv => .ccntlv
  | ndntlv .. => .ndntlv

def default : Suite → Fields
  | .ccnb => .ccnb 0 64 none
  | .ccntlv => .ccntlv
  | .ndntlv => .ndntlv 0 1 none false none 0

@[simp] theorem suite_default (s : Suite) : (default s).suite = s := by
  cases s <;> rfl

/-- The least and the greatest number of components after the interest's own. -/
def suffixBounds? : Fields → Option (UInt64 × UInt64)
  | ccnb least greatest _ => some (least, greatest)
  | ccntlv => none
  | ndntlv least greatest .. => some (least, greatest)

end Fields

structure Packet where
  kind : PacketKind
  name : Name
  fields : Fields
  payload : Bytes
  wire : Bytes
  suite_eq : fields.suite = name.suite
  wire_le : wire.length ≤ maxPacketBytes
deriving DecidableEq

namespace Packet

/-- Checks the families before the length. -/
def make (kind : PacketKind) (name : Name) (fields : Fields) (payload wire : Bytes) :
    Except Error Packet :=
  if hs : fields.suite = name.suite then
    if hw : wire.length ≤ maxPacketBytes then .ok ⟨kind, name, fields, payload, wire, hs, hw⟩
    else .error (.capacityExceeded .packetBytes maxPacketBytes)
  else .error (.malformed (.suiteMismatch fields.suite name.suite))

def interest (name : Name) (wire : Bytes) : Except Error Packet :=
  make .interest name (.default name.suite) [] wire

def content (name : Name) (payload wire : Bytes) : Except Error Packet :=
  make .content name (.default name.suite) payload wire

def withFields (p : Packet) (fields : Fields) : Except Error Packet :=
  make p.kind p.name fields p.payload p.wire

def isInterest (p : Packet) : Bool :=
  p.kind == .interest

def suite (p : Packet) : Suite :=
  p.name.suite

def nonce (p : Packet) : Option Bytes :=
  match p.fields with
  | .ccnb _ _ nonce => nonce
  | .ccntlv => none
  | .ndntlv _ _ nonce .. => nonce

def lifetime (p : Packet) : Option UInt64 :=
  match p.fields with
  | .ndntlv _ _ _ _ lifetime _ => lifetime
  | _ => none

def freshness (p : Packet) : Option UInt64 :=
  match p.fields with
  | .ndntlv _ _ _ _ _ freshness => some freshness
  | _ => none

def mustBeFresh (p : Packet) : Bool :=
  match p.fields with
  | .ndntlv _ _ _ fresh _ _ => fresh
  | _ => false

end Packet

end NamedRelay
