import NamedRelay.Address.Socket
import NamedRelay.Suite

/-!
# Transport addresses

A peer is reached at a socket address or at a link-layer address.
-/

namespace NamedRelay

/-- The ethertype of relay frames on a raw link. -/
def linkEthertype : UInt16 := 0x3456

inductive Address where
  | inet (addr : SocketAddress)
  | link (mac : Vector UInt8 6) (ethertype : UInt16)
deriving DecidableEq, Repr

namespace Address

/-- IPv4, IPv6 and link addresses are three families. -/
def sameFamily : Address → Address → Bool
  | inet a, inet b => a.isV4 == b.isV4
  | link .., link .. => true
  | _, _ => false

/-- The address that reaches every peer on the same medium. -/
def broadcast (address : Address) (suite : Suite) : Address :=
  match address with
  | inet (.v4 ..) => inet (.v4 (Vector.replicate 4 255) suite.defaultPort)
  | inet (.v6 ..) => inet (.v6 (Vector.replicate 8 0) 0 suite.defaultPort)
  | link .. => link (Vector.replicate 6 255) linkEthertype

def text : Address → String
  | inet addr => addr.text
  | link mac ethertype =>
    ":".intercalate (mac.toList.map fun byte => String.ofList (Bytes.hexPair byte))
      ++ "/0x" ++ Bytes.hex [(ethertype >>> 8).toUInt8, ethertype.toUInt8]

end Address

end NamedRelay
