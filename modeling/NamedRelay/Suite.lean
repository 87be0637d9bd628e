/-!
# Wire families

A name, and every packet that carries it, belongs to one of three families. Nothing in the relay
compares names of different families except the order of names.
-/

namespace NamedRelay

inductive Suite where
  | ccnb
  | ccntlv
  | ndntlv
deriving DecidableEq, Repr, Inhabited

namespace Suite

/-- The protocol version a family is known by. -/
def label : Suite → String
  | ccnb => "ccnb"
  | ccntlv => "ccnx2015"
  | ndntlv => "ndn2013"

/-- The short key of a family in configuration and status. -/
def key : Suite → String
  | ccnb => "ccnb"
  | ccntlv => "ccntlv"
  | ndntlv => "ndntlv"

def ofKey? : String → Option Suite
  | "ccnb" => some ccnb
  | "ccntlv" => some ccntlv
  | "ndntlv" => some ndntlv
  | _ => none

def defaultPort : Suite → UInt16
  | ccnb | ccntlv => 9695
  | ndntlv => 6363

end Suite

end NamedRelay
