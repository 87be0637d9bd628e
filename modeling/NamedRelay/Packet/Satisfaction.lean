import NamedRelay.Name.Matching
import NamedRelay.Packet.Basic
import NamedRelay.Time

/-!
# What answers an interest

An interest names a content either by its exact name or, in the families with suffix bounds, by
the name followed by the content's digest. The digest counts as one component of the content, and
the bounds limit how many components the content has beyond the interest.
-/

namespace NamedRelay

/-- Whether a content answers an interest, or how its digest decides that. -/
inductive Verdict where
  | settled (answer : Bool)
  | byDigest (answer : Digest → Bool)

/-- The bounds are the same where both fields are of one family that has bounds. -/
def Fields.agree : Fields → Fields → Bool
  | ccnb least greatest _, ccnb least' greatest' _ => least == least' && greatest == greatest'
  | ndntlv least greatest .., ndntlv least' greatest' .. =>
    least == least' && greatest == greatest'
  | _, _ => true

namespace Packet

/-- The two interests ask for the same: one entry of the pending table does for both. -/
def isSameInterest (p other : Packet) : Bool :=
  if p.suite != other.suite || !p.name.isExactMatch other.name then false
  else p.fields.agree other.fields

/-- The suffix bounds leave room for a content of `offered` components. -/
def withinBounds (wanted offered : Nat) (bounds : UInt64 × UInt64) : Bool :=
  addSaturating (UInt64.ofNat wanted) bounds.1 ≤ UInt64.ofNat offered
    && UInt64.ofNat offered ≤ addSaturating (UInt64.ofNat wanted) bounds.2

def verdict (interest content : Packet) : Verdict :=
  if interest.suite ≠ content.suite then .settled false
  else match interest.fields.suffixBounds? with
    | none => .settled (content.name.isExactMatch interest.name)
    | some bounds =>
      if withinBounds interest.name.count (content.name.count + 1) bounds = false then
        .settled false
      else if interest.name.count = content.name.count + 1 then
        .byDigest fun digest => content.name.compare (some digest) interest.name .exact == 0
      else .settled (content.name.isExactMatch interest.name)

/-- Takes the digest of the content's wire only if the verdict hangs on it. -/
def isSatisfiedBy (interest content : Packet) (digest : Bytes → Digest) : Bool :=
  match interest.verdict content with
  | .settled answer => answer
  | .byDigest answer => answer (digest content.wire)

/-- How often the digest of the content is taken to reach the verdict. -/
def digestCalls (interest content : Packet) : Nat :=
  match interest.verdict content with
  | .settled _ => 0
  | .byDigest _ => 1

end Packet

end NamedRelay
