import NamedRelay.Digest
import NamedRelay.Name.Basic

/-!
# Comparing names

A content's name may be compared with its digest as one more, unwritten component at the end.
-/

namespace NamedRelay

inductive MatchMode where
  | exact
  | anywhere
  | longest
deriving DecidableEq, Repr

/-- How many leading components agree. -/
def leadingMatches : List Bytes → List Bytes → Nat
  | x :: xs, y :: ys => if x = y then leadingMatches xs ys + 1 else 0
  | _, _ => 0

namespace Name

/-- The components, with the digest last if there is one. -/
def withDigest (n : Name) (digest : Option Digest) : List Bytes :=
  n.components ++ (digest.map Vector.toList).toList

/-- For `exact`, 0 for the same components and chunk number, and -1 otherwise. In the other modes
the number of leading components that agree. -/
def compare (n : Name) (digest : Option Digest) (target : Name) (mode : MatchMode) : Int :=
  let ours := n.withDigest digest
  match mode with
  | .exact =>
    if ours.length ≠ target.components.length ∨ n.chunk ≠ target.chunk then -1
    else if leadingMatches ours target.components = ours.length then 0
    else -1
  | .anywhere | .longest => leadingMatches ours target.components

def isExactMatch (n target : Name) : Bool :=
  n.compare none target .exact == 0

/-- Every component of `n` leads `name`. -/
def leads (n name : Name) : Bool :=
  n.compare none name .longest == n.components.length

end Name

end NamedRelay
