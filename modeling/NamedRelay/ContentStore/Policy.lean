import NamedRelay.ContentStore.Basic

/-!
# Removal policies

A caching strategy that removes entries by their place in the store and admits content by the
length of its payload.
-/

namespace NamedRelay

/-- Which entries go when room is asked for. -/
inductive Removal where
  | nothing
  | first
  | last
  | everything
deriving DecidableEq, Repr

structure CachePolicy where
  removal : Removal := .nothing
  /-- Whether a request for room counts as dealt with. -/
  handles : Bool := false
  /-- The longest payload that is cached; `none` admits nothing. -/
  longest : Option Nat
  /-- Admits content of every length. -/
  admitsAll : Bool := true
deriving DecidableEq, Repr

namespace CachePolicy

/-- The policy that leaves all to the store. -/
def default : CachePolicy :=
  { longest := none }

def selected (removal : Removal) (handles : List Handle) : List Handle :=
  match removal with
  | .nothing => []
  | .first => handles.take 1
  | .last => handles.drop (handles.length - 1)
  | .everything => handles

instance : CacheStrategy CachePolicy where
  makeRoom p store _ :=
    let going := selected p.removal (store.entries.entries.map Prod.fst)
    (p.handles, going.foldl (fun t h => (t.remove h).2) store.entries, p)
  admits p _ content := (p.admitsAll || p.longest.any (content.payload.length ≤ ·), p)

end CachePolicy

end NamedRelay
