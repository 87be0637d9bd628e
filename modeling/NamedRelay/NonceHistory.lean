import NamedRelay.Bytes

/-!
# Recent nonces

A bounded record of the nonces seen last, most recent first.
-/

namespace NamedRelay

structure NonceHistory where
  capacity : Nat
  seen : List Bytes := []

namespace NonceHistory

/-- Whether `nonce` is on record. If not it is put first, and the oldest makes way for it in a
full record. A record of capacity zero stays empty. -/
def findOrAppend (h : NonceHistory) (nonce : Bytes) : Bool × NonceHistory :=
  if nonce ∈ h.seen then (true, h)
  else if h.capacity = 0 then (false, h)
  else if h.seen.length < h.capacity then (false, { h with seen := nonce :: h.seen })
  else (false, { h with seen := nonce :: h.seen.dropLast })

end NonceHistory

end NamedRelay
