/-!
# Time

Times and durations are 64-bit counts of milliseconds. Additions stop at the largest word instead
of wrapping, so a timeout that lies beyond the last representable time is only reached there.
-/

namespace NamedRelay

/-- Addition that stops at the largest 64-bit word. -/
def addSaturating (a b : UInt64) : UInt64 :=
  UInt64.ofNat (min (a.toNat + b.toNat) (UInt64.size - 1))

/-- Addition that stops at the largest 32-bit word. -/
def addSaturating32 (a b : UInt32) : UInt32 :=
  UInt32.ofNat (min (a.toNat + b.toNat) (UInt32.size - 1))

/-- Milliseconds since the start of 1970. -/
structure Timestamp where
  ms : UInt64
deriving DecidableEq, Repr, Inhabited

namespace Timestamp

def adding (t : Timestamp) (ms : UInt64) : Timestamp :=
  ⟨addSaturating t.ms ms⟩

/-- Stops at time zero. -/
def removing (t : Timestamp) (ms : UInt64) : Timestamp :=
  ⟨UInt64.ofNat (t.ms.toNat - ms.toNat)⟩

/-- How long `t` comes after `other`, if it does not come before it. -/
def difference? (t other : Timestamp) : Option UInt64 :=
  if other.ms ≤ t.ms then some (t.ms - other.ms) else none

def latest (t other : Timestamp) : Timestamp :=
  if other.ms ≤ t.ms then t else other

/-- True once `ms` milliseconds have passed since `t`, as seen at `now`. -/
def hasElapsed (t : Timestamp) (ms : UInt64) (now : Timestamp) : Bool :=
  (t.adding ms).ms ≤ now.ms

def compare (t other : Timestamp) : Ordering :=
  Ord.compare t.ms other.ms

end Timestamp

theorem toNat_addSaturating (a b : UInt64) :
    (addSaturating a b).toNat = min (a.toNat + b.toNat) (UInt64.size - 1) := by
  unfold addSaturating
  rw [UInt64.toNat_ofNat', UInt64.size]
  omega

theorem toNat_addSaturating32 (a b : UInt32) :
    (addSaturating32 a b).toNat = min (a.toNat + b.toNat) (UInt32.size - 1) := by
  unfold addSaturating32
  rw [UInt32.toNat_ofNat', UInt32.size]
  omega

end NamedRelay
