import NamedRelay.Bytes
import NamedRelay.Error

/-!
# Names

A name is a list of byte components in one family. Both limits are part of the type: `append` is
the only way to a longer name, and it refuses what would pass a limit. A chunk number is one more
component, the shortest big-endian form of the number, and is also remembered as a number.
-/

namespace NamedRelay

def maxComponents : Nat := 64

def maxNameBytes : Nat := 2048

def componentBytes (components : List Bytes) : Nat :=
  components.flatten.length

structure Name where
  suite : Suite
  components : List Bytes
  chunk : Option UInt32
  count_le : components.length ≤ maxComponents
  bytes_le : componentBytes components ≤ maxNameBytes
deriving DecidableEq

namespace Name

def root (suite : Suite) : Name :=
  ⟨suite, [], none, by simp, by simp [componentBytes]⟩

instance : Inhabited Name := ⟨root .ccnb⟩

def count (n : Name) : Nat :=
  n.components.length

def encodedLength (n : Name) : Nat :=
  componentBytes n.components

theorem componentBytes_append_singleton (components : List Bytes) (component : Bytes) :
    componentBytes (components ++ [component]) = componentBytes components + component.length := by
  simp [componentBytes]

/-- Adds a component at the end. The number of components is checked before their bytes. -/
def append (n : Name) (component : Bytes) : Except Error Name :=
  if hc : n.components.length < maxComponents then
    if hb : componentBytes n.components + component.length ≤ maxNameBytes then
      .ok { n with
        components := n.components ++ [component]
        count_le := by rw [List.length_append]; exact hc
        bytes_le := by rw [componentBytes_append_singleton]; exact hb }
    else .error (.capacityExceeded .nameBytes maxNameBytes)
  else .error (.capacityExceeded .nameComponents maxComponents)

def ofComponents (suite : Suite) (components : List Bytes) : Except Error Name :=
  components.foldlM append (root suite)

/-- The shortest big-endian form, one byte for zero. -/
def bigEndian (number : UInt32) : Bytes :=
  [(number >>> 24).toUInt8, (number >>> 16).toUInt8, (number >>> 8).toUInt8].dropWhile (· == 0)
    ++ [number.toUInt8]

/-- The component that stands for a chunk number, in the families that have one. -/
def chunkComponent? : Suite → UInt32 → Option Bytes
  | .ccnb, _ => none
  | .ccntlv, number => some (bigEndian number)
  | .ndntlv, number => some (0 :: bigEndian number)

def appendChunk (n : Name) (number : UInt32) : Except Error Name :=
  match chunkComponent? n.suite number with
  | none => .error (.unsupportedSuite n.suite)
  | some component =>
    match n.append component with
    | .error e => .error e
    | .ok longer => .ok { longer with chunk := some number }

end Name

end NamedRelay
