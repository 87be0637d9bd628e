import NamedRelay.Face.Basic

/-!
# The registry of faces

Faces are kept in the order of their numbers, which only grow.
-/

namespace NamedRelay

structure FaceRegistry (σ : Type) where
  faces : List (Face σ) := []
  latest : UInt32 := 0

namespace FaceRegistry

variable {σ : Type}

def count (r : FaceRegistry σ) : Nat :=
  r.faces.length

def get? (r : FaceRegistry σ) (id : FaceId) : Option (Face σ) :=
  r.faces.find? fun f => f.id == id

def modify (r : FaceRegistry σ) (id : FaceId) (change : Face σ → Face σ) : FaceRegistry σ :=
  { r with faces := r.faces.map fun f => if f.id = id then change f else f }

def erase (r : FaceRegistry σ) (id : FaceId) : FaceRegistry σ :=
  { r with faces := r.faces.filter fun f => f.id != id }

/-- The face of a peer on an interface. -/
def findPeer? (r : FaceRegistry σ) (interface : Option Nat) (peer : Option Address) :
    Option (Face σ) :=
  r.faces.find? fun f => f.interface == interface && f.peer == peer

/-- The number after the latest one, if there is one. -/
def nextId? (r : FaceRegistry σ) : Option FaceId :=
  if r.latest = UInt32.ofNat (UInt32.size - 1) then none else some ⟨r.latest + 1⟩

/-- Puts a face with a new number last. -/
def insert (r : FaceRegistry σ) (face : Face σ) : FaceRegistry σ :=
  ⟨r.faces ++ [face], face.id.number⟩

end FaceRegistry

end NamedRelay
