/-!
# Rings

A queue in a fixed ring of cells. One cell stays empty, so that a full ring and an empty ring have
different positions; a ring of capacity `n` has `n + 1` cells. Positions are `Fin (n + 1)`, whose
addition is the step around the ring.
-/

namespace NamedRelay

structure Ring (α : Type) (capacity : Nat) where
  cells : Vector (Option α) (capacity + 1) := Vector.replicate (capacity + 1) none
  read : Fin (capacity + 1) := 0
  write : Fin (capacity + 1) := 0

namespace Ring

variable {α : Type} {capacity : Nat}

def len (q : Ring α capacity) : Nat :=
  (q.write - q.read).val

def isEmpty (q : Ring α capacity) : Bool :=
  q.read == q.write

def isFull (q : Ring α capacity) : Bool :=
  q.write + 1 == q.read

/-- The position `k` steps after the read position. -/
def position (q : Ring α capacity) (k : Nat) : Fin (capacity + 1) :=
  q.read + Fin.ofNat (capacity + 1) k

def cell (q : Ring α capacity) (k : Nat) : Option α :=
  q.cells[q.position k]

/-- The ring with the value at the write position. -/
def pushed (q : Ring α capacity) (value : α) : Ring α capacity :=
  { q with cells := q.cells.set q.write (some value), write := q.write + 1 }

/-- Puts a value last, or hands it back if there is no room. -/
def push (q : Ring α capacity) (value : α) : Except α (Ring α capacity) :=
  if q.isFull then .error value else .ok (q.pushed value)

def front? (q : Ring α capacity) : Option α :=
  if q.isEmpty then none else q.cells[q.read]

/-- The ring without the value at the read position. -/
def popped (q : Ring α capacity) : Ring α capacity :=
  { q with cells := q.cells.set q.read none, read := q.read + 1 }

/-- Takes the oldest value out and empties its cell. -/
def pop (q : Ring α capacity) : Option α × Ring α capacity :=
  if q.isEmpty then (none, q) else (q.cells[q.read], q.popped)

/-- The values from the oldest to the newest. -/
def toList (q : Ring α capacity) : List α :=
  (List.range q.len).filterMap q.cell

end Ring

end NamedRelay
