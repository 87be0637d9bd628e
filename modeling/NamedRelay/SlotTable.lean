/-!
# Slot tables

Entries are appended, and a removal only empties its slot, so a walk over the table survives any
removal on the way. `compact` drops the empty slots and moves to the next generation. A handle
carries the generation it was issued in and resolves in that generation only.
-/

namespace NamedRelay

structure Handle where
  index : UInt32
  generation : UInt32
deriving DecidableEq, Repr

structure SlotTable (α : Type) where
  slots : List (Option α) := []
  generation : UInt32 := 0

namespace SlotTable

variable {α : Type}

def len (t : SlotTable α) : Nat :=
  t.slots.countP Option.isSome

def isEmpty (t : SlotTable α) : Bool :=
  t.len == 0

def handleAt (t : SlotTable α) (index : Nat) : Handle :=
  ⟨UInt32.ofNat index, t.generation⟩

def insert (t : SlotTable α) (value : α) : Handle × SlotTable α :=
  (t.handleAt t.slots.length, { t with slots := t.slots ++ [some value] })

def get? (t : SlotTable α) (h : Handle) : Option α :=
  if h.generation = t.generation then (t.slots[h.index.toNat]?).join else none

/-- Changes the entry a handle resolves to, if it resolves. -/
def modify (t : SlotTable α) (h : Handle) (f : α → α) : SlotTable α :=
  if h.generation = t.generation then
    { t with slots := t.slots.modify h.index.toNat (Option.map f) }
  else t

/-- Takes the entry out and leaves its slot empty. -/
def remove (t : SlotTable α) (h : Handle) : Option α × SlotTable α :=
  match t.get? h with
  | some value => (some value, { t with slots := t.slots.set h.index.toNat none })
  | none => (none, t)

/-- Drops the empty slots. With none to drop every handle stays valid. -/
def compact (t : SlotTable α) : SlotTable α :=
  if t.slots.all Option.isSome then t
  else ⟨t.slots.filter Option.isSome, t.generation + 1⟩

/-- The entries with their handles, in slot order. -/
def entries (t : SlotTable α) : List (Handle × α) :=
  t.slots.zipIdx.filterMap fun (slot, index) => slot.map fun value => (t.handleAt index, value)

def toList (t : SlotTable α) : List α :=
  t.slots.filterMap id

def find? (t : SlotTable α) (p : α → Bool) : Option Handle :=
  (t.entries.find? fun entry => p entry.2).map Prod.fst

/-- Replaces each entry by what `f` leaves of it, and compacts. -/
def retain (t : SlotTable α) (f : α → Option α) : SlotTable α :=
  ({ t with slots := t.slots.map fun slot => slot.bind f } : SlotTable α).compact

end SlotTable

/-- A position in a walk over the slots present when it was taken. It is apart from the table, so
the table may change between steps. -/
structure Cursor where
  position : Nat
  stop : Nat
  generation : UInt32
deriving DecidableEq, Repr

namespace SlotTable

variable {α : Type}

def cursor (t : SlotTable α) : Cursor :=
  ⟨0, t.slots.length, t.generation⟩

/-- Moves to the next filled slot. A walk begun before a compaction is over. -/
def next (t : SlotTable α) (c : Cursor) : Option Handle × Cursor :=
  if t.generation = c.generation then
    match (List.range' c.position (c.stop - c.position)).find?
        fun index => ((t.slots[index]?).join).isSome with
    | some index => (some (t.handleAt index), { c with position := index + 1 })
    | none => (none, { c with position := max c.position c.stop })
  else (none, c)

/-- The handles a walk of at most `steps` steps yields. -/
def walkFrom (t : SlotTable α) : Nat → Cursor → List Handle
  | 0, _ => []
  | steps + 1, c =>
    match t.next c with
    | (some h, c') => h :: t.walkFrom steps c'
    | (none, _) => []

def walk (t : SlotTable α) : List Handle :=
  t.walkFrom t.slots.length t.cursor

end SlotTable

end NamedRelay
