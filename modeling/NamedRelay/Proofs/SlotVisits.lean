import NamedRelay.Proofs.SlotTable

/-!
# Visiting the slots of a table

A cursor moves over the slots, and at each filled one something is done that may change the entry or
take it out, and something else besides. As long as every slot has a handle, no entry is skipped and
none is visited twice, and this comes to the same as to go over the list of the entries.
-/

namespace NamedRelay

namespace SlotTable

variable {α : Type}

section

variable {t : SlotTable α} {position stop : Nat}

lemma next_of_empty (hslot : t.slots[position]? = some none) (hlt : position < stop) :
    t.next ⟨position, stop, t.generation⟩ = t.next ⟨position + 1, stop, t.generation⟩ := by
  have hrest : stop - position = (stop - (position + 1)) + 1 := by omega
  unfold next
  dsimp only
  rw [hrest, List.range'_succ, List.find?_cons_of_neg (by simp [hslot])]
  have hend : max position stop = max (position + 1) stop := by omega
  rw [hend, if_pos rfl, if_pos rfl]

lemma next_of_filled {value : α} (hslot : t.slots[position]? = some (some value))
    (hlt : position < stop) :
    t.next ⟨position, stop, t.generation⟩ =
      (some (t.handleAt position), ⟨position + 1, stop, t.generation⟩) := by
  have hrest : stop - position = (stop - (position + 1)) + 1 := by omega
  unfold next
  dsimp only
  rw [hrest, List.range'_succ, List.find?_cons_of_pos (by simp [hslot]), if_pos rfl]

lemma next_at_end :
    t.next ⟨stop, stop, t.generation⟩ = (none, ⟨stop, stop, t.generation⟩) := by
  simp [next]

end

lemma set_slot {t : SlotTable α} {position : Nat} {slot : Option α}
    (hslot : t.slots[position]? = some slot) : t.slots.set position slot = t.slots := by
  obtain ⟨hlt, rfl⟩ := List.getElem?_eq_some_iff.mp hslot
  exact List.set_getElem_self hlt

/-- Visits the filled slots of a table, which is read anew before each visit. -/
def visitAll {S : Type} (table : S → SlotTable α) (visit : S → Handle → S) :
    Nat → Cursor → S → S
  | 0, _, s => s
  | steps + 1, c, s =>
    match (table s).next c with
    | (some h, c) => visitAll table visit steps c (visit s h)
    | (none, _) => s

section

variable {S : Type} {table : S → SlotTable α} {visit : S → Handle → S} {s : S}
  {position stop : Nat}

lemma visitAll_at_end (steps : Nat) :
    visitAll table visit steps ⟨stop, stop, (table s).generation⟩ s = s := by
  cases steps with
  | zero => rfl
  | succ steps =>
    unfold visitAll
    rw [next_at_end]

lemma visitAll_of_empty (hslot : (table s).slots[position]? = some none) (hlt : position < stop)
    (steps : Nat) :
    visitAll table visit steps ⟨position, stop, (table s).generation⟩ s =
      visitAll table visit steps ⟨position + 1, stop, (table s).generation⟩ s := by
  cases steps with
  | zero => rfl
  | succ steps =>
    unfold visitAll
    rw [next_of_empty hslot hlt]

lemma visitAll_of_filled {value : α} (hslot : (table s).slots[position]? = some (some value))
    (hlt : position < stop) (steps : Nat) :
    visitAll table visit (steps + 1) ⟨position, stop, (table s).generation⟩ s =
      visitAll table visit steps ⟨position + 1, stop, (table s).generation⟩
        (visit s ((table s).handleAt position)) := by
  conv_lhs => unfold visitAll
  rw [next_of_filled hslot hlt]

end

/-- A visit replaces the entry by what `left` leaves of it and does something else besides, which
has nothing to do with the table. -/
structure Visits {S : Type} (Good : S → Prop) (table : S → SlotTable α)
    (withTable : S → SlotTable α → S) (visit : S → Handle → S) (act : S → α → S)
    (left : α → Option α) : Prop where
  visit : ∀ {s position value}, Good s → position < UInt32.size →
    (table s).slots[position]? = some (some value) →
    visit s ((table s).handleAt position) = withTable (act s value)
      { table s with slots := (table s).slots.set position (left value) }
  good : ∀ {s value t}, Good s → Good (withTable (act s value) t)
  table_withTable : ∀ s t, table (withTable s t) = t
  withTable_withTable : ∀ s t t', withTable (withTable s t) t' = withTable s t'
  withTable_table : ∀ s, withTable s (table s) = s
  act_withTable : ∀ s t value, act (withTable s t) value = withTable (act s value) t

namespace Visits

variable {S : Type} {Good : S → Prop} {table : S → SlotTable α} {withTable : S → SlotTable α → S}
  {visit : S → Handle → S} {act : S → α → S} {left : α → Option α}

lemma foldl_act (h : Visits Good table withTable visit act left) (s : S) (t : SlotTable α)
    (values : List α) : values.foldl act (withTable s t) = withTable (values.foldl act s) t := by
  induction values generalizing s with
  | nil => rfl
  | cons value values ih => rw [List.foldl_cons, h.act_withTable, ih, List.foldl_cons]

/-- The slots before the cursor have been visited, and those after it are as they were. -/
lemma visitAll_eq (h : Visits Good table withTable visit act left) {rest : List (Option α)}
    (done : List (Option α)) {s : S} (hgood : Good s)
    (hslots : (table s).slots = done.map (·.bind left) ++ rest)
    (hsize : (done ++ rest).length ≤ UInt32.size) {steps : Nat} (hsteps : rest.length ≤ steps) :
    visitAll table visit steps ⟨done.length, (done ++ rest).length, (table s).generation⟩ s =
      withTable ((rest.filterMap fun slot => slot).foldl act s)
        ⟨(done ++ rest).map (·.bind left), (table s).generation⟩ := by
  induction rest generalizing done s steps with
  | nil =>
    rw [List.append_nil] at hslots
    rw [List.append_nil, visitAll_at_end, ← hslots]
    exact (h.withTable_table s).symm
  | cons slot rest ih =>
    have hsplit : done ++ slot :: rest = (done ++ [slot]) ++ rest := by simp
    have hlength : (done ++ [slot]).length = done.length + 1 := by simp
    have hlt : done.length < (done ++ slot :: rest).length := by simp
    have hslot : (table s).slots[done.length]? = some slot := by simp [hslots]
    cases slot with
    | none =>
      rw [visitAll_of_empty hslot hlt, ← hlength, hsplit]
      exact ih (done ++ [none]) hgood (by simp [hslots]) (hsplit ▸ hsize)
        (Nat.le_of_succ_le hsteps)
    | some value =>
      obtain ⟨steps, rfl⟩ : ∃ n, steps = n + 1 := ⟨steps - 1, by simp at hsteps; omega⟩
      let t : SlotTable α := ⟨(done ++ [some value]).map (fun slot : Option α => slot.bind left) ++
        rest, (table s).generation⟩
      have hset : (table s).slots.set done.length (left value) = t.slots := by
        simp [t, hslots]
      have hvisit := h.visit hgood (Nat.lt_of_lt_of_le hlt hsize) hslot
      rw [hset] at hvisit
      have hrest := ih (done ++ [some value]) (h.good hgood : Good (withTable (act s value) t))
        (congrArg slots (h.table_withTable (act s value) t)) (hsplit ▸ hsize)
        (Nat.le_of_succ_le_succ hsteps)
      rw [h.table_withTable, h.foldl_act, h.withTable_withTable, hlength] at hrest
      rw [visitAll_of_filled hslot hlt, hvisit, hsplit, hrest]
      rfl

/-- A walk over the whole table visits each entry once, in order. -/
lemma visitAll_cursor (h : Visits Good table withTable visit act left) {s : S} (hgood : Good s)
    (hsize : (table s).slots.length ≤ UInt32.size) :
    visitAll table visit (table s).slots.length (table s).cursor s =
      withTable ((table s).toList.foldl act s)
        { table s with slots := (table s).slots.map fun slot => slot.bind left } :=
  h.visitAll_eq [] hgood rfl hsize (Nat.le_refl _)

end Visits

end SlotTable

end NamedRelay
