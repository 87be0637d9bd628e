import Mathlib.Algebra.Group.Fin.Basic
import Mathlib.Data.List.Basic
import Mathlib.Tactic.Common
import NamedRelay.Ring

/-!
# Rings as lists

A ring whose cells hold values from its read position up to its write position is a list of at most
its capacity. A value is put last unless the list has that length, and taken from the front unless
the list is empty.
-/

namespace NamedRelay.Ring

variable {α : Type} {capacity : Nat}

/-- The cells from the read position up to the write position hold values. -/
def Filled (q : Ring α capacity) : Prop :=
  ∀ k < q.len, (q.cell k).isSome = true

lemma filled_empty : ({} : Ring α capacity).Filled := by
  intro k hk
  simp [len] at hk

lemma len_le (q : Ring α capacity) : q.len ≤ capacity :=
  Nat.lt_succ_iff.mp (q.write - q.read).isLt

lemma position_zero (q : Ring α capacity) : q.position 0 = q.read := by
  simp [position]

/-- The write position is as many steps ahead as values are waiting. -/
lemma position_len (q : Ring α capacity) : q.position q.len = q.write := by
  have hlen : Fin.ofNat (capacity + 1) q.len = q.write - q.read := by
    simp [len]
  unfold position
  rw [hlen, add_sub_cancel]

/-- Fewer steps than once around the ring lead to different positions. -/
lemma position_inj {q : Ring α capacity} {j k : Nat} (hj : j ≤ capacity) (hk : k ≤ capacity) :
    q.position j = q.position k ↔ j = k := by
  unfold position
  rw [add_right_inj, Fin.ext_iff, Fin.val_ofNat, Fin.val_ofNat,
    Nat.mod_eq_of_lt (Nat.lt_succ_of_le hj), Nat.mod_eq_of_lt (Nat.lt_succ_of_le hk)]

lemma toList_eq (q : Ring α capacity) : q.toList = (List.range q.len).filterMap q.cell :=
  rfl

lemma length_toList {q : Ring α capacity} (h : q.Filled) : q.toList.length = q.len := by
  have hfirst : ∀ n ≤ q.len, ((List.range n).filterMap q.cell).length = n := by
    intro n hn
    induction n with
    | zero => rfl
    | succ n ih =>
      obtain ⟨value, hvalue⟩ := Option.isSome_iff_exists.mp (h n hn)
      rw [List.range_succ, List.filterMap_append, List.length_append, ih (Nat.le_of_succ_le hn)]
      simp [hvalue]
  exact hfirst q.len (Nat.le_refl _)

lemma isEmpty_iff (q : Ring α capacity) : q.isEmpty = true ↔ q.len = 0 := by
  unfold isEmpty len
  rw [beq_iff_eq, Fin.val_eq_zero_iff, sub_eq_zero]
  exact eq_comm

lemma isFull_iff (q : Ring α capacity) : q.isFull = true ↔ q.len = capacity := by
  have hlast : q.write - q.read = Fin.last capacity ↔ q.write - q.read + 1 = 0 := by
    rw [← Fin.last_add_one, add_left_inj]
  calc q.isFull = true ↔ q.write - q.read + 1 = 0 := by
        rw [isFull, beq_iff_eq, sub_add_eq_add_sub, sub_eq_zero]
    _ ↔ q.len = capacity := by
        rw [← hlast, Fin.ext_iff]
        rfl

/-! ## Putting a value in -/

lemma push_of_full {q : Ring α capacity} (hfull : q.len = capacity) (value : α) :
    q.push value = .error value :=
  if_pos (q.isFull_iff.mpr hfull)

lemma push_of_not_full {q : Ring α capacity} (hroom : q.len ≠ capacity) (value : α) :
    q.push value = .ok (q.pushed value) :=
  if_neg fun hfull => hroom (q.isFull_iff.mp hfull)

lemma len_pushed {q : Ring α capacity} (hroom : q.len ≠ capacity) (value : α) :
    (q.pushed value).len = q.len + 1 := by
  have hlt : q.write - q.read < Fin.last capacity := by
    rw [Fin.lt_def]
    exact Nat.lt_of_le_of_ne q.len_le hroom
  have hstep : q.write + 1 - q.read = q.write - q.read + 1 := add_sub_right_comm _ _ _
  calc (q.pushed value).len = (q.write + 1 - q.read).val := rfl
    _ = q.len + 1 := by rw [hstep, Fin.val_add_one_of_lt hlt]; rfl

/-- The new value stands at the write position, and the others where they were. -/
lemma cell_pushed {q : Ring α capacity} (value : α) {k : Nat} (hk : k ≤ q.len) :
    (q.pushed value).cell k = if k = q.len then some value else q.cell k := by
  have hwrite : q.write = q.position k ↔ k = q.len := by
    rw [← position_len, position_inj q.len_le (Nat.le_trans hk q.len_le)]
    exact eq_comm
  change (q.cells.set q.write (some value))[q.position k] = _
  rw [Fin.getElem_fin, Vector.getElem_set]
  simp only [Fin.val_inj, hwrite]
  rfl

lemma toList_pushed {q : Ring α capacity} (hroom : q.len ≠ capacity) (value : α) :
    (q.pushed value).toList = q.toList ++ [value] := by
  have hold : (List.range q.len).filterMap (q.pushed value).cell =
      (List.range q.len).filterMap q.cell := by
    apply List.filterMap_congr
    intro k hk
    have hlt := List.mem_range.mp hk
    rw [cell_pushed value (Nat.le_of_lt hlt), if_neg (Nat.ne_of_lt hlt)]
  have hnew : (q.pushed value).cell q.len = some value := by
    rw [cell_pushed value (Nat.le_refl _), if_pos rfl]
  rw [toList_eq, len_pushed hroom, List.range_succ, List.filterMap_append, hold]
  simp [hnew, toList_eq]

lemma Filled.pushed {q : Ring α capacity} (h : q.Filled) (hroom : q.len ≠ capacity) (value : α) :
    (q.pushed value).Filled := by
  intro k hk
  rw [len_pushed hroom] at hk
  rw [cell_pushed value (Nat.le_of_lt_succ hk)]
  split
  · rfl
  · exact h k (by omega)

/-! ## Taking a value out -/

lemma pop_of_empty {q : Ring α capacity} (hempty : q.len = 0) : q.pop = (none, q) :=
  if_pos (q.isEmpty_iff.mpr hempty)

lemma pop_of_not_empty {q : Ring α capacity} (hne : q.len ≠ 0) : q.pop = (q.cell 0, q.popped) := by
  have hfirst : q.cell 0 = q.cells[q.read] := by
    simp only [cell, position_zero]
  rw [hfirst]
  exact if_neg fun hempty => hne (q.isEmpty_iff.mp hempty)

lemma len_popped {q : Ring α capacity} (hne : q.len ≠ 0) : q.popped.len + 1 = q.len := by
  have hstep : q.write - (q.read + 1) + 1 = q.write - q.read := by
    rw [← sub_sub, sub_add_cancel]
  have hlt : q.write - (q.read + 1) < Fin.last capacity := by
    rw [Fin.lt_last_iff_ne_last]
    intro hlast
    rw [hlast, Fin.last_add_one] at hstep
    apply hne
    rw [len, ← hstep]
    rfl
  calc q.popped.len + 1 = (q.write - (q.read + 1) + 1).val := (Fin.val_add_one_of_lt hlt).symm
    _ = q.len := by rw [hstep]; rfl

/-- The other values are one step nearer. -/
lemma cell_popped {q : Ring α capacity} {k : Nat} (hk : k < capacity) :
    q.popped.cell k = q.cell (k + 1) := by
  have hnext : q.popped.position k = q.position (k + 1) := by
    have hstep : Fin.ofNat (capacity + 1) (k + 1) = Fin.ofNat (capacity + 1) k + 1 := by
      ext
      simp [Fin.val_add]
    change q.read + 1 + Fin.ofNat (capacity + 1) k = q.read + Fin.ofNat (capacity + 1) (k + 1)
    rw [hstep, add_assoc, add_comm 1]
  have hother : q.read ≠ q.position (k + 1) := by
    rw [← position_zero, Ne, position_inj (Nat.zero_le _) hk]
    exact Nat.zero_ne_add_one k
  calc q.popped.cell k = (q.cells.set q.read none)[q.popped.position k] := rfl
    _ = (q.cells.set q.read none)[q.position (k + 1)] := by simp only [hnext]
    _ = q.cell (k + 1) := by
        rw [Fin.getElem_fin, Vector.getElem_set_ne _ _ (Fin.val_ne_of_ne hother)]
        rfl

/-- The first value is taken out and the others stay. -/
lemma Filled.pop {q : Ring α capacity} (h : q.Filled) (hne : q.len ≠ 0) :
    ∃ value, q.pop = (some value, q.popped) ∧ q.toList = value :: q.popped.toList ∧
      q.popped.Filled := by
  have hlen := len_popped hne
  have hle := q.len_le
  obtain ⟨value, hvalue⟩ := Option.isSome_iff_exists.mp (h 0 (Nat.pos_of_ne_zero hne))
  have hcells : ∀ k < q.popped.len, q.popped.cell k = q.cell (k + 1) := by
    intro k hk
    exact cell_popped (by omega)
  refine ⟨value, ?_, ?_, ?_⟩
  · rw [pop_of_not_empty hne, hvalue]
  · have hrest : q.popped.toList = (List.range q.popped.len).filterMap fun k => q.cell (k + 1) := by
      rw [toList_eq]
      apply List.filterMap_congr
      intro k hk
      exact hcells k (List.mem_range.mp hk)
    rw [hrest, toList_eq, ← hlen, List.range_succ_eq_map, List.filterMap_cons, hvalue,
      List.filterMap_map]
    rfl
  · intro k hk
    rw [hcells k hk]
    exact h (k + 1) (by omega)

end NamedRelay.Ring
