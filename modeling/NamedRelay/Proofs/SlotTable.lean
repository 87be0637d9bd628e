import Mathlib.Data.List.Basic
import Mathlib.Tactic.Common
import NamedRelay.SlotTable

/-!
# The entries of a slot table

What each operation of a table does to the list of its entries. Handles come into it in two places:
a handle that resolves singles out one entry, and in a table of at most `2 ^ 32` slots the handle
that a search gives resolves to the entry it found.
-/

namespace NamedRelay

/-- Leaving some entries changed and the others out is to filter and then to change. -/
lemma filterMap_eq_map_filter {α β : Type} {f : α → Option β} {p : α → Bool} {g : α → β}
    (h : ∀ a, f a = if p a then some (g a) else none) (l : List α) :
    l.filterMap f = (l.filter p).map g := by
  induction l with
  | nil => rfl
  | cons a l ih =>
    cases hp : p a with
    | true => rw [List.filterMap_cons_some (by rw [h, hp]; rfl), List.filter_cons_of_pos hp, ih,
        List.map_cons]
    | false => rw [List.filterMap_cons_none (by rw [h, hp]; rfl),
        List.filter_cons_of_neg (by simp [hp]), ih]

namespace SlotTable

variable {α : Type}

@[simp] lemma toList_insert (t : SlotTable α) (value : α) :
    (t.insert value).2.toList = t.toList ++ [value] := by
  simp [insert, toList]

@[simp] lemma toList_compact (t : SlotTable α) : t.compact.toList = t.toList := by
  unfold compact
  split
  · rfl
  · simp only [toList, List.filterMap_filter]
    congr 1
    funext slot
    cases slot <;> rfl

@[simp] lemma toList_retain (t : SlotTable α) (f : α → Option α) :
    (t.retain f).toList = t.toList.filterMap f := by
  unfold retain
  rw [toList_compact]
  simp only [toList, List.filterMap_map, List.filterMap_filterMap]
  rfl

lemma slot_of_get? {t : SlotTable α} {h : Handle} {value : α} (hv : t.get? h = some value) :
    h.generation = t.generation ∧ t.slots[h.index.toNat]? = some (some value) := by
  have hg : h.generation = t.generation := by
    by_contra hg
    simp [get?, hg] at hv
  refine ⟨hg, ?_⟩
  simpa [get?, hg, Option.join_eq_some_iff] using hv

lemma toList_of_slot {t : SlotTable α} {i : Nat} {value : α}
    (hslot : t.slots[i]? = some (some value)) :
    t.toList = (t.slots.take i).filterMap id ++ value :: (t.slots.drop (i + 1)).filterMap id := by
  obtain ⟨hi, hget⟩ := List.getElem?_eq_some_iff.mp hslot
  have hsplit : t.slots = t.slots.take i ++ some value :: t.slots.drop (i + 1) := by
    rw [← hget, List.getElem_cons_drop, List.take_append_drop]
  rw [toList]
  conv_lhs => rw [hsplit]
  simp

lemma toList_modify_of_slot {t : SlotTable α} {h : Handle} {value : α}
    (hg : h.generation = t.generation) (hslot : t.slots[h.index.toNat]? = some (some value))
    (f : α → α) :
    (t.modify h f).toList = (t.slots.take h.index.toNat).filterMap id ++
      f value :: (t.slots.drop (h.index.toNat + 1)).filterMap id := by
  obtain ⟨hi, hget⟩ := List.getElem?_eq_some_iff.mp hslot
  simp [modify, hg, toList, List.modify_eq_take_cons_drop hi, hget]

/-- A handle that resolves singles out one entry, and changes through it change that entry only. -/
lemma split_of_get? {t : SlotTable α} {h : Handle} {value : α} (hv : t.get? h = some value) :
    ∃ before after, t.toList = before ++ value :: after ∧
      ∀ f : α → α, (t.modify h f).toList = before ++ f value :: after := by
  obtain ⟨hg, hslot⟩ := slot_of_get? hv
  exact ⟨_, _, toList_of_slot hslot, toList_modify_of_slot hg hslot⟩

lemma modify_of_none {t : SlotTable α} {h : Handle} (hn : t.get? h = none) (f : α → α) :
    t.modify h f = t := by
  unfold modify
  split
  · rename_i hg
    have hslot : t.slots[h.index.toNat]?.join = none := by simpa [get?, hg] using hn
    have hid : t.slots.modify h.index.toNat (Option.map f) = t.slots := by
      apply List.ext_getElem?
      intro j
      rw [List.getElem?_modify]
      split
      · rename_i hj
        subst hj
        cases hs : t.slots[h.index.toNat]? with
        | none => rfl
        | some slot =>
          cases slot with
          | none => rfl
          | some value => simp [hs] at hslot
      · simp
    rw [hid]
  · rfl

lemma toList_modify_of_none {t : SlotTable α} {h : Handle} (hn : t.get? h = none) (f : α → α) :
    (t.modify h f).toList = t.toList := by
  rw [modify_of_none hn]

lemma mem_of_get? {t : SlotTable α} {h : Handle} {value : α} (hv : t.get? h = some value) :
    value ∈ t.toList := by
  obtain ⟨before, after, hl, -⟩ := split_of_get? hv
  simp [hl]

lemma mem_insert {t : SlotTable α} {value other : α} :
    other ∈ (t.insert value).2.toList ↔ other ∈ t.toList ∨ other = value := by
  simp

lemma mem_modify {t : SlotTable α} {h : Handle} {f : α → α} {other : α}
    (hm : other ∈ (t.modify h f).toList) :
    other ∈ t.toList ∨ ∃ value ∈ t.toList, f value = other := by
  cases hv : t.get? h with
  | none =>
    rw [toList_modify_of_none hv] at hm
    exact .inl hm
  | some value =>
    obtain ⟨before, after, hl, hl'⟩ := split_of_get? hv
    rw [hl', List.mem_append, List.mem_cons] at hm
    rw [hl]
    rcases hm with hm | rfl | hm
    · exact .inl (List.mem_append_left _ hm)
    · exact .inr ⟨value, by simp, rfl⟩
    · exact .inl (List.mem_append_right _ (List.mem_cons_of_mem _ hm))

/-- Every entry is left, changed or not. -/
lemma exists_mem_modify {t : SlotTable α} {value : α} (hm : value ∈ t.toList) (h : Handle)
    (f : α → α) : value ∈ (t.modify h f).toList ∨ f value ∈ (t.modify h f).toList := by
  cases hv : t.get? h with
  | none =>
    rw [toList_modify_of_none hv]
    exact .inl hm
  | some found =>
    obtain ⟨before, after, hl, hl'⟩ := split_of_get? hv
    rw [hl, List.mem_append, List.mem_cons] at hm
    rw [hl']
    rcases hm with hm | rfl | hm
    · exact .inl (List.mem_append_left _ hm)
    · exact .inr (by simp)
    · exact .inl (List.mem_append_right _ (List.mem_cons_of_mem _ hm))

/-- What a change leaves of every entry, it leaves of the list of entries. -/
lemma map_toList_modify {β : Type} (t : SlotTable α) (h : Handle) {f : α → α} {g : α → β}
    (hg : ∀ value, g (f value) = g value) : (t.modify h f).toList.map g = t.toList.map g := by
  cases hv : t.get? h with
  | none => rw [toList_modify_of_none hv]
  | some value =>
    obtain ⟨before, after, hl, hl'⟩ := split_of_get? hv
    rw [hl', hl]
    simp [hg]

section

variable {t : SlotTable α} {i : Nat} {value : α}

lemma toNat_index_handleAt (t : SlotTable α) (hi : i < UInt32.size) :
    (t.handleAt i).index.toNat = i := by
  change (UInt32.ofNat i).toNat = i
  rw [UInt32.toNat_ofNat']
  exact Nat.mod_eq_of_lt hi

lemma get?_handleAt_eq (t : SlotTable α) (hi : i < UInt32.size) :
    t.get? (t.handleAt i) = t.slots[i]?.join := by
  unfold get?
  rw [toNat_index_handleAt t hi]
  exact if_pos rfl

lemma get?_handleAt (hi : i < UInt32.size) (hslot : t.slots[i]? = some (some value)) :
    t.get? (t.handleAt i) = some value := by
  rw [get?_handleAt_eq t hi, hslot]
  rfl

lemma remove_handleAt (hi : i < UInt32.size) (hslot : t.slots[i]? = some (some value)) :
    (t.remove (t.handleAt i)).2 = { t with slots := t.slots.set i none } := by
  unfold remove
  rw [get?_handleAt hi hslot, toNat_index_handleAt t hi]

lemma modify_handleAt (hi : i < UInt32.size) (hslot : t.slots[i]? = some (some value))
    (f : α → α) :
    t.modify (t.handleAt i) f = { t with slots := t.slots.set i (some (f value)) } := by
  have hset : t.slots.modify i (Option.map f) = t.slots.set i (some (f value)) := by
    rw [List.modify_eq_set_getElem?, hslot]
    rfl
  unfold modify
  rw [toNat_index_handleAt t hi, hset]
  exact if_pos rfl

end

lemma map_snd_filled (t : SlotTable α) (slots : List (Option α × Nat)) :
    (slots.filterMap fun (slot, index) => slot.map fun value => (t.handleAt index, value)).map
      Prod.snd = (slots.map Prod.fst).filterMap id := by
  rw [List.map_filterMap, List.filterMap_map]
  congr 1
  funext ⟨slot, index⟩
  cases slot <;> rfl

lemma map_snd_entries (t : SlotTable α) : t.entries.map Prod.snd = t.toList := by
  unfold entries toList
  rw [map_snd_filled, List.zipIdx_map_fst]

/-- The handles of the entries, in slot order. -/
def handles (t : SlotTable α) : List Handle :=
  t.entries.map Prod.fst

lemma handles_eq (t : SlotTable α) :
    t.handles = (t.slots.zipIdx.filter fun slot => slot.1.isSome).map fun slot =>
      t.handleAt slot.2 := by
  unfold handles entries
  rw [List.map_filterMap]
  apply filterMap_eq_map_filter
  rintro ⟨slot, index⟩
  cases slot <;> rfl

lemma find?_eq_none (t : SlotTable α) (p : α → Bool) :
    t.find? p = none ↔ ∀ value ∈ t.toList, p value = false := by
  rw [← map_snd_entries]
  simp only [find?, Option.map_eq_none_iff, List.find?_eq_none, List.forall_mem_map,
    Bool.not_eq_true]

/-- A search stops at the first entry that it looks for. -/
lemma exists_slot_of_find? {t : SlotTable α} {p : α → Bool} {h : Handle}
    (hf : t.find? p = some h) :
    ∃ i value, h = t.handleAt i ∧ t.slots[i]? = some (some value) ∧ p value = true ∧
      ∀ earlier ∈ (t.slots.take i).filterMap id, p earlier = false := by
  simp only [find?, entries, Option.map_eq_some_iff, List.find?_filterMap,
    Option.bind_eq_some_iff] at hf
  obtain ⟨⟨_, value⟩, ⟨⟨slot, i⟩, hfirst, hentry⟩, rfl⟩ := hf
  obtain ⟨rfl, rfl⟩ : slot = some value ∧ t.handleAt i = _ := by simpa using hentry
  obtain ⟨hp, j, hj, hget, hearlier⟩ := List.find?_eq_some_iff_getElem.mp hfirst
  rw [List.length_zipIdx] at hj
  obtain ⟨hslot, rfl⟩ : t.slots[j] = some value ∧ j = i := by simpa using hget
  refine ⟨j, value, rfl, List.getElem?_eq_some_iff.mpr ⟨hj, hslot⟩, by simpa using hp, ?_⟩
  intro earlier hmem
  have htaken : some earlier ∈ t.slots.take j := by simpa using hmem
  obtain ⟨k, hk, hkslot⟩ := List.mem_iff_getElem.mp htaken
  rw [List.length_take] at hk
  rw [List.getElem_take] at hkslot
  have hnot := hearlier k (by omega)
  simpa [hkslot] using hnot

/-- In a table whose slots all have handles, a search finds the first entry that it looks for, and
its handle resolves to that entry. -/
lemma split_of_find? {t : SlotTable α} {p : α → Bool} {h : Handle}
    (hs : t.slots.length ≤ UInt32.size) (hf : t.find? p = some h) :
    ∃ before value after, t.get? h = some value ∧ p value = true ∧
      (∀ earlier ∈ before, p earlier = false) ∧ t.toList = before ++ value :: after ∧
      ∀ f : α → α, (t.modify h f).toList = before ++ f value :: after := by
  obtain ⟨i, value, rfl, hslot, hp, hearlier⟩ := exists_slot_of_find? hf
  obtain ⟨hi, -⟩ := List.getElem?_eq_some_iff.mp hslot
  have hw := toNat_index_handleAt t (Nat.lt_of_lt_of_le hi hs)
  have hmodify := toList_modify_of_slot (h := t.handleAt i) rfl (hw.symm ▸ hslot)
  rw [hw] at hmodify
  exact ⟨_, value, _, get?_handleAt (Nat.lt_of_lt_of_le hi hs) hslot, hp, hearlier,
    toList_of_slot hslot, hmodify⟩

lemma get?_of_find? {t : SlotTable α} {p : α → Bool} {h : Handle}
    (hs : t.slots.length ≤ UInt32.size) (hf : t.find? p = some h) :
    ∃ value, t.get? h = some value ∧ p value = true := by
  obtain ⟨_, value, _, hget, hp, -⟩ := split_of_find? hs hf
  exact ⟨value, hget, hp⟩

lemma length_slots_insert (t : SlotTable α) (value : α) :
    (t.insert value).2.slots.length = t.slots.length + 1 := by
  simp [insert]

lemma length_slots_modify (t : SlotTable α) (h : Handle) (f : α → α) :
    (t.modify h f).slots.length = t.slots.length := by
  unfold modify
  split <;> simp

/-! ## Handles and slots -/

lemma get?_modify_self (t : SlotTable α) (h : Handle) (f : α → α) :
    (t.modify h f).get? h = (t.get? h).map f := by
  unfold modify get?
  by_cases hg : h.generation = t.generation
  · rw [if_pos hg, if_pos hg]
    simp only [hg, ite_true, List.getElem?_modify_eq]
    cases t.slots[h.index.toNat]? with
    | none => rfl
    | some slot => cases slot <;> rfl
  · rw [if_neg hg, if_neg hg]
    rfl

/-- Where there is a handle left, the new entry has it. -/
lemma get?_insert_self {t : SlotTable α} (hs : t.slots.length < UInt32.size) (value : α) :
    (t.insert value).2.get? (t.insert value).1 = some value := by
  have hslot : (t.insert value).2.slots[t.slots.length]? = some (some value) := by
    simp [insert]
  exact get?_handleAt (t := (t.insert value).2) hs hslot

/-- The entry that a handle leads to is taken out from among the others. -/
lemma split_of_remove {t : SlotTable α} {h : Handle} {value : α} (hv : t.get? h = some value) :
    ∃ before after, t.toList = before ++ value :: after ∧
      (t.remove h).2.toList = before ++ after := by
  obtain ⟨-, hslot⟩ := slot_of_get? hv
  obtain ⟨hi, -⟩ := List.getElem?_eq_some_iff.mp hslot
  refine ⟨_, _, toList_of_slot hslot, ?_⟩
  unfold remove
  rw [hv]
  simp [toList, List.set_eq_take_append_cons_drop, hi]

lemma remove_of_none {t : SlotTable α} {h : Handle} (hn : t.get? h = none) :
    (t.remove h).2 = t := by
  unfold remove
  rw [hn]

lemma toList_remove_sublist (t : SlotTable α) (h : Handle) :
    (t.remove h).2.toList.Sublist t.toList := by
  cases hv : t.get? h with
  | none => rw [remove_of_none hv]
  | some value =>
    obtain ⟨before, after, hl, hl'⟩ := split_of_remove hv
    rw [hl, hl']
    exact (List.sublist_cons_self value after).append_left before

lemma length_slots_remove (t : SlotTable α) (h : Handle) :
    (t.remove h).2.slots.length = t.slots.length := by
  unfold remove
  split
  · exact List.length_set
  · rfl

lemma length_slots_compact_le (t : SlotTable α) : t.compact.slots.length ≤ t.slots.length := by
  unfold compact
  split
  · exact Nat.le_refl _
  · exact List.length_filter_le _ _

/-- In a table whose slots all have handles, each entry is listed with a handle that leads to it. -/
lemma get?_of_mem_entries {t : SlotTable α} (hs : t.slots.length ≤ UInt32.size) {h : Handle}
    {value : α} (hm : (h, value) ∈ t.entries) : t.get? h = some value := by
  obtain ⟨⟨slot, i⟩, hlisted, hentry⟩ := List.mem_filterMap.mp hm
  obtain ⟨rfl, rfl⟩ : slot = some value ∧ t.handleAt i = h := by simpa using hentry
  have hslot : t.slots[i]? = some (some value) := List.mem_zipIdx_iff_getElem?.mp hlisted
  obtain ⟨hi, -⟩ := List.getElem?_eq_some_iff.mp hslot
  exact get?_handleAt (Nat.lt_of_lt_of_le hi hs) hslot

lemma len_eq_length_toList (t : SlotTable α) : t.len = t.toList.length := by
  unfold len toList
  induction t.slots with
  | nil => rfl
  | cons slot slots ih => cases slot <;> simp [ih]

/-- In a table whose slots all have handles, the handle of a listed entry takes out that one. -/
lemma toList_remove_of_entries {t : SlotTable α} (hs : t.slots.length ≤ UInt32.size) {h : Handle}
    {value : α} {before after : List (Handle × α)}
    (hsplit : t.entries = before ++ (h, value) :: after) :
    (t.remove h).2.toList = before.map Prod.snd ++ after.map Prod.snd := by
  obtain ⟨front, back, hslots, rfl, hback⟩ := List.filterMap_eq_append_iff.mp hsplit
  obtain ⟨empty, ⟨slot, i⟩, rest, rfl, hempty, hentry, rfl⟩ := List.filterMap_eq_cons_iff.mp hback
  obtain ⟨rfl, rfl⟩ : slot = some value ∧ t.handleAt i = h := by simpa using hentry
  have hfirst : t.slots = (front ++ empty).map Prod.fst ++ some value :: rest.map Prod.fst := by
    rw [← List.zipIdx_map_fst 0 t.slots, hslots]
    simp
  have hget : (t.slots.zipIdx)[(front ++ empty).length]? = some (some value, i) := by
    rw [hslots, ← List.append_assoc, List.getElem?_append_right (Nat.le_refl _), Nat.sub_self]
    rfl
  obtain ⟨hslot, rfl⟩ :
      t.slots[(front ++ empty).length]? = some (some value) ∧ (front ++ empty).length = i := by
    simpa using hget
  obtain ⟨hi, -⟩ := List.getElem?_eq_some_iff.mp hslot
  have hlength : ((front ++ empty).map Prod.fst).length = (front ++ empty).length :=
    List.length_map _
  have hset : t.slots.set (front ++ empty).length none =
      (front ++ empty).map Prod.fst ++ none :: rest.map Prod.fst := by
    rw [hfirst, ← hlength, List.set_append_right _ _ (Nat.le_refl _), Nat.sub_self,
      List.set_cons_zero]
  rw [remove_handleAt (Nat.lt_of_lt_of_le hi hs) hslot, map_snd_filled, map_snd_filled]
  have hnothing : (empty.map Prod.fst).filterMap id = [] := by
    rw [← map_snd_filled t, List.filterMap_eq_nil_iff.mpr hempty, List.map_nil]
  unfold toList
  rw [hset, List.filterMap_append, List.map_append, List.filterMap_append, hnothing,
    List.append_nil, List.filterMap_cons_none rfl]

/-! ## Cursors -/

/-- There is an entry in the slot. -/
def filledAt (t : SlotTable α) (i : Nat) : Bool :=
  t.slots[i]?.join.isSome

lemma lt_of_filledAt {t : SlotTable α} {i : Nat} (hi : t.filledAt i = true) :
    i < t.slots.length := by
  by_contra hlt
  rw [filledAt, List.getElem?_eq_none (Nat.le_of_not_lt hlt)] at hi
  cases hi

/-- What a cursor does: it stays where it is if slots were reclaimed since it was taken, and else it
moves beyond the first filled slot, or to its end if there is none. -/
inductive NextOf (t : SlotTable α) (c : Cursor) : Option Handle × Cursor → Prop
  | ended (hgeneration : t.generation ≠ c.generation) : NextOf t c (none, c)
  | found (i : Nat) (hgeneration : t.generation = c.generation) (hfrom : c.position ≤ i)
      (hstop : i < c.stop) (hfilled : t.filledAt i = true)
      (hpassed : ∀ j, c.position ≤ j → j < i → t.filledAt j = false) :
      NextOf t c (some (t.handleAt i), { c with position := i + 1 })
  | atEnd (hgeneration : t.generation = c.generation)
      (hpassed : ∀ j, c.position ≤ j → j < c.stop → t.filledAt j = false) :
      NextOf t c (none, { c with position := max c.position c.stop })

lemma nextOf_next (t : SlotTable α) (c : Cursor) : t.NextOf c (t.next c) := by
  unfold next
  split
  · rename_i hgeneration
    split
    · rename_i i hfirst
      obtain ⟨hfilled, hmem, hpassed⟩ := List.find?_range'_eq_some.mp hfirst
      obtain ⟨hfrom, hstop⟩ := List.mem_range'_1.mp hmem
      exact .found i hgeneration hfrom (by omega) hfilled fun j hj hji => by
        simpa [filledAt] using hpassed j hj hji
    · rename_i hnone
      refine .atEnd hgeneration fun j hj hstop => ?_
      simpa [filledAt] using List.find?_range'_eq_none.mp hnone j hj (by omega)
  · rename_i hgeneration
    exact .ended hgeneration

/-- A cursor gives the handle of a filled slot. -/
lemma exists_slot_of_next {t : SlotTable α} {c : Cursor} {h : Handle}
    (hnext : (t.next c).1 = some h) :
    ∃ i value, h = t.handleAt i ∧ t.slots[i]? = some (some value) := by
  have hcase := t.nextOf_next c
  generalize t.next c = answer at hcase hnext
  cases hcase with
  | ended _ => cases hnext
  | found i _ _ _ hfilled _ =>
    obtain ⟨value, hvalue⟩ := Option.isSome_iff_exists.mp hfilled
    exact ⟨i, value, (Option.some.inj hnext).symm, Option.join_eq_some_iff.mp hvalue⟩
  | atEnd _ _ => cases hnext

/-! ## Packed tables -/

/-- No slot is empty. -/
def Packed (t : SlotTable α) : Prop :=
  ∀ slot ∈ t.slots, slot.isSome = true

lemma packed_iff {t : SlotTable α} : t.Packed ↔ none ∉ t.slots := by
  refine ⟨fun h hempty => (nomatch h none hempty), fun hempty slot hslot => ?_⟩
  cases slot with
  | none => exact absurd hslot hempty
  | some value => rfl

lemma packed_compact (t : SlotTable α) : t.compact.Packed := by
  unfold compact Packed
  split
  · rename_i hall
    simpa using hall
  · intro slot hslot
    exact (List.mem_filter.mp hslot).2

lemma packed_retain (t : SlotTable α) (f : α → Option α) : (t.retain f).Packed :=
  packed_compact _

namespace Packed

variable {t : SlotTable α}

lemma insert (h : t.Packed) (value : α) : (t.insert value).2.Packed := by
  intro slot hslot
  rcases List.mem_append.mp hslot with hold | hnew
  · exact h slot hold
  · rw [List.mem_singleton.mp hnew]
    rfl

lemma modify (h : t.Packed) (hd : Handle) (f : α → α) : (t.modify hd f).Packed := by
  unfold SlotTable.modify
  split
  · intro slot hslot
    obtain ⟨i, hi⟩ := List.mem_iff_getElem?.mp hslot
    rw [List.getElem?_modify] at hi
    obtain ⟨old, hold, rfl⟩ := Option.map_eq_some_iff.mp hi
    have hfilled := h old (List.mem_of_getElem? hold)
    split
    · simpa using hfilled
    · simpa using hfilled
  · exact h

lemma length_slots (h : t.Packed) : t.slots.length = t.len :=
  (List.countP_eq_length.mpr h).symm

lemma compact_eq (h : t.Packed) : t.compact = t := by
  unfold compact
  exact if_pos (List.all_eq_true.mpr h)

lemma slots_eq (h : t.Packed) : t.slots = t.toList.map some := by
  unfold Packed at h
  unfold toList
  generalize t.slots = slots at h
  induction slots with
  | nil => rfl
  | cons slot slots ih =>
    obtain ⟨value, rfl⟩ := Option.isSome_iff_exists.mp (h slot List.mem_cons_self)
    have hfilled : id (some value) = some value := rfl
    rw [List.filterMap_cons_some hfilled, List.map_cons,
      ← ih fun other hother => h other (List.mem_cons_of_mem _ hother)]

end Packed

/-- Empty slots are dropped, and their going ends the generation. -/
lemma compact_of_not_packed {t : SlotTable α} (h : ¬t.Packed) :
    t.compact.slots.length < t.slots.length ∧ t.compact.generation = t.generation + 1 := by
  have hnot : ¬t.slots.all Option.isSome = true := fun hall => h (List.all_eq_true.mp hall)
  unfold compact
  rw [if_neg hnot]
  exact ⟨List.length_filter_lt_length_iff_exists.mpr
    ⟨none, by simpa [packed_iff] using h, nofun⟩, rfl⟩

lemma length_slots_compact_lt_iff (t : SlotTable α) :
    t.compact.slots.length < t.slots.length ↔ none ∈ t.slots := by
  by_cases h : t.Packed
  · rw [h.compact_eq]
    exact iff_of_false (Nat.lt_irrefl _) (packed_iff.mp h)
  · exact iff_of_true (compact_of_not_packed h).1 (by simpa [packed_iff] using h)

end SlotTable

end NamedRelay
