import Mathlib.Data.List.Sort
import NamedRelay.Proofs.TableCalls

/-!
# What handles lead to

A ledger follows the entries of a slot table by the order of their insertion and knows nothing of
slots. A handle that is listed for an entry leads to that entry and to no other one, until the entry
is removed or a compaction reclaims slots. With that the slots of a table are never seen from
outside.
-/

namespace NamedRelay

variable {α : Type}

lemma TableCall.countP_isInsert_cons (call : TableCall α) (calls : List (TableCall α)) :
    (call :: calls).countP isInsert = call.isInsert.toNat + calls.countP isInsert := by
  rw [List.countP_cons, Nat.add_comm]
  cases call.isInsert <;> rfl

/-- What has become of the entries of a table. They are numbered in the order of insertion. -/
structure Ledger (α : Type) where
  /-- The value of each entry, and nothing for one that was removed. -/
  values : List (Option α) := []
  /-- How often a compaction has reclaimed slots. -/
  reclaimed : Nat := 0
  /-- An entry was removed since slots were last reclaimed. -/
  littered : Bool := false

namespace Ledger

def value? (l : Ledger α) (number : Nat) : Option α :=
  l.values[number]?.join

/-- The numbers of the entries that were not removed. -/
def present (l : Ledger α) : List Nat :=
  (List.range l.values.length).filter fun number => (l.value? number).isSome

/-- Takes down what the values of the entries are now. -/
def withValues (l : Ledger α) (values : List (Option α)) : Ledger α :=
  { l with
    values
    littered := l.littered || l.present.any fun number => values[number]?.join.isNone }

/-- There is something to reclaim if an entry was removed. -/
def compact (l : Ledger α) : Ledger α :=
  if l.littered then { l with reclaimed := l.reclaimed + 1, littered := false } else l

/-- What a call does to the entries, where `entryOf?` tells which of them a handle leads to. -/
def run (entryOf? : Handle → Option Nat) : TableCall α → Ledger α → Ledger α
  | .insert value, l => l.withValues (l.values ++ [some value])
  | .get _, l => l
  | .modify h change, l =>
    match entryOf? h with
    | some number => l.withValues (l.values.modify number (Option.map change))
    | none => l
  | .remove h, l =>
    match entryOf? h with
    | some number => l.withValues (l.values.set number none)
    | none => l
  | .retain keep, l => (l.withValues (SlotTable.keepInTurn keep [] l.values)).compact
  | .compact, l => l.compact
  | .list, l => l

lemma mem_present (l : Ledger α) (number : Nat) :
    number ∈ l.present ↔ (l.value? number).isSome = true := by
  unfold present
  rw [List.mem_filter, List.mem_range]
  refine ⟨And.right, fun hsome => ⟨?_, hsome⟩⟩
  by_contra hlt
  rw [value?, List.getElem?_eq_none (Nat.le_of_not_lt hlt)] at hsome
  cases hsome

lemma present_ascending (l : Ledger α) : l.present.Pairwise (· < ·) :=
  List.pairwise_lt_range.filter _

/-- Ascending numbers give the same values if they are those of the same entries. -/
lemma filterMap_value?_congr (l : Ledger α) {numbers others : List Nat}
    (hnumbers : numbers.Pairwise (· < ·)) (hothers : others.Pairwise (· < ·))
    (hsame : ∀ number, (l.value? number).isSome = true → (number ∈ numbers ↔ number ∈ others)) :
    numbers.filterMap l.value? = others.filterMap l.value? := by
  have hleft : ∀ numbers : List Nat, numbers.filterMap l.value? =
      (numbers.filter fun number => (l.value? number).isSome).filterMap l.value? := by
    intro numbers
    rw [List.filterMap_filter]
    congr 1
    funext number
    cases l.value? number <;> rfl
  rw [hleft numbers, hleft others]
  congr 1
  apply (hnumbers.filter _).eq_of_mem_iff (hothers.filter _)
  intro number
  simp only [List.mem_filter]
  exact and_congr_left (hsame number)

lemma values_eq (l : Ledger α) : l.values = (List.range l.values.length).map l.value? := by
  apply List.ext_getElem?
  intro number
  rw [List.getElem?_map]
  by_cases hlt : number < l.values.length
  · rw [List.getElem?_range hlt, List.getElem?_eq_getElem hlt]
    simp [value?, hlt]
  · rw [List.getElem?_eq_none (Nat.le_of_not_lt hlt),
      List.getElem?_eq_none (by simpa using Nat.le_of_not_lt hlt)]
    rfl

lemma value?_insert (l : Ledger α) (value : α) (number : Nat) :
    (l.withValues (l.values ++ [some value])).value? number =
      if number = l.values.length then some value else l.value? number := by
  unfold value? withValues
  split
  · rename_i hlast
    subst hlast
    simp
  · rename_i hnot
    rcases Nat.lt_or_gt_of_ne hnot with hlt | hgt
    · rw [List.getElem?_append_left hlt]
    · rw [List.getElem?_eq_none (Nat.le_of_lt hgt),
        List.getElem?_eq_none (by rw [List.length_append]; exact hgt)]

lemma value?_set (l : Ledger α) {number : Nat} (hnumber : number < l.values.length)
    (slot : Option α) (other : Nat) : (l.values.set number slot)[other]?.join =
      if number = other then slot else l.value? other := by
  by_cases hsame : number = other
  · subst hsame
    rw [List.getElem?_set_self hnumber, if_pos rfl]
    rfl
  · rw [List.getElem?_set_ne hsame, if_neg hsame]
    rfl

/-- An insertion takes no entry away. -/
lemma littered_insert (l : Ledger α) (value : α) :
    (l.withValues (l.values ++ [some value])).littered = l.littered := by
  have hkept : (l.present.any fun number =>
      (l.values ++ [some value])[number]?.join.isNone) = false := by
    rw [List.any_eq_false]
    intro number hnumber
    have hsome := (l.mem_present number).mp hnumber
    have hlt := List.mem_range.mp (List.mem_filter.mp hnumber).1
    rw [List.getElem?_append_left hlt]
    simpa [value?, Option.isSome_iff_ne_none] using hsome
  unfold withValues
  rw [hkept, Bool.or_false]

lemma length_values_compact (l : Ledger α) : l.compact.values.length = l.values.length := by
  unfold compact
  split <;> rfl

lemma length_values_run (entryOf? : Handle → Option Nat) (call : TableCall α) (l : Ledger α) :
    (l.run entryOf? call).values.length = l.values.length + call.isInsert.toNat := by
  cases call with
  | insert value => exact List.length_append
  | get _ => rfl
  | modify h change =>
    unfold run
    dsimp only
    split
    · exact List.length_modify _ _ _
    · rfl
  | remove h =>
    unfold run
    dsimp only
    split
    · exact List.length_set
    · rfl
  | retain keep =>
    exact (length_values_compact _).trans (SlotTable.length_keepInTurn keep [] l.values)
  | compact => exact length_values_compact l
  | list => rfl

end Ledger

/-- A slot table, and what has become of its entries. -/
structure Session (α : Type) where
  table : SlotTable α := {}
  ledger : Ledger α := {}

namespace Session

/-- The entry that a handle is listed for. The entries are listed in the order of insertion. -/
def entryOf? (s : Session α) (h : Handle) : Option Nat :=
  (s.table.handles.zip s.ledger.present).lookup h

def run (s : Session α) (call : TableCall α) : Session α :=
  ⟨call.run s.table, s.ledger.run s.entryOf? call⟩

def runAll (s : Session α) (calls : List (TableCall α)) : Session α :=
  calls.foldl run s

lemma reclaimed_modify (s : Session α) (hd : Handle) (change : α → α) :
    (s.run (.modify hd change)).ledger.reclaimed = s.ledger.reclaimed := by
  unfold Session.run Ledger.run
  dsimp only
  split <;> rfl

lemma reclaimed_remove (s : Session α) (hd : Handle) :
    (s.run (.remove hd)).ledger.reclaimed = s.ledger.reclaimed := by
  unfold Session.run Ledger.run
  dsimp only
  split <;> rfl

/-- The slots that are filled, each with the number of its entry and its place. -/
def filled (s : Session α) (numbers : List Nat) : List (Nat × Nat) :=
  numbers.zipIdx.filter fun slot => (s.ledger.value? slot.1).isSome

lemma mem_filled {s : Session α} {numbers : List Nat} {number i : Nat} :
    (number, i) ∈ s.filled numbers ↔
      numbers[i]? = some number ∧ (s.ledger.value? number).isSome = true := by
  unfold filled
  rw [List.mem_filter, List.mem_zipIdx_iff_getElem?]

/-- The slots belong to the entries of these numbers, and entries that have no slot are gone. -/
structure Sound (s : Session α) (numbers : List Nat) : Prop where
  slots : s.table.slots = numbers.map s.ledger.value?
  ascending : numbers.Pairwise (· < ·)
  below : ∀ number ∈ numbers, number < s.ledger.values.length
  covers : ∀ number, (s.ledger.value? number).isSome = true → number ∈ numbers
  littered : s.ledger.littered = true ↔ none ∈ s.table.slots
  generation : s.table.generation = UInt32.ofNat s.ledger.reclaimed

namespace Sound

variable {s : Session α} {numbers : List Nat}

lemma length_slots (h : s.Sound numbers) : s.table.slots.length = numbers.length := by
  rw [h.slots, List.length_map]

lemma length_le (h : s.Sound numbers) : numbers.length ≤ s.ledger.values.length := by
  have hsub : numbers.Subset (List.range s.ledger.values.length) :=
    fun number hnumber => List.mem_range.mpr (h.below number hnumber)
  have hnodup : numbers.Nodup := h.ascending.imp Nat.ne_of_lt
  simpa using (List.subperm_of_subset hnodup hsub).length_le

lemma slot_eq (h : s.Sound numbers) {i number : Nat} (hi : numbers[i]? = some number) :
    s.table.slots[i]? = some (s.ledger.value? number) := by
  rw [h.slots, List.getElem?_map, hi]
  rfl

lemma index_lt (h : s.Sound numbers) (hsize : s.ledger.values.length ≤ UInt32.size) {i number : Nat}
    (hi : numbers[i]? = some number) : i < UInt32.size :=
  Nat.lt_of_lt_of_le (List.getElem?_eq_some_iff.mp hi).1 (Nat.le_trans h.length_le hsize)

/-! ## What is listed -/

lemma toList_eq (h : s.Sound numbers) : s.table.toList = s.ledger.values.filterMap id := by
  unfold SlotTable.toList
  rw [h.slots, s.ledger.values_eq, List.filterMap_map, List.filterMap_map]
  apply s.ledger.filterMap_value?_congr h.ascending List.pairwise_lt_range
  intro number hsome
  have hmem := h.covers number hsome
  exact iff_of_true hmem (List.mem_range.mpr (h.below number hmem))

lemma handles_eq (h : s.Sound numbers) :
    s.table.handles = (s.filled numbers).map fun slot => s.table.handleAt slot.2 := by
  rw [SlotTable.handles_eq, h.slots, List.zipIdx_map, List.filter_map, List.map_map]
  rfl

lemma present_eq (h : s.Sound numbers) :
    s.ledger.present = (s.filled numbers).map Prod.fst := by
  have hfilter : (s.filled numbers).map Prod.fst =
      numbers.filter fun number => (s.ledger.value? number).isSome := by
    conv_rhs => rw [← List.zipIdx_map_fst 0 numbers, List.filter_map]
    rfl
  rw [hfilter]
  apply s.ledger.present_ascending.eq_of_mem_iff (h.ascending.filter _)
  intro number
  rw [Ledger.mem_present, List.mem_filter]
  exact ⟨fun hsome => ⟨h.covers number hsome, hsome⟩, And.right⟩

lemma mem_listed_iff (h : s.Sound numbers) (hd : Handle) (number : Nat) :
    (hd, number) ∈ s.table.handles.zip s.ledger.present ↔
      ∃ i, numbers[i]? = some number ∧ (s.ledger.value? number).isSome = true ∧
        hd = s.table.handleAt i := by
  rw [h.handles_eq, h.present_eq, List.zip_map', List.mem_map]
  constructor
  · rintro ⟨⟨other, i⟩, hslot, heq⟩
    obtain ⟨rfl, rfl⟩ : s.table.handleAt i = hd ∧ other = number := by simpa using heq
    obtain ⟨hi, hsome⟩ := mem_filled.mp hslot
    exact ⟨i, hi, hsome, rfl⟩
  · rintro ⟨i, hi, hsome, rfl⟩
    exact ⟨(number, i), mem_filled.mpr ⟨hi, hsome⟩, rfl⟩

/-- No handle is listed for two entries. -/
lemma listed_unique (h : s.Sound numbers) (hsize : s.ledger.values.length ≤ UInt32.size)
    {hd : Handle} {number other : Nat}
    (hnumber : (hd, number) ∈ s.table.handles.zip s.ledger.present)
    (hother : (hd, other) ∈ s.table.handles.zip s.ledger.present) : number = other := by
  obtain ⟨i, hi, -, rfl⟩ := (h.mem_listed_iff hd number).mp hnumber
  obtain ⟨j, hj, -, hsame⟩ := (h.mem_listed_iff _ other).mp hother
  have hij := congrArg (fun hd : Handle => hd.index.toNat) hsame
  rw [s.table.toNat_index_handleAt (h.index_lt hsize hi),
    s.table.toNat_index_handleAt (h.index_lt hsize hj)] at hij
  rw [← hij, hi] at hj
  exact Option.some.inj hj

lemma entryOf?_eq_some_iff (h : s.Sound numbers) (hsize : s.ledger.values.length ≤ UInt32.size)
    (hd : Handle) (number : Nat) :
    s.entryOf? hd = some number ↔ ∃ i, numbers[i]? = some number ∧
      (s.ledger.value? number).isSome = true ∧ hd = s.table.handleAt i := by
  have hmem : ∀ other, s.entryOf? hd = some other →
      (hd, other) ∈ s.table.handles.zip s.ledger.present := by
    intro other hlookup
    obtain ⟨before, after, hsplit, -⟩ := List.lookup_eq_some_iff.mp hlookup
    rw [hsplit]
    simp
  rw [← h.mem_listed_iff]
  refine ⟨hmem number, fun hlisted => ?_⟩
  cases hlookup : s.entryOf? hd with
  | none => simpa using List.lookup_eq_none_iff.mp hlookup _ hlisted
  | some other => rw [h.listed_unique hsize (hmem other hlookup) hlisted]

lemma exists_slot (h : s.Sound numbers) (hsize : s.ledger.values.length ≤ UInt32.size)
    {hd : Handle} {number : Nat} (hentry : s.entryOf? hd = some number) :
    ∃ i value, numbers[i]? = some number ∧ s.ledger.value? number = some value ∧
      hd = s.table.handleAt i ∧ i < UInt32.size ∧ s.table.slots[i]? = some (some value) := by
  obtain ⟨i, hi, hsome, rfl⟩ := (h.entryOf?_eq_some_iff hsize hd number).mp hentry
  obtain ⟨value, hvalue⟩ := Option.isSome_iff_exists.mp hsome
  have hslot := h.slot_eq hi
  rw [hvalue] at hslot
  exact ⟨i, value, hi, hvalue, rfl, h.index_lt hsize hi, hslot⟩

lemma exists_entry (h : s.Sound numbers) (hsize : s.ledger.values.length ≤ UInt32.size) {i : Nat}
    {value : α} (hslot : s.table.slots[i]? = some (some value)) :
    ∃ number, s.entryOf? (s.table.handleAt i) = some number := by
  rw [h.slots, List.getElem?_map] at hslot
  obtain ⟨number, hi, hvalue⟩ := Option.map_eq_some_iff.mp hslot
  exact ⟨number, (h.entryOf?_eq_some_iff hsize _ number).mpr ⟨i, hi, by rw [hvalue]; rfl, rfl⟩⟩

lemma get?_eq (h : s.Sound numbers) (hsize : s.ledger.values.length ≤ UInt32.size) (hd : Handle) :
    s.table.get? hd = (s.entryOf? hd).bind s.ledger.value? := by
  cases hentry : s.entryOf? hd with
  | some number =>
    obtain ⟨i, value, -, hvalue, rfl, hlt, hslot⟩ := h.exists_slot hsize hentry
    rw [Option.bind_some, hvalue]
    exact SlotTable.get?_handleAt hlt hslot
  | none =>
    rw [Option.bind_none, Option.eq_none_iff_forall_ne_some]
    intro value hvalue
    obtain ⟨hgeneration, hslot⟩ := SlotTable.slot_of_get? hvalue
    have hself : hd = s.table.handleAt hd.index.toNat := by
      unfold SlotTable.handleAt
      rw [UInt32.ofNat_toNat, ← hgeneration]
    obtain ⟨number, hfound⟩ := h.exists_entry hsize hslot
    rw [← hself, hentry] at hfound
    cases hfound

lemma get?_eq_none_iff (h : s.Sound numbers) (hsize : s.ledger.values.length ≤ UInt32.size)
    (hd : Handle) : s.table.get? hd = none ↔ s.entryOf? hd = none := by
  rw [h.get?_eq hsize]
  cases hentry : s.entryOf? hd with
  | none => exact iff_of_true rfl rfl
  | some number =>
    obtain ⟨_, value, -, hvalue, -⟩ := h.exists_slot hsize hentry
    rw [Option.bind_some, hvalue]
    exact iff_of_false nofun nofun

/-! ## One call -/

/-- Entries change and go, and their slots with them. -/
lemma withValues (h : s.Sound numbers) {values slots : List (Option α)}
    (hlength : values.length = s.ledger.values.length)
    (hslots : slots = numbers.map fun number => values[number]?.join)
    (hgone : ∀ number, values[number]?.join.isSome = true →
      (s.ledger.value? number).isSome = true) :
    Sound ⟨{ s.table with slots }, s.ledger.withValues values⟩ numbers where
  slots := hslots
  ascending := h.ascending
  below number hnumber := hlength ▸ h.below number hnumber
  covers number hsome := h.covers number (hgone number hsome)
  littered := by
    have hempty : none ∈ slots ↔ ∃ number ∈ numbers, values[number]?.join = none := by
      rw [hslots, List.mem_map]
    have hold : none ∈ s.table.slots ↔ ∃ number ∈ numbers, s.ledger.value? number = none := by
      rw [h.slots, List.mem_map]
    simp only [Ledger.withValues, Bool.or_eq_true, List.any_eq_true, Option.isNone_iff_eq_none,
      h.littered, Ledger.mem_present]
    rw [hempty, hold]
    constructor
    · rintro (⟨number, hnumber, hnone⟩ | ⟨number, hsome, hnone⟩)
      · refine ⟨number, hnumber, ?_⟩
        by_contra hleft
        have hthere := hgone number (Option.isSome_iff_ne_none.mpr hleft)
        rw [hnone] at hthere
        cases hthere
      · exact ⟨number, h.covers number hsome, hnone⟩
    · rintro ⟨number, hnumber, hnone⟩
      cases hthere : s.ledger.value? number with
      | none => exact .inl ⟨number, hnumber, hthere⟩
      | some value => exact .inr ⟨number, by rw [hthere]; rfl, hnone⟩
  generation := h.generation

/-- The value of one entry changes, and so does what is in its slot. -/
lemma set (h : s.Sound numbers) {i number : Nat} (hi : numbers[i]? = some number)
    (hsome : (s.ledger.value? number).isSome = true) (slot : Option α) :
    Sound ⟨{ s.table with slots := s.table.slots.set i slot },
      s.ledger.withValues (s.ledger.values.set number slot)⟩ numbers := by
  have hnumber := List.mem_of_getElem? hi
  have hvalue := s.ledger.value?_set (h.below number hnumber) slot
  apply h.withValues List.length_set
  · rw [h.slots]
    apply List.ext_getElem?
    intro j
    rw [List.getElem?_set, List.getElem?_map, List.getElem?_map]
    obtain ⟨hlt, hget⟩ := List.getElem?_eq_some_iff.mp hi
    by_cases hij : i = j
    · subst hij
      rw [if_pos rfl, hi, Option.map_some, hvalue, if_pos rfl, List.length_map, if_pos hlt]
    · rw [if_neg hij]
      cases hj : numbers[j]? with
      | none => rfl
      | some other =>
        have hne : number ≠ other := by
          rintro rfl
          have hnodup : numbers.Nodup := h.ascending.imp Nat.ne_of_lt
          exact hij ((List.getElem?_inj hlt hnodup).mp (hi.trans hj.symm))
        rw [Option.map_some, Option.map_some, hvalue, if_neg hne]
  · intro other hleft
    rw [hvalue] at hleft
    split at hleft
    · rename_i hsame
      exact hsame ▸ hsome
    · exact hleft

lemma modify (h : s.Sound numbers) (hsize : s.ledger.values.length ≤ UInt32.size) (hd : Handle)
    (change : α → α) : (s.run (.modify hd change)).Sound numbers := by
  unfold Session.run TableCall.run Ledger.run
  dsimp only
  cases hentry : s.entryOf? hd with
  | none =>
    rw [SlotTable.modify_of_none ((h.get?_eq_none_iff hsize hd).mpr hentry)]
    exact h
  | some number =>
    obtain ⟨i, value, hi, hvalue, rfl, hlt, hslot⟩ := h.exists_slot hsize hentry
    have hset : s.ledger.values.modify number (Option.map change) =
        s.ledger.values.set number (some (change value)) := by
      rw [List.modify_eq_set_getElem?, Option.join_eq_some_iff.mp hvalue]
      rfl
    dsimp only
    rw [SlotTable.modify_handleAt hlt hslot, hset]
    exact h.set hi (by rw [hvalue]; rfl) _

lemma remove (h : s.Sound numbers) (hsize : s.ledger.values.length ≤ UInt32.size) (hd : Handle) :
    (s.run (.remove hd)).Sound numbers := by
  unfold Session.run TableCall.run Ledger.run
  dsimp only
  cases hentry : s.entryOf? hd with
  | none =>
    rw [SlotTable.remove_of_none ((h.get?_eq_none_iff hsize hd).mpr hentry)]
    exact h
  | some number =>
    obtain ⟨i, value, hi, hvalue, rfl, hlt, hslot⟩ := h.exists_slot hsize hentry
    dsimp only
    rw [SlotTable.remove_handleAt hlt hslot]
    exact h.set hi (by rw [hvalue]; rfl) none

/-- A new entry has the next number, and a slot behind the others. -/
lemma insert (h : s.Sound numbers) (value : α) :
    (s.run (.insert value)).Sound (numbers ++ [s.ledger.values.length]) := by
  have hvalue := s.ledger.value?_insert value
  have hold : ∀ number ∈ numbers,
      (s.ledger.withValues (s.ledger.values ++ [some value])).value? number =
        s.ledger.value? number := by
    intro number hnumber
    rw [hvalue, if_neg (Nat.ne_of_lt (h.below number hnumber))]
  refine ⟨?_, ?_, ?_, ?_, ?_, h.generation⟩
  · change s.table.slots ++ [some value] =
      (numbers ++ [s.ledger.values.length]).map (s.ledger.withValues _).value?
    rw [h.slots, List.map_append, List.map_congr_left hold, List.map_singleton, hvalue, if_pos rfl]
  · exact List.pairwise_append.mpr ⟨h.ascending, List.pairwise_singleton _ _,
      fun number hnumber last hlast => List.mem_singleton.mp hlast ▸ h.below number hnumber⟩
  · intro number hnumber
    change number < (s.ledger.values ++ [some value]).length
    rw [List.length_append, List.length_singleton]
    rcases List.mem_append.mp hnumber with hnumber | hnumber
    · exact Nat.lt_succ_of_lt (h.below number hnumber)
    · rw [List.mem_singleton.mp hnumber]
      exact Nat.lt_succ_self _
  · intro number hsome
    change ((s.ledger.withValues _).value? number).isSome = true at hsome
    rw [hvalue] at hsome
    rw [List.mem_append, List.mem_singleton]
    split at hsome
    · rename_i hlast
      exact .inr hlast
    · exact .inl (h.covers number hsome)
  · change (s.ledger.withValues _).littered = true ↔ none ∈ s.table.slots ++ [some value]
    rw [s.ledger.littered_insert value, h.littered]
    simp

lemma packed (h : s.Sound numbers) (hlittered : s.ledger.littered = false) : s.table.Packed := by
  rw [SlotTable.packed_iff, ← h.littered, hlittered]
  exact Bool.false_ne_true

/-- Entries that are left keep their numbers when the slots of the others are dropped. -/
lemma compact (h : s.Sound numbers) :
    ∃ kept, Sound ⟨s.table.compact, s.ledger.compact⟩ kept ∧
      (s.ledger.littered = false → kept = numbers) := by
  cases hlittered : s.ledger.littered with
  | false =>
    refine ⟨numbers, ?_, fun _ => rfl⟩
    unfold Ledger.compact
    rw [(h.packed hlittered).compact_eq, hlittered, if_neg Bool.false_ne_true]
    exact h
  | true =>
    refine ⟨numbers.filter fun number => (s.ledger.value? number).isSome, ?_, nofun⟩
    have hempty := h.littered.mp hlittered
    have hnot : ¬s.table.slots.all Option.isSome = true :=
      fun hall => by simpa using List.all_eq_true.mp hall none hempty
    unfold SlotTable.compact Ledger.compact
    rw [if_neg hnot, hlittered, if_pos rfl]
    refine ⟨?_, h.ascending.filter _, ?_, ?_, ?_, ?_⟩
    · change s.table.slots.filter Option.isSome = _
      rw [h.slots, List.filter_map]
      rfl
    · exact fun number hnumber => h.below number (List.mem_of_mem_filter hnumber)
    · exact fun number hsome => List.mem_filter.mpr ⟨h.covers number hsome, hsome⟩
    · simp
    · change s.table.generation + 1 = UInt32.ofNat (s.ledger.reclaimed + 1)
      rw [h.generation, UInt32.ofNat_add]
      rfl

/-- Up to its slot and up to its number the same entries come before an entry. -/
lemma filterMap_take (h : s.Sound numbers) {i number : Nat} (hi : numbers[i]? = some number) :
    (s.table.slots.take i).filterMap id = (s.ledger.values.take number).filterMap id := by
  obtain ⟨hlt, hget⟩ := List.getElem?_eq_some_iff.mp hi
  have hbelow := h.below number (List.mem_of_getElem? hi)
  rw [h.slots, s.ledger.values_eq, ← List.map_take, ← List.map_take, List.take_range,
    Nat.min_eq_left (Nat.le_of_lt hbelow), List.filterMap_map, List.filterMap_map]
  apply s.ledger.filterMap_value?_congr (h.ascending.take) List.pairwise_lt_range
  intro other hsome
  rw [List.mem_range]
  constructor
  · intro hother
    obtain ⟨j, hj, rfl⟩ := List.mem_iff_getElem.mp hother
    rw [List.length_take] at hj
    rw [List.getElem_take, ← hget]
    exact List.pairwise_iff_getElem.mp h.ascending j i (by omega) hlt (by omega)
  · intro hbefore
    obtain ⟨j, hj, rfl⟩ := List.mem_iff_getElem.mp (h.covers other hsome)
    have hji : j < i := by
      by_contra hnot
      rcases Nat.lt_or_eq_of_le (Nat.le_of_not_lt hnot) with hij | rfl
      · have hafter := List.pairwise_iff_getElem.mp h.ascending i j hlt hj hij
        omega
      · omega
    exact List.mem_iff_getElem.mpr ⟨j, by rw [List.length_take]; omega, List.getElem_take⟩

lemma keepInTurn (h : s.Sound numbers) (keep : List α → α → Option α) :
    Sound ⟨{ s.table with slots := SlotTable.keepInTurn keep [] s.table.slots },
      s.ledger.withValues (SlotTable.keepInTurn keep [] s.ledger.values)⟩ numbers := by
  have hvalue : ∀ number, (SlotTable.keepInTurn keep [] s.ledger.values)[number]?.join =
      (s.ledger.value? number).bind (keep ((s.ledger.values.take number).filterMap id)) := by
    intro number
    rw [SlotTable.getElem?_keepInTurn]
    unfold Ledger.value?
    cases s.ledger.values[number]? <;> rfl
  apply h.withValues (SlotTable.length_keepInTurn keep [] s.ledger.values)
  · apply List.ext_getElem?
    intro i
    rw [SlotTable.getElem?_keepInTurn, List.getElem?_map]
    cases hi : numbers[i]? with
    | none =>
      rw [h.slots, List.getElem?_map, hi]
      rfl
    | some number =>
      rw [h.slot_eq hi, h.filterMap_take hi, Option.map_some, Option.map_some, hvalue]
      rfl
  · intro number hleft
    rw [hvalue] at hleft
    exact Option.isSome_of_isSome_bind hleft

end Sound

/-- A session goes on to another one, and slots are reclaimed that often on the way. As long as they
are not, the slots that there are keep their entries. -/
structure GoesOn (s : Session α) (numbers : List Nat) (s' : Session α) (numbers' : List Nat)
    (reclaims : Nat) : Prop where
  sound : s'.Sound numbers'
  reclaimed : s'.ledger.reclaimed = s.ledger.reclaimed + reclaims
  grows : reclaims = 0 → numbers <+: numbers'

namespace GoesOn

variable {s m s' : Session α} {numbers between numbers' : List Nat} {first second : Nat}

lemma refl (h : s.Sound numbers) : GoesOn s numbers s numbers 0 :=
  ⟨h, rfl, fun _ => List.prefix_rfl⟩

lemma trans (h : GoesOn s numbers m between first) (h' : GoesOn m between s' numbers' second) :
    GoesOn s numbers s' numbers' (first + second) where
  sound := h'.sound
  reclaimed := by rw [h'.reclaimed, h.reclaimed, Nat.add_assoc]
  grows hnone := (h.grows (Nat.eq_zero_of_add_eq_zero_right hnone)).trans
    (h'.grows (Nat.eq_zero_of_add_eq_zero_left hnone))

end GoesOn

namespace Sound

variable {s : Session α} {numbers : List Nat}

/-- A compaction reclaims slots if entries were removed, and only then. -/
lemma goesOn_compact (h : s.Sound numbers) :
    ∃ kept, GoesOn s numbers ⟨s.table.compact, s.ledger.compact⟩ kept
      (TableCall.compact.reclaims s.table).toNat := by
  obtain ⟨kept, hsound, hkept⟩ := h.compact
  have hreclaims : TableCall.compact.reclaims s.table = s.ledger.littered := by
    rw [Bool.eq_iff_iff, h.littered, ← SlotTable.length_slots_compact_lt_iff]
    exact decide_eq_true_iff
  rw [hreclaims]
  refine ⟨kept, hsound, ?_, ?_⟩
  · unfold Ledger.compact
    cases s.ledger.littered <;> rfl
  · intro hnone
    obtain rfl : kept = numbers := hkept (by simpa using hnone)
    exact List.prefix_rfl

/-- A call that reclaims no slots. -/
lemma goesOn_of_length_le {s' : Session α} {numbers' : List Nat} {call : TableCall α}
    (hsound : s'.Sound numbers') (hreclaimed : s'.ledger.reclaimed = s.ledger.reclaimed)
    (hgrows : numbers <+: numbers')
    (hlength : s.table.slots.length ≤ (call.run s.table).slots.length) :
    GoesOn s numbers s' numbers' (call.reclaims s.table).toNat := by
  have hnone : call.reclaims s.table = false := decide_eq_false (Nat.not_lt_of_le hlength)
  rw [hnone]
  exact ⟨hsound, hreclaimed, fun _ => hgrows⟩

lemma run (h : s.Sound numbers) (hsize : s.ledger.values.length ≤ UInt32.size)
    (call : TableCall α) :
    ∃ numbers', GoesOn s numbers (s.run call) numbers' (call.reclaims s.table).toNat := by
  cases call with
  | insert value =>
    exact ⟨_, goesOn_of_length_le (h.insert value) rfl (List.prefix_append _ _)
      (Nat.le_of_lt (by simp [TableCall.run, SlotTable.length_slots_insert]))⟩
  | get _ => exact ⟨_, goesOn_of_length_le h rfl List.prefix_rfl (Nat.le_refl _)⟩
  | modify hd change =>
    exact ⟨_, goesOn_of_length_le (h.modify hsize hd change) (s.reclaimed_modify hd change)
      List.prefix_rfl (Nat.le_of_eq (s.table.length_slots_modify hd change).symm)⟩
  | remove hd =>
    exact ⟨_, goesOn_of_length_le (h.remove hsize hd) (s.reclaimed_remove hd)
      List.prefix_rfl (Nat.le_of_eq (s.table.length_slots_remove hd).symm)⟩
  | retain keep =>
    -- The entries go first, and their slots are reclaimed with those that were empty before.
    obtain ⟨kept, hgoes⟩ := (h.keepInTurn keep).goesOn_compact
    have hlength := SlotTable.length_keepInTurn keep [] s.table.slots
    refine ⟨kept, hgoes.sound, ?_, ?_⟩
    · have hreclaimed := hgoes.reclaimed
      unfold TableCall.reclaims at hreclaimed ⊢
      rw [← hlength]
      exact hreclaimed
    · intro hnone
      refine hgoes.grows ?_
      unfold TableCall.reclaims at hnone ⊢
      rw [← hlength] at hnone
      exact hnone
  | compact => exact h.goesOn_compact
  | list => exact ⟨_, goesOn_of_length_le h rfl List.prefix_rfl (Nat.le_refl _)⟩

lemma runAll (h : s.Sound numbers) (calls : List (TableCall α))
    (hroom : s.ledger.values.length + calls.countP TableCall.isInsert ≤ UInt32.size) :
    ∃ numbers', GoesOn s numbers (s.runAll calls) numbers'
      (TableCall.countReclaims calls s.table) := by
  induction calls generalizing s numbers with
  | nil => exact ⟨numbers, GoesOn.refl h⟩
  | cons call calls ih =>
    have hlength := s.ledger.length_values_run s.entryOf? call
    rw [TableCall.countP_isInsert_cons] at hroom
    obtain ⟨between, hfirst⟩ := h.run (by omega) call
    obtain ⟨numbers', hothers⟩ := ih hfirst.sound (by
      change (s.ledger.run s.entryOf? call).values.length + _ ≤ _
      omega)
    exact ⟨numbers', hfirst.trans hothers⟩

end Sound

lemma sound_empty : ({} : Session α).Sound [] where
  slots := rfl
  ascending := .nil
  below := nofun
  covers number hsome := by cases hsome
  littered := iff_of_false nofun nofun
  generation := rfl

lemma length_values_runAll (s : Session α) (calls : List (TableCall α)) :
    (s.runAll calls).ledger.values.length =
      s.ledger.values.length + calls.countP TableCall.isInsert := by
  induction calls generalizing s with
  | nil => rfl
  | cons call calls ih =>
    calc ((s.run call).runAll calls).ledger.values.length
        = (s.ledger.run s.entryOf? call).values.length + calls.countP TableCall.isInsert :=
          ih (s.run call)
      _ = s.ledger.values.length + (call :: calls).countP TableCall.isInsert := by
          rw [s.ledger.length_values_run, TableCall.countP_isInsert_cons, Nat.add_assoc]

lemma table_runAll (s : Session α) (calls : List (TableCall α)) :
    (s.runAll calls).table = TableCall.runAll calls s.table := by
  induction calls generalizing s with
  | nil => rfl
  | cons call calls ih => exact ih (s.run call)

lemma runAll_append (s : Session α) (calls others : List (TableCall α)) :
    s.runAll (calls ++ others) = (s.runAll calls).runAll others :=
  List.foldl_append

/-- What the handles that were given out earlier lead to now. -/
structure KeepsHandles (earlier now : Session α) : Prop where
  listed : now.table.entries.map Prod.snd = now.ledger.values.filterMap id
  handles : now.table.handles.map now.entryOf? = now.ledger.present.map some
  inserted : ∀ value, (now.run (.insert value)).entryOf? (now.table.insert value).1 =
    some now.ledger.values.length
  walked : ∀ c hd, (now.table.next c).1 = some hd → ∃ number, now.entryOf? hd = some number
  resolves : ∀ hd number, earlier.entryOf? hd = some number →
    now.table.get? hd =
      if now.ledger.reclaimed = earlier.ledger.reclaimed then now.ledger.value? number else none
  keeps : ∀ hd number, earlier.entryOf? hd = some number →
    now.entryOf? hd = if now.ledger.reclaimed = earlier.ledger.reclaimed ∧
      (now.ledger.value? number).isSome = true then some number else none
  removes : ∀ hd number, now.entryOf? hd = some number →
    (now.table.remove hd).1 = now.ledger.value? number
  ignores : ∀ hd, now.entryOf? hd = none → now.table.get? hd = none ∧
    (∀ change, now.table.modify hd change = now.table) ∧ now.table.remove hd = (none, now.table)
  reclaims : now.ledger.littered = true ↔
    now.table.compact.slots.length < now.table.slots.length
  spares : now.ledger.littered = false → now.table.compact = now.table
  retains : ∀ f, (TableCall.retain fun _ => f).run now.table = now.table.retain f

namespace GoesOn

variable {earlier now : Session α} {numbers numbers' : List Nat} {reclaims : Nat}

/-- As long as no slots are reclaimed, a handle stands for the slot it was given out for. -/
lemma slot_kept (h : GoesOn earlier numbers now numbers' reclaims)
    (hearlier : earlier.Sound numbers)
    (hsame : now.ledger.reclaimed = earlier.ledger.reclaimed) {i number : Nat}
    (hi : numbers[i]? = some number) :
    numbers'[i]? = some number ∧ earlier.table.handleAt i = now.table.handleAt i := by
  have hnone : reclaims = 0 := by
    have hreclaimed := h.reclaimed
    omega
  obtain ⟨others, rfl⟩ := h.grows hnone
  obtain ⟨hlt, -⟩ := List.getElem?_eq_some_iff.mp hi
  refine ⟨(List.getElem?_append_left hlt).trans hi, ?_⟩
  unfold SlotTable.handleAt
  rw [hearlier.generation, h.sound.generation, hsame]

/-- Once slots have been reclaimed, the handles given out before lead nowhere. -/
lemma get?_of_reclaimed (h : GoesOn earlier numbers now numbers' reclaims)
    (hearlier : earlier.Sound numbers) (hreclaimed : now.ledger.reclaimed < UInt32.size)
    (hne : now.ledger.reclaimed ≠ earlier.ledger.reclaimed) (i : Nat) :
    now.table.get? (earlier.table.handleAt i) = none := by
  have hle := h.reclaimed
  have hgeneration : earlier.table.generation ≠ now.table.generation := by
    rw [hearlier.generation, h.sound.generation]
    intro hsame
    have hnat := congrArg UInt32.toNat hsame
    rw [UInt32.toNat_ofNat_of_lt' (by omega), UInt32.toNat_ofNat_of_lt' hreclaimed] at hnat
    exact hne hnat.symm
  unfold SlotTable.get?
  exact if_neg hgeneration

variable (h : GoesOn earlier numbers now numbers' reclaims) (hearlier : earlier.Sound numbers)
  (hsize : now.ledger.values.length < UInt32.size)
  (hle : earlier.ledger.values.length ≤ now.ledger.values.length)
  (hreclaimed : now.ledger.reclaimed < UInt32.size)

include h hearlier hsize hle hreclaimed

lemma get?_of_entryOf? {hd : Handle} {number : Nat} (hentry : earlier.entryOf? hd = some number) :
    now.table.get? hd =
      if now.ledger.reclaimed = earlier.ledger.reclaimed then now.ledger.value? number
      else none := by
  have hroom := Nat.le_trans hle (Nat.le_of_lt hsize)
  obtain ⟨i, _, hi, -, rfl, hlt, -⟩ := hearlier.exists_slot hroom hentry
  split
  · rename_i hsame
    obtain ⟨hi', hhandle⟩ := h.slot_kept hearlier hsame hi
    rw [hhandle, SlotTable.get?_handleAt_eq _ hlt, h.sound.slot_eq hi']
    rfl
  · rename_i hne
    exact h.get?_of_reclaimed hearlier hreclaimed hne i

lemma entryOf?_of_entryOf? {hd : Handle} {number : Nat}
    (hentry : earlier.entryOf? hd = some number) :
    now.entryOf? hd = if now.ledger.reclaimed = earlier.ledger.reclaimed ∧
      (now.ledger.value? number).isSome = true then some number else none := by
  split
  · rename_i hvalid
    have hroom := Nat.le_trans hle (Nat.le_of_lt hsize)
    obtain ⟨i, _, hi, -, rfl, -⟩ := hearlier.exists_slot hroom hentry
    obtain ⟨hi', hhandle⟩ := h.slot_kept hearlier hvalid.1 hi
    exact (h.sound.entryOf?_eq_some_iff (Nat.le_of_lt hsize) _ number).mpr
      ⟨i, hi', hvalid.2, hhandle⟩
  · rename_i hnot
    rw [← h.sound.get?_eq_none_iff (Nat.le_of_lt hsize),
      h.get?_of_entryOf? hearlier hsize hle hreclaimed hentry]
    split
    · rename_i hsame
      simpa [hsame] using hnot
    · rfl

lemma keepsHandles : earlier.KeepsHandles now where
  listed := by rw [SlotTable.map_snd_entries, h.sound.toList_eq]
  handles := by
    rw [h.sound.handles_eq, h.sound.present_eq, List.map_map, List.map_map]
    apply List.map_congr_left
    rintro ⟨number, i⟩ hslot
    obtain ⟨hi, hsome⟩ := mem_filled.mp hslot
    exact (h.sound.entryOf?_eq_some_iff (Nat.le_of_lt hsize) _ number).mpr ⟨i, hi, hsome, rfl⟩
  inserted value := by
    have hnew := h.sound.insert value
    have hlength := now.ledger.length_values_run now.entryOf? (.insert value)
    refine (hnew.entryOf?_eq_some_iff (hlength ▸ hsize) _ _).mpr ⟨numbers'.length, ?_, ?_, ?_⟩
    · exact List.getElem?_concat_length
    · change ((now.ledger.withValues _).value? _).isSome = true
      rw [now.ledger.value?_insert, if_pos rfl]
      rfl
    · rw [← h.sound.length_slots]
      rfl
  walked c hd hnext := by
    obtain ⟨i, value, rfl, hslot⟩ := SlotTable.exists_slot_of_next hnext
    exact h.sound.exists_entry (Nat.le_of_lt hsize) hslot
  resolves hd number := h.get?_of_entryOf? hearlier hsize hle hreclaimed
  keeps hd number := h.entryOf?_of_entryOf? hearlier hsize hle hreclaimed
  removes hd number hentry := by
    obtain ⟨i, value, -, hvalue, rfl, hlt, hslot⟩ := h.sound.exists_slot (Nat.le_of_lt hsize) hentry
    unfold SlotTable.remove
    rw [SlotTable.get?_handleAt hlt hslot, hvalue]
  ignores hd hentry := by
    have hnone := (h.sound.get?_eq_none_iff (Nat.le_of_lt hsize) hd).mpr hentry
    refine ⟨hnone, SlotTable.modify_of_none hnone, ?_⟩
    unfold SlotTable.remove
    rw [hnone]
  reclaims := h.sound.littered.trans now.table.length_slots_compact_lt_iff.symm
  spares hlittered := (h.sound.packed hlittered).compact_eq
  retains := now.table.retainInTurn_eq_retain

end GoesOn

end Session

open Session

/-- In any session with fewer than `2 ^ 32` insertions, and fewer than `2 ^ 32` compactions that
reclaim slots, a table that counts its entries by hand has the same slots as one that does not, and
the right count. It lists the entries that were not removed, with the values they have now, in the
order of insertion. A handle that was given out for an entry, by an insertion, in a list or in a
walk, leads to that entry as long as this is not removed and no slots are reclaimed. Every other
handle leads nowhere, and nothing is changed through it. -/
theorem handles_lead_to_their_entries (before after : List (TableCall α))
    (hinserts : (before ++ after).countP TableCall.isInsert < UInt32.size)
    (hreclaims : TableCall.countReclaims (before ++ after) ({} : SlotTable α) < UInt32.size) :
    let counted := CountedTable.runAll (before ++ after) ({} : CountedTable α)
    let earlier := ({} : Session α).runAll before
    let now := ({} : Session α).runAll (before ++ after)
    counted.toSlotTable = now.table ∧ counted.live = counted.entries.length ∧
      now.ledger.reclaimed = TableCall.countReclaims (before ++ after) ({} : SlotTable α) ∧
      earlier.KeepsHandles now := by
  intro counted earlier now
  have hlength : now.ledger.values.length = (before ++ after).countP TableCall.isInsert := by
    have hvalues := length_values_runAll ({} : Session α) (before ++ after)
    exact hvalues.trans (Nat.zero_add _)
  have hearlier : earlier.ledger.values.length = before.countP TableCall.isInsert := by
    have hvalues := length_values_runAll ({} : Session α) before
    exact hvalues.trans (Nat.zero_add _)
  rw [List.countP_append] at hinserts hlength
  obtain ⟨_, hall⟩ := sound_empty.runAll (before ++ after)
    (by rw [List.countP_append]; exact Nat.le_of_lt (by simpa using hinserts))
  obtain ⟨numbers, hbefore⟩ := sound_empty.runAll before
    (by change 0 + before.countP TableCall.isInsert ≤ _; omega)
  obtain ⟨numbers', hafter⟩ := hbefore.sound.runAll after
    (by change earlier.ledger.values.length + _ ≤ _; omega)
  rw [← runAll_append] at hafter
  have hreclaimed : now.ledger.reclaimed = TableCall.countReclaims (before ++ after) {} :=
    hall.reclaimed.trans (Nat.zero_add _)
  obtain ⟨htable, hcounts⟩ := CountedTable.Counts.runAll (t := {}) rfl (before ++ after)
  refine ⟨htable.trans (table_runAll {} (before ++ after)).symm, ?_, hreclaimed, ?_⟩
  · calc counted.live = counted.len := hcounts
      _ = counted.entries.length := by
        rw [SlotTable.len_eq_length_toList, ← SlotTable.map_snd_entries, List.length_map]
  · have hroom : now.ledger.values.length < UInt32.size := by omega
    have hle : earlier.ledger.values.length ≤ now.ledger.values.length := by omega
    have hfew : now.ledger.reclaimed < UInt32.size := by omega
    exact hafter.keepsHandles hbefore.sound hroom hle hfew

namespace Sample

/-- Two entries are inserted. -/
def insertions : List (TableCall Nat) :=
  [.insert 5, .insert 7]

/-- The first one is changed, and taken out by a handle that does not lead to the second one. -/
def tableUses : List (TableCall Nat) :=
  [.compact, .modify ⟨0, 0⟩ (· + 1), .remove ⟨0, 0⟩, .remove ⟨0, 0⟩, .list]

end Sample

/-- The second of two entries keeps its handle while the first one is taken out. The compaction
after that moves it to the slot of the first one, and none of the handles leads there. -/
theorem reclaiming_ends_handles :
    let calls := Sample.insertions ++ (Sample.tableUses ++ [.compact])
    let earlier := ({} : Session Nat).runAll Sample.insertions
    let now := ({} : Session Nat).runAll (Sample.insertions ++ Sample.tableUses)
    let later := ({} : Session Nat).runAll calls
    calls.countP TableCall.isInsert < UInt32.size ∧
      TableCall.countReclaims calls ({} : SlotTable Nat) < UInt32.size ∧
      earlier.entryOf? ⟨0, 0⟩ = some 0 ∧ earlier.entryOf? ⟨1, 0⟩ = some 1 ∧
      now.table.get? ⟨0, 0⟩ = none ∧ now.table.get? ⟨1, 0⟩ = some 7 ∧
      later.table.get? ⟨0, 0⟩ = none ∧ later.table.get? ⟨1, 0⟩ = none ∧
      later.table.entries = [(⟨0, 1⟩, 7)] := by
  intro calls earlier now later
  have hinserts : calls.countP TableCall.isInsert < UInt32.size := by decide
  have hreclaims : TableCall.countReclaims calls ({} : SlotTable Nat) < UInt32.size := by decide
  obtain ⟨-, -, -, hnow⟩ := handles_lead_to_their_entries Sample.insertions Sample.tableUses
    (by decide) (by decide)
  obtain ⟨-, -, -, hlater⟩ := handles_lead_to_their_entries Sample.insertions
    (Sample.tableUses ++ [.compact]) hinserts hreclaims
  have hfirst : earlier.entryOf? ⟨0, 0⟩ = some 0 := by decide
  have hsecond : earlier.entryOf? ⟨1, 0⟩ = some 1 := by decide
  exact ⟨hinserts, hreclaims, hfirst, hsecond, hnow.resolves _ _ hfirst,
    hnow.resolves _ _ hsecond, hlater.resolves _ _ hfirst, hlater.resolves _ _ hsecond, by decide⟩

end NamedRelay
