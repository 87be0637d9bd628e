import NamedRelay.Proofs.TableCalls

/-!
# Walks over a table that changes

A cursor is apart from its table, and anything may be asked of the table between two steps of a
walk. What the cursor gives next is the first entry, of those that were there when it was taken,
that lies beyond all it has given and is still there. Once slots were reclaimed no such entry is
left, for the handles of all of them have ended.
-/

namespace NamedRelay

variable {α : Type}

namespace SlotTable

/-! ## Handles by slot -/

/-- The handles of the entries in the first slots. -/
def handlesBelow (t : SlotTable α) (stop : Nat) : List Handle :=
  ((List.range stop).filter t.filledAt).map t.handleAt

lemma handles_eq_handlesBelow (t : SlotTable α) : t.handles = t.handlesBelow t.slots.length := by
  have hfilled : t.slots.zipIdx.filter (fun slot => slot.1.isSome) =
      t.slots.zipIdx.filter (t.filledAt ∘ Prod.snd) := by
    apply List.filter_congr
    rintro ⟨slot, i⟩ hslot
    rw [Function.comp_apply, filledAt, List.mem_zipIdx_iff_getElem?.mp hslot]
    rfl
  rw [handles_eq, hfilled, handlesBelow, List.range_eq_range', ← List.zipIdx_map_snd,
    List.filter_map, List.map_map]
  rfl

lemma mem_handlesBelow {t : SlotTable α} {stop : Nat} {hd : Handle} :
    hd ∈ t.handlesBelow stop ↔ ∃ i < stop, t.filledAt i = true ∧ hd = t.handleAt i := by
  unfold handlesBelow
  rw [List.mem_map]
  constructor
  · rintro ⟨i, hi, rfl⟩
    obtain ⟨hlt, hfilled⟩ := List.mem_filter.mp hi
    exact ⟨i, List.mem_range.mp hlt, hfilled, rfl⟩
  · rintro ⟨i, hlt, hfilled, rfl⟩
    exact ⟨i, List.mem_filter.mpr ⟨List.mem_range.mpr hlt, hfilled⟩, rfl⟩

lemma handlesBelow_sublist (t : SlotTable α) {i j : Nat} (h : i ≤ j) :
    (t.handlesBelow i).Sublist (t.handlesBelow j) :=
  ((List.range_sublist.mpr h).filter _).map _

lemma handlesBelow_succ {t : SlotTable α} {i : Nat} (hi : t.filledAt i = true) :
    t.handlesBelow (i + 1) = t.handlesBelow i ++ [t.handleAt i] := by
  unfold handlesBelow
  rw [List.range_succ, List.filter_append, List.filter_singleton, hi, cond_true, List.map_append,
    List.map_singleton]

lemma mem_handles {t : SlotTable α} {hd : Handle} :
    hd ∈ t.handles ↔ ∃ i, t.filledAt i = true ∧ hd = t.handleAt i := by
  rw [handles_eq_handlesBelow, mem_handlesBelow]
  exact ⟨fun ⟨i, _, hi, hhd⟩ => ⟨i, hi, hhd⟩, fun ⟨i, hi, hhd⟩ => ⟨i, lt_of_filledAt hi, hi, hhd⟩⟩

lemma length_handles (t : SlotTable α) : t.handles.length = t.len := by
  rw [len_eq_length_toList, ← map_snd_entries, handles, List.length_map, List.length_map]

/-- In a table whose slots all have handles, the handles ascend. -/
lemma handles_ascending {t : SlotTable α} (hslots : t.slots.length ≤ UInt32.size) :
    t.handles.Pairwise fun hd hd' => hd.index < hd'.index := by
  rw [handles_eq_handlesBelow, handlesBelow, List.pairwise_map]
  refine (List.pairwise_lt_range.filter _).imp_of_mem fun {i j} hi hj hlt => ?_
  have hj' := lt_of_filledAt (List.mem_filter.mp hj).2
  rw [UInt32.lt_iff_toNat_lt, t.toNat_index_handleAt (by omega), t.toNat_index_handleAt (by omega)]
  exact hlt

/-! ## Calls that reclaim slots, and those that do not -/

/-- The slots there are keep their numbers, and none of them is filled again. -/
structure LeavesSlots (t t' : SlotTable α) : Prop where
  generation : t'.generation = t.generation
  length_le : t.slots.length ≤ t'.slots.length
  filledAt : ∀ i < t.slots.length, t'.filledAt i = true → t.filledAt i = true

namespace LeavesSlots

variable {t t' t'' : SlotTable α}

lemma refl (t : SlotTable α) : t.LeavesSlots t :=
  ⟨rfl, Nat.le_refl _, fun _ _ => id⟩

lemma trans (h : t.LeavesSlots t') (h' : t'.LeavesSlots t'') : t.LeavesSlots t'' where
  generation := h'.generation.trans h.generation
  length_le := Nat.le_trans h.length_le h'.length_le
  filledAt i hi hfilled :=
    h.filledAt i hi (h'.filledAt i (Nat.lt_of_lt_of_le hi h.length_le) hfilled)

/-- The slot with the same number held something before. -/
lemma of_slots {slots : List (Option α)} (hlength : t.slots.length ≤ slots.length)
    (hslot : ∀ i < t.slots.length, slots[i]?.join.isSome = true → t.filledAt i = true) :
    t.LeavesSlots { t with slots } :=
  ⟨rfl, hlength, hslot⟩

lemma insert (t : SlotTable α) (value : α) : t.LeavesSlots (t.insert value).2 := by
  refine of_slots (Nat.le_of_lt (by simp)) fun i hi hfilled => ?_
  rwa [List.getElem?_append_left hi] at hfilled

lemma modify (t : SlotTable α) (hd : Handle) (change : α → α) :
    t.LeavesSlots (t.modify hd change) := by
  unfold SlotTable.modify
  split
  · refine of_slots (by simp) fun i _ hfilled => ?_
    rw [List.getElem?_modify] at hfilled
    unfold SlotTable.filledAt
    cases hslot : t.slots[i]? with
    | none => simp [hslot] at hfilled
    | some slot =>
      cases slot with
      | none => split at hfilled <;> simp [hslot] at hfilled
      | some value => rfl
  · exact refl t

lemma remove (t : SlotTable α) (hd : Handle) : t.LeavesSlots (t.remove hd).2 := by
  unfold SlotTable.remove
  split
  · refine of_slots (by simp) fun i _ hfilled => ?_
    rw [List.getElem?_set] at hfilled
    split at hfilled
    · split at hfilled <;> cases hfilled
    · exact hfilled
  · exact refl t

lemma keepInTurn (t : SlotTable α) (keep : List α → α → Option α) :
    t.LeavesSlots { t with slots := SlotTable.keepInTurn keep [] t.slots } := by
  refine of_slots (Nat.le_of_eq (length_keepInTurn keep [] t.slots).symm) fun i _ hfilled => ?_
  rw [getElem?_keepInTurn] at hfilled
  unfold SlotTable.filledAt
  cases hslot : t.slots[i]? with
  | none => rw [hslot] at hfilled; cases hfilled
  | some slot => exact Option.isSome_of_isSome_bind (by rwa [hslot] at hfilled)

/-- A compaction leaves the slots if all of them are filled, and else there are fewer. -/
lemma compact_cases (h : t.LeavesSlots t') (hlength : t'.slots.length = t.slots.length) :
    t.LeavesSlots t'.compact ∨ (t'.compact.slots.length < t.slots.length ∧
      t'.compact.generation = t.generation + 1) := by
  by_cases hpacked : t'.Packed
  · rw [hpacked.compact_eq]
    exact .inl h
  · obtain ⟨hshorter, hgeneration⟩ := compact_of_not_packed hpacked
    exact .inr ⟨hlength ▸ hshorter, h.generation ▸ hgeneration⟩

end LeavesSlots

end SlotTable

/-- A call leaves the slots that there are, or it reclaims some of them. -/
lemma TableCall.run_cases (call : TableCall α) (t : SlotTable α) :
    (call.reclaims t = false ∧ t.LeavesSlots (call.run t)) ∨
      (call.reclaims t = true ∧ (call.run t).generation = t.generation + 1) := by
  have hkept : t.LeavesSlots (call.run t) →
      call.reclaims t = false ∧ t.LeavesSlots (call.run t) :=
    fun hleaves => ⟨decide_eq_false (Nat.not_lt_of_le hleaves.length_le), hleaves⟩
  cases call with
  | insert value => exact .inl (hkept (.insert t value))
  | get _ => exact .inl (hkept (.refl t))
  | modify hd change => exact .inl (hkept (.modify t hd change))
  | remove hd => exact .inl (hkept (.remove t hd))
  | retain keep =>
    have hlength := SlotTable.length_keepInTurn keep [] t.slots
    rcases (SlotTable.LeavesSlots.keepInTurn t keep).compact_cases hlength with
      hleaves | ⟨hshorter, hgeneration⟩
    · exact .inl (hkept hleaves)
    · exact .inr ⟨decide_eq_true hshorter, hgeneration⟩
  | compact =>
    rcases (SlotTable.LeavesSlots.refl t).compact_cases rfl with
      hleaves | ⟨hshorter, hgeneration⟩
    · exact .inl (hkept hleaves)
    · exact .inr ⟨decide_eq_true hshorter, hgeneration⟩
  | list => exact .inl (hkept (.refl t))

/-- What happens during a walk: the cursor is asked for the next entry, or the table is called. -/
inductive WalkStep (α : Type) where
  | next
  | call (call : TableCall α)

/-- A walk under way. -/
structure Walk (α : Type) where
  table : SlotTable α
  cursor : Cursor
  /-- What the cursor has given, one after the other. -/
  given : List Handle := []
  /-- How often slots were reclaimed since the cursor was taken. -/
  reclaimed : Nat := 0

namespace Walk

def start (t : SlotTable α) : Walk α :=
  { table := t, cursor := t.cursor }

/-- What the cursor gives if it is asked now. -/
def next? (w : Walk α) : Option Handle :=
  (w.table.next w.cursor).1

def run (w : Walk α) : WalkStep α → Walk α
  | .next => { w with cursor := (w.table.next w.cursor).2, given := w.given ++ w.next?.toList }
  | .call call => { w with
      table := call.run w.table
      reclaimed := w.reclaimed + (call.reclaims w.table).toNat }

def runAll (w : Walk α) (steps : List (WalkStep α)) : Walk α :=
  steps.foldl run w

/-- The entry is still there, and lies beyond all that were given. -/
def isAhead (w : Walk α) (hd : Handle) : Bool :=
  w.given.all (fun earlier => earlier.index < hd.index) && (w.table.get? hd).isSome

/-- The slots before the cursor are done with. -/
structure Sound (t : SlotTable α) (w : Walk α) : Prop where
  position_le : w.cursor.position ≤ t.slots.length
  stop : w.cursor.stop = t.slots.length
  taken : w.cursor.generation = t.generation
  generation : w.table.generation = t.generation + UInt32.ofNat w.reclaimed
  leaves : w.reclaimed = 0 → t.LeavesSlots w.table
  given : w.given.Sublist (t.handlesBelow w.cursor.position)
  reached : w.reclaimed = 0 → ∀ i < w.cursor.position, w.table.filledAt i = true →
    t.handleAt i ∈ w.given

lemma sound_start (t : SlotTable α) : (start t).Sound t where
  position_le := Nat.zero_le _
  stop := rfl
  taken := rfl
  generation := (UInt32.add_zero _).symm
  leaves _ := .refl t
  given := List.nil_sublist _
  reached _ i hi := absurd hi (Nat.not_lt_zero i)

namespace Sound

variable {t : SlotTable α} {w : Walk α}

section

variable (h : w.Sound t) (hreclaimed : w.reclaimed < UInt32.size)

include h hreclaimed

/-- The table is of another generation once slots were reclaimed. -/
lemma generation_eq_iff : w.table.generation = t.generation ↔ w.reclaimed = 0 := by
  rw [h.generation, UInt32.add_eq_left]
  constructor
  · intro hzero
    have hnat := congrArg UInt32.toNat hzero
    rwa [UInt32.toNat_ofNat_of_lt' hreclaimed] at hnat
  · intro hzero
    rw [hzero]
    rfl

lemma handleAt_eq (hnone : w.reclaimed = 0) (i : Nat) : w.table.handleAt i = t.handleAt i := by
  unfold SlotTable.handleAt
  rw [(h.generation_eq_iff hreclaimed).mpr hnone]

lemma get?_eq_none_of_reclaimed (hsome : w.reclaimed ≠ 0) (i : Nat) :
    w.table.get? (t.handleAt i) = none := by
  unfold SlotTable.get?
  exact if_neg fun hsame => hsome ((h.generation_eq_iff hreclaimed).mp hsame.symm)

/-- As long as no slots were reclaimed, what is ahead is what the slots from the cursor on hold. -/
lemma isAhead_handleAt (hslots : t.slots.length ≤ UInt32.size) {i : Nat}
    (hi : t.filledAt i = true) : w.isAhead (t.handleAt i) = true ↔
      w.reclaimed = 0 ∧ w.cursor.position ≤ i ∧ w.table.filledAt i = true := by
  have hlt : i < UInt32.size := Nat.lt_of_lt_of_le (SlotTable.lt_of_filledAt hi) hslots
  unfold isAhead
  rw [Bool.and_eq_true, List.all_eq_true]
  by_cases hnone : w.reclaimed = 0
  · have hthere : (w.table.get? (t.handleAt i)).isSome = w.table.filledAt i := by
      rw [← h.handleAt_eq hreclaimed hnone, w.table.get?_handleAt_eq hlt]
      rfl
    rw [hthere]
    constructor
    · rintro ⟨hbeyond, hfilled⟩
      refine ⟨hnone, Nat.le_of_not_lt fun hdone => ?_, hfilled⟩
      have hself := of_decide_eq_true (hbeyond _ (h.reached hnone i hdone hfilled))
      exact UInt32.lt_irrefl _ hself
    · rintro ⟨-, hfrom, hfilled⟩
      refine ⟨fun hd hgiven => decide_eq_true ?_, hfilled⟩
      obtain ⟨j, hj, -, rfl⟩ := SlotTable.mem_handlesBelow.mp (h.given.subset hgiven)
      rw [UInt32.lt_iff_toNat_lt, t.toNat_index_handleAt (by omega), t.toNat_index_handleAt hlt]
      omega
  · rw [h.get?_eq_none_of_reclaimed hreclaimed hnone]
    exact iff_of_false (fun hsome => nomatch hsome.2) fun hzero => hnone hzero.1

/-- What the cursor finds was there when it was taken. -/
lemma was_there (hgeneration : w.table.generation = w.cursor.generation) {i : Nat}
    (hstop : i < w.cursor.stop) (hfilled : w.table.filledAt i = true) :
    w.reclaimed = 0 ∧ t.filledAt i = true ∧ w.table.handleAt i = t.handleAt i := by
  have hnone := (h.generation_eq_iff hreclaimed).mp (hgeneration.trans h.taken)
  exact ⟨hnone, (h.leaves hnone).filledAt i (h.stop ▸ hstop) hfilled,
    h.handleAt_eq hreclaimed hnone i⟩

lemma nothing_ahead (hslots : t.slots.length ≤ UInt32.size)
    (hgone : ∀ i, t.filledAt i = true → w.reclaimed = 0 → w.cursor.position ≤ i →
      w.table.filledAt i = false) : t.handles.find? w.isAhead = none := by
  rw [List.find?_eq_none]
  intro hd hmem hthere
  obtain ⟨i, hi, rfl⟩ := SlotTable.mem_handles.mp hmem
  obtain ⟨hnone, hfrom, hfilled⟩ := (h.isAhead_handleAt hreclaimed hslots hi).mp hthere
  rw [hgone i hi hnone hfrom] at hfilled
  cases hfilled

/-- The next entry is the first one ahead. -/
lemma next?_eq (hslots : t.slots.length ≤ UInt32.size) :
    w.next? = t.handles.find? w.isAhead := by
  have hcase := w.table.nextOf_next w.cursor
  unfold next?
  generalize w.table.next w.cursor = answer at hcase
  symm
  cases hcase with
  | ended hgeneration =>
    rw [h.taken] at hgeneration
    exact h.nothing_ahead hreclaimed hslots fun _ _ hnone =>
      absurd ((h.generation_eq_iff hreclaimed).mpr hnone) hgeneration
  | found i hgeneration hfrom hstop hfilled hpassed =>
    obtain ⟨hnone, hi, hsame⟩ := h.was_there hreclaimed hgeneration hstop hfilled
    rw [t.handles_eq_handlesBelow, SlotTable.handlesBelow, List.find?_map, List.find?_filter, hsame]
    refine Option.map_eq_some_iff.mpr ⟨i, List.find?_range_eq_some.mpr ⟨?_, ?_, ?_⟩, rfl⟩
    · exact decide_eq_true
        ⟨hi, (h.isAhead_handleAt hreclaimed hslots hi).mpr ⟨hnone, hfrom, hfilled⟩⟩
    · exact List.mem_range.mpr (h.stop ▸ hstop)
    · intro j hj
      rw [Bool.not_eq_true', decide_eq_false_iff_not]
      rintro ⟨hthen, hthere⟩
      obtain ⟨-, hjfrom, hjfilled⟩ := (h.isAhead_handleAt hreclaimed hslots hthen).mp hthere
      rw [hpassed j hjfrom hj] at hjfilled
      cases hjfilled
  | atEnd _ hpassed =>
    exact h.nothing_ahead hreclaimed hslots fun i hi _ hfrom =>
      hpassed i hfrom (h.stop ▸ SlotTable.lt_of_filledAt hi)

/-- A new entry is not among those that were there when the cursor was taken. -/
lemma insert_notMem (hroom : w.table.slots.length < UInt32.size) (value : α) :
    (w.table.insert value).1 ∉ t.handles := by
  intro hmem
  obtain ⟨i, hi, hsame⟩ := SlotTable.mem_handles.mp hmem
  have hlt := SlotTable.lt_of_filledAt hi
  have hindex := congrArg (fun hd : Handle => hd.index.toNat) hsame
  have hnone := (h.generation_eq_iff hreclaimed).mp (congrArg Handle.generation hsame)
  have hle := (h.leaves hnone).length_le
  change (w.table.handleAt w.table.slots.length).index.toNat = (t.handleAt i).index.toNat at hindex
  rw [w.table.toNat_index_handleAt hroom, t.toNat_index_handleAt (by omega)] at hindex
  omega

omit hreclaimed in
/-- Nothing is missed where the cursor passes empty slots. -/
lemma reached_of_passed (hnone : w.reclaimed = 0) {i : Nat}
    (hpassed : ∀ j, w.cursor.position ≤ j → j < i → w.table.filledAt j = false) {j : Nat}
    (hj : j < i) (hfilled : w.table.filledAt j = true) : t.handleAt j ∈ w.given := by
  rcases Nat.lt_or_ge j w.cursor.position with hdone | hfrom
  · exact h.reached hnone j hdone hfilled
  · rw [hpassed j hfrom hj] at hfilled
    cases hfilled

lemma next : (w.run .next).Sound t := by
  have hcase := w.table.nextOf_next w.cursor
  unfold run next?
  dsimp only
  generalize w.table.next w.cursor = answer at hcase
  cases hcase with
  | ended _ =>
    exact ⟨h.position_le, h.stop, h.taken, h.generation, h.leaves,
      (List.append_nil _).symm ▸ h.given, (List.append_nil _).symm ▸ h.reached⟩
  | found i hgeneration hfrom hstop hfilled hpassed =>
    obtain ⟨hnone, hi, hsame⟩ := h.was_there hreclaimed hgeneration hstop hfilled
    rw [hsame]
    refine ⟨h.stop ▸ hstop, h.stop, h.taken, h.generation, h.leaves, ?_, fun _ j hj hthere => ?_⟩
    · change (w.given ++ [t.handleAt i]).Sublist (t.handlesBelow (i + 1))
      rw [SlotTable.handlesBelow_succ hi]
      exact (h.given.trans (t.handlesBelow_sublist hfrom)).append (.refl _)
    · change t.handleAt j ∈ w.given ++ [t.handleAt i]
      rcases Nat.lt_or_eq_of_le (Nat.le_of_lt_succ hj) with hji | rfl
      · exact List.mem_append_left _ (h.reached_of_passed hnone hpassed hji hthere)
      · exact List.mem_append_right _ List.mem_cons_self
  | atEnd _ hpassed =>
    rw [show max w.cursor.position w.cursor.stop = w.cursor.stop from
      Nat.max_eq_right (h.stop ▸ h.position_le)]
    refine ⟨Nat.le_of_eq h.stop, h.stop, h.taken, h.generation, h.leaves, ?_,
      fun hnone j hj hthere => ?_⟩
    · change (w.given ++ []).Sublist (t.handlesBelow w.cursor.stop)
      rw [List.append_nil]
      exact h.given.trans (t.handlesBelow_sublist (h.stop ▸ h.position_le))
    · change t.handleAt j ∈ w.given ++ []
      rw [List.append_nil]
      exact h.reached_of_passed hnone hpassed hj hthere

end

lemma call (h : w.Sound t) (call : TableCall α) : (w.run (.call call)).Sound t := by
  unfold run
  dsimp only
  rcases call.run_cases w.table with ⟨hnone, hleaves⟩ | ⟨hsome, hgeneration⟩
  · rw [hnone]
    refine ⟨h.position_le, h.stop, h.taken, hleaves.generation.trans h.generation,
      fun hsame => (h.leaves hsame).trans hleaves, h.given, fun hsame i hi hfilled => ?_⟩
    have hlt := Nat.lt_of_lt_of_le hi (Nat.le_trans h.position_le (h.leaves hsame).length_le)
    exact h.reached hsame i hi (hleaves.filledAt i hlt hfilled)
  · rw [hsome]
    refine ⟨h.position_le, h.stop, h.taken, ?_, nofun, h.given, nofun⟩
    change (call.run w.table).generation = t.generation + UInt32.ofNat (w.reclaimed + 1)
    rw [hgeneration, h.generation, UInt32.ofNat_add, UInt32.add_assoc]
    rfl

lemma run (h : w.Sound t) (hreclaimed : w.reclaimed < UInt32.size) (step : WalkStep α) :
    (w.run step).Sound t := by
  cases step with
  | next => exact h.next hreclaimed
  | call call => exact h.call call

end Sound

lemma reclaimed_le_run (w : Walk α) (step : WalkStep α) :
    w.reclaimed ≤ (w.run step).reclaimed := by
  cases step with
  | next => exact Nat.le_refl _
  | call call => exact Nat.le_add_right _ _

lemma reclaimed_le_runAll (w : Walk α) (steps : List (WalkStep α)) :
    w.reclaimed ≤ (w.runAll steps).reclaimed := by
  induction steps generalizing w with
  | nil => exact Nat.le_refl _
  | cons step steps ih => exact Nat.le_trans (w.reclaimed_le_run step) (ih (w.run step))

lemma Sound.runAll {t : SlotTable α} {w : Walk α} (h : w.Sound t) (steps : List (WalkStep α))
    (hreclaimed : (w.runAll steps).reclaimed < UInt32.size) : (w.runAll steps).Sound t := by
  induction steps generalizing w with
  | nil => exact h
  | cons step steps ih =>
    have hfew := Nat.lt_of_le_of_lt (w.reclaimed_le_runAll (step :: steps)) hreclaimed
    exact ih (h.run hfew step) hreclaimed

lemma runAll_append (w : Walk α) (steps others : List (WalkStep α)) :
    w.runAll (steps ++ others) = (w.runAll steps).runAll others :=
  List.foldl_append

/-- What a walk over the entries of a table has come to. -/
structure GoesOver (w : Walk α) (t : SlotTable α) : Prop where
  next?_eq : w.next? = t.handles.find? w.isAhead
  resolves : ∀ hd, w.next? = some hd → ∃ i value, hd = t.handleAt i ∧ t.filledAt i = true ∧
    w.table.slots[i]? = some (some value) ∧ w.table.get? hd = some value
  given : w.given.Sublist t.handles
  ascending : w.given.Pairwise fun hd hd' => hd.index < hd'.index
  /-- What is still there was given or is yet to come. -/
  misses : ∀ hd ∈ t.handles, (w.table.get? hd).isSome = true →
    hd ∈ w.given ∨ w.isAhead hd = true
  length_le : w.given.length ≤ t.len
  ends : w.given.length = t.len → w.next? = none
  reclaimed : w.reclaimed ≠ 0 → w.next? = none

namespace Sound

variable {t : SlotTable α} {w : Walk α} (h : w.Sound t) (hslots : t.slots.length ≤ UInt32.size)
  (hreclaimed : w.reclaimed < UInt32.size)

include h in
lemma given_sublist : w.given.Sublist t.handles := by
  rw [t.handles_eq_handlesBelow]
  exact h.given.trans (t.handlesBelow_sublist h.position_le)

include h hslots hreclaimed

lemma goesOver : w.GoesOver t where
  next?_eq := h.next?_eq hreclaimed hslots
  resolves hd hnext := by
    rw [h.next?_eq hreclaimed hslots] at hnext
    obtain ⟨i, hi, rfl⟩ := SlotTable.mem_handles.mp (List.mem_of_find?_eq_some hnext)
    obtain ⟨hnone, -, hfilled⟩ :=
      (h.isAhead_handleAt hreclaimed hslots hi).mp (List.find?_some hnext)
    obtain ⟨value, hvalue⟩ := Option.isSome_iff_exists.mp hfilled
    have hlt := Nat.lt_of_lt_of_le (SlotTable.lt_of_filledAt hi) hslots
    refine ⟨i, value, rfl, hi, Option.join_eq_some_iff.mp hvalue, ?_⟩
    rw [← h.handleAt_eq hreclaimed hnone, w.table.get?_handleAt_eq hlt, hvalue]
  given := h.given_sublist
  ascending := (SlotTable.handles_ascending hslots).sublist h.given_sublist
  misses hd hmem hthere := by
    obtain ⟨i, hi, rfl⟩ := SlotTable.mem_handles.mp hmem
    by_cases hnone : w.reclaimed = 0
    · have hlt := Nat.lt_of_lt_of_le (SlotTable.lt_of_filledAt hi) hslots
      rw [← h.handleAt_eq hreclaimed hnone, w.table.get?_handleAt_eq hlt] at hthere
      rcases Nat.lt_or_ge i w.cursor.position with hdone | hfrom
      · exact .inl (h.reached hnone i hdone hthere)
      · exact .inr ((h.isAhead_handleAt hreclaimed hslots hi).mpr ⟨hnone, hfrom, hthere⟩)
    · rw [h.get?_eq_none_of_reclaimed hreclaimed hnone] at hthere
      cases hthere
  length_le := t.length_handles ▸ h.given_sublist.length_le
  ends hall := by
    have hgiven := h.given_sublist.eq_of_length (hall.trans t.length_handles.symm)
    rw [h.next?_eq hreclaimed hslots, List.find?_eq_none]
    intro hd hmem hthere
    rw [isAhead, Bool.and_eq_true, List.all_eq_true] at hthere
    rw [← hgiven] at hmem
    exact UInt32.lt_irrefl _ (of_decide_eq_true (hthere.1 hd hmem))
  reclaimed hsome := by
    rw [h.next?_eq hreclaimed hslots]
    exact h.nothing_ahead hreclaimed hslots fun _ _ hnone => absurd hnone hsome

end Sound

section

variable {t : SlotTable α} {w : Walk α}

/-- What lies ahead later lay ahead before. -/
lemma Sound.isAhead_of_run (h : w.Sound t) (hslots : t.slots.length ≤ UInt32.size)
    {step : WalkStep α} (hreclaimed : (w.run step).reclaimed < UInt32.size) {hd : Handle}
    (hmem : hd ∈ t.handles) (hlater : (w.run step).isAhead hd = true) : w.isAhead hd = true := by
  have hfew := Nat.lt_of_le_of_lt (w.reclaimed_le_run step) hreclaimed
  cases step with
  | next =>
    change ((w.given ++ w.next?.toList).all _ && _) = true at hlater
    rw [List.all_append, Bool.and_eq_true, Bool.and_eq_true] at hlater
    exact Bool.and_eq_true_iff.mpr ⟨hlater.1.1, hlater.2⟩
  | call call =>
    obtain ⟨i, hi, rfl⟩ := SlotTable.mem_handles.mp hmem
    obtain ⟨hnone, hfrom, hfilled⟩ :=
      ((h.call call).isAhead_handleAt hreclaimed hslots hi).mp hlater
    have hbefore : w.reclaimed = 0 := Nat.eq_zero_of_add_eq_zero_right hnone
    rcases call.run_cases w.table with ⟨-, hleaves⟩ | ⟨hsome, -⟩
    · have hlt := Nat.lt_of_lt_of_le (SlotTable.lt_of_filledAt hi) (h.leaves hbefore).length_le
      exact (h.isAhead_handleAt hfew hslots hi).mpr
        ⟨hbefore, hfrom, hleaves.filledAt i hlt hfilled⟩
    · have hreclaims := Nat.eq_zero_of_add_eq_zero_left hnone
      rw [hsome] at hreclaims
      cases hreclaims

/-- A walk that is at its end stays there. -/
lemma Sound.runAll_of_none (h : w.Sound t) (hslots : t.slots.length ≤ UInt32.size)
    (steps : List (WalkStep α)) (hreclaimed : (w.runAll steps).reclaimed < UInt32.size)
    (hend : w.next? = none) :
    (w.runAll steps).next? = none ∧ (w.runAll steps).given = w.given := by
  induction steps generalizing w with
  | nil => exact ⟨hend, rfl⟩
  | cons step steps ih =>
    have hlater : (w.run step).reclaimed < UInt32.size :=
      Nat.lt_of_le_of_lt ((w.run step).reclaimed_le_runAll steps) hreclaimed
    have hfew := Nat.lt_of_le_of_lt (w.reclaimed_le_run step) hlater
    have hgiven : (w.run step).given = w.given := by
      cases step with
      | next =>
        change w.given ++ w.next?.toList = w.given
        rw [hend]
        exact List.append_nil _
      | call _ => rfl
    have hnext : (w.run step).next? = none := by
      rw [h.next?_eq hfew hslots, List.find?_eq_none] at hend
      rw [(h.run hfew step).next?_eq hlater hslots, List.find?_eq_none]
      exact fun hd hmem hthere => hend hd hmem (h.isAhead_of_run hslots hlater hmem hthere)
    obtain ⟨hnone, hsame⟩ := ih (h.run hfew step) hreclaimed hnext
    exact ⟨hnone, hsame.trans hgiven⟩

end

end Walk

open Walk

/-- Whatever is asked of a table during a walk, the walk gives next the first entry that was there
when its cursor was taken, that lies beyond all it has given and is still there. So it gives the
entries in the order of their slots, each at most once, and it misses none that stays. What it gives
leads to an entry, and was not inserted on the way. At its end, which comes at the latest after as
many entries as there were, and as soon as slots are reclaimed, it stays. -/
theorem walks_give_what_is_still_there (t : SlotTable α) (before after : List (WalkStep α))
    (hslots : t.slots.length ≤ UInt32.size)
    (hreclaimed : ((start t).runAll (before ++ after)).reclaimed < UInt32.size) :
    let earlier := (start t).runAll before
    let now := (start t).runAll (before ++ after)
    now.GoesOver t ∧
      (earlier.next? = none → now.next? = none ∧ now.given = earlier.given) ∧
      ∀ value, earlier.table.slots.length < UInt32.size →
        (earlier.table.insert value).1 ∉ now.given := by
  intro earlier now
  have hnow := (sound_start t).runAll (before ++ after) hreclaimed
  have hlater : (earlier.runAll after).reclaimed < UInt32.size := by
    rwa [runAll_append] at hreclaimed
  have hfew := Nat.lt_of_le_of_lt (earlier.reclaimed_le_runAll after) hlater
  have hearlier := (sound_start t).runAll before hfew
  refine ⟨hnow.goesOver hslots hreclaimed, fun hend => ?_, fun value hroom hmem => ?_⟩
  · have hstays := hearlier.runAll_of_none hslots after hlater hend
    rwa [← runAll_append] at hstays
  · exact hearlier.insert_notMem hfew hroom value (hnow.given_sublist.subset hmem)

namespace Sample

/-- A table with five entries. -/
def fiveEntries : SlotTable Nat :=
  TableCall.runAll [.insert 0, .insert 1, .insert 2, .insert 3, .insert 4] {}

/-- The entry just given is taken out, one is inserted, and one ahead is taken out. -/
def changesOnTheWay : List (WalkStep Nat) :=
  [.next, .call (.remove ⟨0, 0⟩), .next, .call (.insert 100), .call (.modify ⟨4, 0⟩ (· + 1)),
    .call (.remove ⟨2, 0⟩), .next]

end Sample

/-- The entry that was taken out ahead of the cursor is passed over. After a compaction nothing more
is given, though the last of the entries is still there. -/
theorem reclaiming_ends_walks :
    let earlier := (start Sample.fiveEntries).runAll Sample.changesOnTheWay
    let now := (start Sample.fiveEntries).runAll (Sample.changesOnTheWay ++ [.call .compact])
    Sample.fiveEntries.slots.length ≤ UInt32.size ∧ now.reclaimed < UInt32.size ∧
      earlier.given = [⟨0, 0⟩, ⟨1, 0⟩, ⟨3, 0⟩] ∧ earlier.next? = some ⟨4, 0⟩ ∧
      now.given = earlier.given ∧ now.next? = none ∧ now.table.toList = [1, 3, 5, 100] := by
  intro earlier now
  have hslots : Sample.fiveEntries.slots.length ≤ UInt32.size := by decide
  have hreclaimed : now.reclaimed < UInt32.size := by decide
  obtain ⟨hnow, -, -⟩ := walks_give_what_is_still_there Sample.fiveEntries Sample.changesOnTheWay
    [.call .compact] hslots hreclaimed
  exact ⟨hslots, hreclaimed, by decide, by decide, rfl, hnow.reclaimed (by decide), by decide⟩

end NamedRelay
