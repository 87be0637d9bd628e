import NamedRelay.Proofs.SlotTable

/-!
# Calls of a slot table, and a table that keeps count

What is asked of a slot table, one call after the other. A table may keep the number of its entries
beside its slots: each call counts up or down by hand, and a compaction compares the count with the
number of slots to see whether there is anything to reclaim. Whatever the calls, its slots are then
those of a table that looks at all its slots.
-/

namespace NamedRelay

variable {α : Type}

namespace SlotTable

/-- Shows the entries of the slots to `keep` one after the other, each with the entries shown before
it, and replaces each entry by what is left of it. -/
def keepInTurn (keep : List α → α → Option α) : List α → List (Option α) → List (Option α)
  | _, [] => []
  | shown, none :: slots => none :: keepInTurn keep shown slots
  | shown, some value :: slots => keep shown value :: keepInTurn keep (shown ++ [value]) slots

/-- Replaces each entry by what `keep` leaves of it, and compacts. What is left of an entry may
depend on the entries before it. -/
def retainInTurn (t : SlotTable α) (keep : List α → α → Option α) : SlotTable α :=
  ({ t with slots := keepInTurn keep [] t.slots } : SlotTable α).compact

lemma length_keepInTurn (keep : List α → α → Option α) (shown : List α)
    (slots : List (Option α)) : (keepInTurn keep shown slots).length = slots.length := by
  induction slots generalizing shown with
  | nil => rfl
  | cons slot slots ih =>
    cases slot with
    | none => exact congrArg Nat.succ (ih shown)
    | some value => exact congrArg Nat.succ (ih (shown ++ [value]))

/-- What is left of an entry depends on the entries in the slots before it. -/
lemma getElem?_keepInTurn (keep : List α → α → Option α) (shown : List α)
    (slots : List (Option α)) (i : Nat) :
    (keepInTurn keep shown slots)[i]? =
      slots[i]?.map (·.bind (keep (shown ++ (slots.take i).filterMap id))) := by
  induction slots generalizing shown i with
  | nil => rfl
  | cons slot slots ih =>
    cases i with
    | zero => cases slot <;> simp [keepInTurn]
    | succ i => cases slot <;> simp [keepInTurn, ih]

/-- What is left of an entry need not depend on those before it. -/
lemma retainInTurn_eq_retain (t : SlotTable α) (f : α → Option α) :
    t.retainInTurn (fun _ => f) = t.retain f := by
  have hslots : keepInTurn (fun _ => f) [] t.slots = t.slots.map fun slot => slot.bind f := by
    apply List.ext_getElem?
    intro i
    rw [getElem?_keepInTurn, List.getElem?_map]
  unfold retainInTurn retain
  rw [hslots]

end SlotTable

/-- What is asked of a slot table. -/
inductive TableCall (α : Type) where
  | insert (value : α)
  | get (h : Handle)
  | modify (h : Handle) (change : α → α)
  | remove (h : Handle)
  | retain (keep : List α → α → Option α)
  | compact
  | list

namespace TableCall

def isInsert : TableCall α → Bool
  | insert _ => true
  | _ => false

/-- The table a call leaves. -/
def run : TableCall α → SlotTable α → SlotTable α
  | insert value, t => (t.insert value).2
  | get _, t => t
  | modify h change, t => t.modify h change
  | remove h, t => (t.remove h).2
  | retain keep, t => t.retainInTurn keep
  | compact, t => t.compact
  | list, t => t

/-- The table that calls leave one after the other. -/
def runAll (calls : List (TableCall α)) (t : SlotTable α) : SlotTable α :=
  calls.foldl (fun t call => call.run t) t

/-- The call ends in a compaction that reclaims slots. -/
def reclaims (call : TableCall α) (t : SlotTable α) : Bool :=
  (call.run t).slots.length < t.slots.length

/-- How many calls reclaim slots, of calls one after the other. -/
def countReclaims : List (TableCall α) → SlotTable α → Nat
  | [], _ => 0
  | call :: calls, t => (call.reclaims t).toNat + countReclaims calls (call.run t)

end TableCall

/-- A slot table that keeps the number of its entries beside its slots. -/
structure CountedTable (α : Type) extends SlotTable α where
  live : Nat := 0

namespace CountedTable

def insert (t : CountedTable α) (value : α) : Handle × CountedTable α :=
  (t.handleAt t.slots.length, { t with slots := t.slots ++ [some value], live := t.live + 1 })

def modify (t : CountedTable α) (h : Handle) (change : α → α) : CountedTable α :=
  { t with toSlotTable := t.toSlotTable.modify h change }

def remove (t : CountedTable α) (h : Handle) : Option α × CountedTable α :=
  match t.get? h with
  | some value =>
    (some value, { t with slots := t.slots.set h.index.toNat none, live := t.live - 1 })
  | none => (none, t)

/-- Drops the empty slots, unless there are as many entries as slots. -/
def compact (t : CountedTable α) : CountedTable α :=
  if t.live = t.slots.length then t
  else { t with slots := t.slots.filter Option.isSome, generation := t.generation + 1 }

/-- Goes over the slots and counts down for each entry of which nothing is left. -/
def keepInTurn (keep : List α → α → Option α) :
    List α → List (Option α) → Nat → List (Option α) × Nat
  | _, [], live => ([], live)
  | shown, none :: slots, live =>
    let (slots, live) := keepInTurn keep shown slots live
    (none :: slots, live)
  | shown, some value :: slots, live =>
    let left := keep shown value
    let (slots, live) :=
      keepInTurn keep (shown ++ [value]) slots (if left.isSome then live else live - 1)
    (left :: slots, live)

def retain (t : CountedTable α) (keep : List α → α → Option α) : CountedTable α :=
  let (slots, live) := keepInTurn keep [] t.slots t.live
  ({ t with slots, live } : CountedTable α).compact

/-- The table a call leaves. -/
def run : TableCall α → CountedTable α → CountedTable α
  | .insert value, t => (t.insert value).2
  | .get _, t => t
  | .modify h change, t => t.modify h change
  | .remove h, t => (t.remove h).2
  | .retain keep, t => t.retain keep
  | .compact, t => t.compact
  | .list, t => t

/-- The table that calls leave one after the other. -/
def runAll (calls : List (TableCall α)) (t : CountedTable α) : CountedTable α :=
  calls.foldl (fun t call => run call t) t

/-- The count is the number of filled slots. -/
def Counts (t : CountedTable α) : Prop :=
  t.live = t.len

lemma keepInTurn_eq (keep : List α → α → Option α) (shown : List α) (slots : List (Option α))
    (others : Nat) :
    keepInTurn keep shown slots (others + slots.countP Option.isSome) =
      (SlotTable.keepInTurn keep shown slots,
        others + (SlotTable.keepInTurn keep shown slots).countP Option.isSome) := by
  induction slots generalizing shown others with
  | nil => rfl
  | cons slot slots ih =>
    cases slot with
    | none => simp [keepInTurn, SlotTable.keepInTurn, ih]
    | some value =>
      have hcount : (some value :: slots).countP Option.isSome =
          slots.countP Option.isSome + 1 := List.countP_cons_of_pos rfl
      unfold keepInTurn SlotTable.keepInTurn
      rw [hcount]
      cases hleft : keep shown value with
      | none =>
        have hdown : others + (slots.countP Option.isSome + 1) - 1 =
            others + slots.countP Option.isSome := rfl
        simp [hdown, ih]
      | some left =>
        have hsame : others + (slots.countP Option.isSome + 1) =
            (others + 1) + slots.countP Option.isSome := by omega
        simp [hsame, ih]
        omega

namespace Counts

variable {t : CountedTable α}

lemma insert (h : t.Counts) (value : α) : (t.insert value).2.Counts := by
  unfold Counts at h ⊢
  simp [CountedTable.insert, SlotTable.len, h]

lemma modify (h : t.Counts) (handle : Handle) (change : α → α) :
    (t.modify handle change).Counts := by
  have hlen := congrArg List.length
    (t.toSlotTable.map_toList_modify handle (f := change) (g := fun _ => ()) fun _ => rfl)
  rw [List.length_map, List.length_map] at hlen
  unfold Counts at h ⊢
  rw [SlotTable.len_eq_length_toList] at h ⊢
  exact h.trans hlen.symm

lemma remove (h : t.Counts) (handle : Handle) :
    (t.remove handle).2.toSlotTable = (t.toSlotTable.remove handle).2 ∧
      (t.remove handle).2.Counts := by
  unfold CountedTable.remove SlotTable.remove
  cases hv : t.get? handle with
  | none => exact ⟨rfl, h⟩
  | some value =>
    refine ⟨rfl, ?_⟩
    obtain ⟨before, after, hl, hl'⟩ := SlotTable.split_of_remove hv
    unfold SlotTable.remove at hl'
    rw [hv] at hl'
    unfold Counts at h ⊢
    rw [SlotTable.len_eq_length_toList] at h ⊢
    change t.live - 1 = _
    rw [hl', h, hl, List.length_append, List.length_append, List.length_cons]
    rfl

lemma compact (h : t.Counts) :
    t.compact.toSlotTable = t.toSlotTable.compact ∧ t.compact.Counts := by
  have hfull : t.live = t.slots.length ↔ t.slots.all Option.isSome = true := by
    rw [h, List.all_eq_true]
    exact List.countP_eq_length
  unfold CountedTable.compact SlotTable.compact
  by_cases hall : t.slots.all Option.isSome = true
  · rw [if_pos (hfull.mpr hall), if_pos hall]
    exact ⟨rfl, h⟩
  · rw [if_neg (mt hfull.mp hall), if_neg hall]
    refine ⟨rfl, ?_⟩
    unfold Counts at h ⊢
    rw [h]
    simp [SlotTable.len, List.countP_filter]

lemma retain (h : t.Counts) (keep : List α → α → Option α) :
    (t.retain keep).toSlotTable = t.toSlotTable.retainInTurn keep ∧ (t.retain keep).Counts := by
  have hcounted := keepInTurn_eq keep [] t.slots 0
  rw [Nat.zero_add, Nat.zero_add] at hcounted
  unfold CountedTable.retain
  rw [show t.live = t.slots.countP Option.isSome from h, hcounted]
  exact compact (t := ⟨⟨SlotTable.keepInTurn keep [] t.slots, t.generation⟩, _⟩) rfl

/-- Each call leaves the slots as without the count, and the count right. -/
lemma run (h : t.Counts) (call : TableCall α) :
    (CountedTable.run call t).toSlotTable = call.run t.toSlotTable ∧
      (CountedTable.run call t).Counts := by
  cases call with
  | insert value => exact ⟨rfl, h.insert value⟩
  | get _ => exact ⟨rfl, h⟩
  | modify handle change => exact ⟨rfl, h.modify handle change⟩
  | remove handle => exact h.remove handle
  | retain keep => exact h.retain keep
  | compact => exact h.compact
  | list => exact ⟨rfl, h⟩

lemma runAll (h : t.Counts) (calls : List (TableCall α)) :
    (CountedTable.runAll calls t).toSlotTable = TableCall.runAll calls t.toSlotTable ∧
      (CountedTable.runAll calls t).Counts := by
  induction calls generalizing t with
  | nil => exact ⟨rfl, h⟩
  | cons call calls ih =>
    obtain ⟨hcall, hcounts⟩ := h.run call
    obtain ⟨hothers, hlast⟩ := ih hcounts
    refine ⟨?_, hlast⟩
    rw [hcall] at hothers
    exact hothers

end Counts

end CountedTable

end NamedRelay
