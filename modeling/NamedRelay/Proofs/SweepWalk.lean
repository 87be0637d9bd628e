import NamedRelay.Proofs.Retransmission
import NamedRelay.Proofs.SlotVisits

/-!
# A sweep, slot by slot

A sweep may be done on the tables themselves: a cursor moves over the slots, and the entry of each
filled slot is removed, changed or sent again before the cursor moves on. As long as every slot has
a handle, no entry is skipped and none is visited twice, and this leaves what a sweep leaves.
-/

namespace NamedRelay

def CachedContent.markStale (e : CachedContent) : CachedContent :=
  { e with flags := { e.flags with stale := true } }

lemma CachedContent.age?_eq (timeout : UInt64) (now : Timestamp) (e : CachedContent) :
    e.age? timeout now =
      if e.flags.isStatic then some e
      else if e.lastUsed.hasElapsed timeout now then none
      else if e.packet.freshness.any fun freshness => e.lastUsed.hasElapsed freshness now then
        some e.markStale
      else some e :=
  rfl

namespace Relay

variable {σ κ : Type}

/-! ## The content store -/

/-- A sweep comes to a cached entry. -/
def visitContent (r : Relay σ κ) (h : Handle) : Relay σ κ :=
  match r.store.get? h with
  | none => r
  | some e =>
    if !e.flags.isStatic && e.lastUsed.hasElapsed r.config.contentTimeout r.clock then
      { r with store := (r.store.remove h).2 }
    else if !e.flags.isStatic && !e.flags.stale &&
        e.packet.freshness.any fun freshness => e.lastUsed.hasElapsed freshness r.clock then
      { r with store := r.store.modify h CachedContent.markStale }
    else r

def sweepStore (r : Relay σ κ) : Relay σ κ :=
  let visited := SlotTable.visitAll (fun m : Relay σ κ => m.store.entries) visitContent
    r.store.entries.slots.length r.store.entries.cursor r
  { visited with store := visited.store.compact }

/-- The settings that a sweep goes by. -/
def SameTime (r m : Relay σ κ) : Prop :=
  m.config = r.config ∧ m.clock = r.clock

lemma visitContent_visits (r : Relay σ κ) :
    SlotTable.Visits r.SameTime (fun m => m.store.entries)
      (fun m entries => { m with store := { m.store with entries } }) visitContent (fun m _ => m)
      (CachedContent.age? r.config.contentTimeout r.clock) where
  visit {m position e} hgood hposition hslot := by
    obtain ⟨hconfig, hclock⟩ := hgood
    have hget : m.store.get? (m.store.entries.handleAt position) = some e :=
      SlotTable.get?_handleAt hposition hslot
    have hremoved := SlotTable.remove_handleAt hposition hslot
    have hmarked := SlotTable.modify_handleAt hposition hslot CachedContent.markStale
    have hsame := SlotTable.set_slot hslot
    unfold visitContent
    rw [hget, ← hconfig, ← hclock, CachedContent.age?_eq]
    dsimp only
    cases hstatic : e.flags.isStatic with
    | true => simp [hsame]
    | false =>
      cases helapsed : e.lastUsed.hasElapsed m.config.contentTimeout m.clock with
      | true => simpa [ContentStore.remove] using hremoved
      | false =>
        cases hfresh : e.packet.freshness.any fun freshness =>
            e.lastUsed.hasElapsed freshness m.clock with
        | false => simp [hsame]
        | true =>
          cases hstale : e.flags.stale with
          | false => simpa [ContentStore.modify] using hmarked
          | true =>
            have hmark : e.markStale = e := by
              unfold CachedContent.markStale
              rw [← hstale]
            simp [hmark, hsame]
  good h := h
  table_withTable _ _ := rfl
  withTable_withTable _ _ _ := rfl
  withTable_table _ := rfl
  act_withTable _ _ _ := rfl

lemma sweepStore_eq {r : Relay σ κ} (hsize : r.store.entries.slots.length ≤ UInt32.size) :
    r.sweepStore = r.ageStore := by
  have hvisited := r.visitContent_visits.visitAll_cursor ⟨rfl, rfl⟩ hsize
  have hnothing : r.store.entries.toList.foldl (fun m _ => m) r = r := by
    generalize r.store.entries.toList = entries
    induction entries with
    | nil => rfl
    | cons e entries ih => exact ih
  dsimp only at hvisited
  rw [hnothing] at hvisited
  unfold sweepStore
  rw [hvisited]
  rfl

/-! ## The pending interests -/

variable [Scheduler σ]

/-- A sweep comes to a pending interest. -/
def visitPending (r : Relay σ κ) (h : Handle) : Relay σ κ :=
  match r.pending.get? h with
  | none => r
  | some e =>
    if r.isExpired e then
      let counted := r.tally fun c => { c with interestTimeouts := c.interestTimeouts + 1 }
      { counted with pending := (counted.pending.remove h).2 }
    else
      let sent := r.interestPropagate h
      { sent with
        pending := sent.pending.modify h fun e => { e with retries := e.retries + 1 } }

def sweepPending (r : Relay σ κ) : Relay σ κ :=
  let visited := SlotTable.visitAll (fun m : Relay σ κ => m.pending) visitPending
    r.pending.slots.length r.pending.cursor r
  { visited with pending := visited.pending.compact }

/-- A sweep that goes through the slots of both tables. -/
def sweepBySlots (r : Relay σ κ) : Relay σ κ :=
  r.sweepStore.sweepPending.ageFaces

/-- An interest that has expired is counted, and any other one is sent again. -/
def countOrSend (expired : PendingInterest → Bool) (r : Relay σ κ) (e : PendingInterest) :
    Relay σ κ :=
  if expired e then r.updateTables fun t => { t with timeouts := t.timeouts + 1 }
  else r.propagate e

lemma countOrSend_withPending (expired : PendingInterest → Bool) (r : Relay σ κ)
    (pending : PendingTable) (e : PendingInterest) :
    countOrSend expired { r with pending } e = { countOrSend expired r e with pending } := by
  unfold countOrSend
  split
  · rfl
  · exact r.propagate_updateTables (fun t => { t with pending }) e

/-- Counting and sending need not take turns. -/
lemma foldl_countOrSend (expired : PendingInterest → Bool) (entries : List PendingInterest)
    (r : Relay σ κ) :
    entries.foldl (countOrSend expired) r =
      ((entries.filter fun e => !expired e).foldl propagate r).updateTables fun t =>
        { t with timeouts := t.timeouts + UInt64.ofNat (entries.filter expired).length } := by
  induction entries generalizing r with
  | nil => simp [updateTables, withTables, tables]
  | cons e entries ih =>
    rw [List.foldl_cons, ih]
    unfold countOrSend
    cases hexpired : expired e with
    | true =>
      have hcount : ∀ n : UInt64, n + 1 + UInt64.ofNat (entries.filter expired).length =
          n + UInt64.ofNat ((e :: entries).filter expired).length := by
        intro n
        rw [List.filter_cons_of_pos hexpired, List.length_cons, Nat.add_comm, UInt64.ofNat_add,
          UInt64.add_assoc]
        rfl
      rw [if_pos rfl, propagateAll_updateTables, List.filter_cons_of_neg (by simp [hexpired])]
      simp only [← hcount]
      rfl
    | false => simp [hexpired]

lemma visitPending_visits (r : Relay σ κ) :
    SlotTable.Visits r.SameTime (fun m => m.pending) (fun m pending => { m with pending })
      visitPending (countOrSend r.isExpired)
      (PendingInterest.age? r.config.maxRetransmits r.clock) where
  visit {m position e} hgood hposition hslot := by
    obtain ⟨hconfig, hclock⟩ := hgood
    have hget : m.pending.get? (m.pending.handleAt position) = some e :=
      SlotTable.get?_handleAt hposition hslot
    have hexpired : m.isExpired e = r.isExpired e := by
      unfold isExpired
      rw [hconfig, hclock]
    have hleft : e.age? r.config.maxRetransmits r.clock =
        if r.isExpired e then none else some { e with retries := e.retries + 1 } := rfl
    unfold visitPending countOrSend
    rw [hget, hleft]
    dsimp only
    rw [hexpired]
    cases r.isExpired e with
    | true =>
      have hremoved := SlotTable.remove_handleAt hposition hslot
      change { m.updateTables (fun t => { t with timeouts := t.timeouts + 1 }) with
        pending := (m.pending.remove (m.pending.handleAt position)).2 } = _
      rw [hremoved]
      rfl
    | false =>
      have hsent : m.interestPropagate (m.pending.handleAt position) = m.propagate e := by
        unfold interestPropagate
        rw [hget]
      have hpending : (m.propagate e).pending = m.pending :=
        congrArg Tables.pending (m.tables_propagate e)
      have hretried := SlotTable.modify_handleAt hposition hslot fun e : PendingInterest =>
        { e with retries := e.retries + 1 }
      rw [hsent, hpending, hretried]
      rfl
  good {m e t} h := by
    have hkept : (countOrSend r.isExpired m e).config = m.config ∧
        (countOrSend r.isExpired m e).clock = m.clock := by
      unfold countOrSend
      split
      · exact ⟨rfl, rfl⟩
      · exact ⟨(m.propagate_keeps e).config, (m.propagate_keeps e).clock⟩
    exact ⟨hkept.1.trans h.1, hkept.2.trans h.2⟩
  table_withTable _ _ := rfl
  withTable_withTable _ _ _ := rfl
  withTable_table _ := rfl
  act_withTable m t e := countOrSend_withPending r.isExpired m t e

lemma sweepPending_eq {r : Relay σ κ} (hsize : r.pending.slots.length ≤ UInt32.size) :
    r.sweepPending = r.agePending := by
  have hvisited := r.visitPending_visits.visitAll_cursor ⟨rfl, rfl⟩ hsize
  unfold sweepPending
  dsimp only at hvisited
  rw [hvisited, foldl_countOrSend]
  unfold agePending
  change _ = (r.pending.toList.filter fun e => !r.isExpired e).foldl propagate
    (r.updateTables fun t => { t with
      pending := r.pending.retain (PendingInterest.age? r.config.maxRetransmits r.clock)
      timeouts := t.timeouts + UInt64.ofNat (r.pending.toList.filter r.isExpired).length })
  rw [propagateAll_updateTables]
  rfl

/-- Going through the slots skips no entry and visits none twice. -/
lemma sweepBySlots_eq {r : Relay σ κ} (hstore : r.store.entries.slots.length ≤ UInt32.size)
    (hpending : r.pending.slots.length ≤ UInt32.size) : r.sweepBySlots = r.doAgeing := by
  have hpending' : r.ageStore.pending.slots.length ≤ UInt32.size := hpending
  unfold sweepBySlots doAgeing
  rw [sweepStore_eq hstore, sweepPending_eq hpending']

end Relay

end NamedRelay
