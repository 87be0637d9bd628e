import NamedRelay.Proofs.Numbering
import NamedRelay.Proofs.SweepWalk

/-!
# What a sweep leaves

The tables of a relay after a sweep, in terms of those before it and of the faces that are there
once the interests that have not expired are sent again.
-/

namespace NamedRelay

namespace PendingInterest

/-- Without the faces, as arrival face and as waiters. -/
def withoutFaces (e : PendingInterest) (ids : List FaceId) : PendingInterest :=
  { e with
    arrival := e.arrival.filter fun id => !ids.contains id
    waiters := e.waiters.filter fun w => !ids.contains w.face }

def retried (e : PendingInterest) : PendingInterest :=
  { e with retries := e.retries + 1 }

lemma withoutFaces_nil (e : PendingInterest) : e.withoutFaces [] = e := by
  have harrival : e.arrival.filter (fun id => !([] : List FaceId).contains id) = e.arrival := by
    cases e.arrival with
    | none => rfl
    | some id => rfl
  have hwaiters : e.waiters.filter (fun w => !([] : List FaceId).contains w.face) = e.waiters :=
    List.filter_eq_self.mpr fun _ _ => rfl
  unfold withoutFaces
  rw [harrival, hwaiters]

lemma withoutFaces_cons (e : PendingInterest) (gone : FaceId) (ids : List FaceId) :
    e.withoutFaces (gone :: ids) = (e.withoutFace gone).withoutFaces ids := by
  have harrival : e.arrival.filter (fun id => !(gone :: ids).contains id) =
      (if e.arrival = some gone then none else e.arrival).filter fun id => !ids.contains id := by
    cases e.arrival with
    | none => rfl
    | some id =>
      by_cases hid : id = gone
      · simp [hid]
      · simp [hid, Option.filter]
  have hwaiters : e.waiters.filter (fun w => !(gone :: ids).contains w.face) =
      (e.waiters.filter (·.face != gone)).filter fun w => !ids.contains w.face := by
    rw [List.filter_filter]
    congr 1
    funext w
    by_cases hw : w.face = gone
    · simp [hw]
    · simp [hw]
  unfold withoutFaces withoutFace
  rw [harrival, hwaiters]

lemma isAbandoned_withoutFaces_iff (e : PendingInterest) (ids : List FaceId) :
    (e.withoutFaces ids).isAbandoned = true ↔
      e.isLocal = false ∧ ∀ id ∈ e.waiting, ids.contains id = true := by
  unfold isAbandoned withoutFaces waiting
  rw [Bool.and_eq_true, and_comm, List.forall_mem_map]
  simp [isLocal, List.isEmpty_iff, List.filter_eq_nil_iff]

/-- An entry without waiters has none without further faces. -/
lemma isAbandoned_withoutFaces {e : PendingInterest} (h : e.isAbandoned = true)
    (ids : List FaceId) : (e.withoutFaces ids).isAbandoned = true := by
  simp only [isAbandoned, Bool.and_eq_true, List.isEmpty_iff] at h ⊢
  refine ⟨?_, h.2⟩
  unfold withoutFaces
  dsimp only
  rw [h.1, List.filter_nil]

/-- An entry that nobody wants any more is not wanted without further faces either, so it is enough
to look at the end. -/
lemma wanted_withoutFaces (entries : List PendingInterest) (ids : List FaceId) :
    (((entries.filter fun e => !e.isAbandoned).map fun e => e.withoutFaces ids).filter
        fun e => !e.isAbandoned) =
      (entries.map fun e => e.withoutFaces ids).filter fun e => !e.isAbandoned := by
  rw [List.filter_map, List.filter_map, List.filter_filter]
  congr 1
  apply List.filter_congr
  intro e _
  cases hgone : e.isAbandoned with
  | true => simp [isAbandoned_withoutFaces hgone ids]
  | false => simp

/-- Forgetting a face that an entry does not name changes nothing. -/
lemma withoutFace_of_not_named {e : PendingInterest} {gone : FaceId}
    (harrival : e.arrival ≠ some gone) (hwaiting : gone ∉ e.waiting) : e.withoutFace gone = e := by
  have hothers : ∀ w ∈ e.waiters, (w.face != gone) = true := by
    intro w hw
    rw [bne_iff_ne]
    rintro rfl
    exact hwaiting (List.mem_map_of_mem hw)
  unfold withoutFace
  rw [if_neg harrival, List.filter_eq_self.mpr hothers]

end PendingInterest

namespace Relay

variable {σ κ : Type}

/-! ## Removing faces -/

lemma toList_pending_withoutFace (r : Relay σ κ) (gone : FaceId) :
    (r.withoutFace gone).pending.toList =
      (r.pending.toList.map fun e => e.withoutFace gone).filter fun e => !e.isAbandoned := by
  unfold withoutFace PendingTable.removeFace
  rw [SlotTable.toList_retain, List.filter_map]
  apply filterMap_eq_map_filter
  intro e
  unfold PendingInterest.forgetFace?
  by_cases hgone : (e.withoutFace gone).isAbandoned = true
  · simp [hgone]
  · simp [hgone]

lemma Linked.withoutFace_eq {r : Relay σ κ} (hl : r.Linked) {gone : FaceId}
    (hdead : ¬r.isLive gone = true) {e : PendingInterest} (he : e ∈ r.pending.toList) :
    e.withoutFace gone = e := by
  apply PendingInterest.withoutFace_of_not_named
  · intro harrival
    exact hdead (hl.arrivals e he gone harrival)
  · intro hwaiting
    exact hdead (hl.waiting e he gone hwaiting)

/-- Entries forget the faces that are removed, and those that nobody wants any more go. -/
lemma toList_pending_removeFaces {r : Relay σ κ} (hl : r.Linked)
    (hwanted : ∀ e ∈ r.pending.toList, e.isAbandoned = false) (ids : List FaceId) :
    (r.removeFaces ids).pending.toList =
      (r.pending.toList.map fun e => e.withoutFaces ids).filter fun e => !e.isAbandoned := by
  induction ids generalizing r with
  | nil =>
    have hsame : r.pending.toList.map (fun e => e.withoutFaces []) = r.pending.toList := by
      simp [PendingInterest.withoutFaces_nil]
    rw [hsame]
    refine (List.filter_eq_self.mpr ?_).symm
    intro e he
    rw [hwanted e he]
    rfl
  | cons gone ids ih =>
    rw [removeFaces_cons]
    simp only [PendingInterest.withoutFaces_cons]
    by_cases hlive : r.isLive gone = true
    · rw [removeFace_of_live hlive]
      have hkept : ∀ e ∈ (r.withoutFace gone).pending.toList, e.isAbandoned = false := by
        intro e he
        rw [toList_pending_withoutFace, List.mem_filter] at he
        simpa using he.2
      rw [ih (hl.withoutFace gone) hkept, toList_pending_withoutFace]
      rw [PendingInterest.wanted_withoutFaces, List.map_map]
      rfl
    · rw [removeFace_of_not_live hlive, ih hl hwanted]
      congr 1
      apply List.map_congr_left
      intro e he
      rw [hl.withoutFace_eq hlive he]

/-- The routes that lead to the faces go with them. -/
lemma routes_removeFaces {r : Relay σ κ} (hl : r.Linked) (ids : List FaceId) :
    (r.removeFaces ids).table.routes =
      r.table.routes.filter fun route => route.face.all fun id => !ids.contains id := by
  induction ids generalizing r with
  | nil =>
    refine (List.filter_eq_self.mpr ?_).symm
    intro route _
    cases route.face with
    | none => rfl
    | some id => rfl
  | cons gone ids ih =>
    rw [removeFaces_cons]
    by_cases hlive : r.isLive gone = true
    · rw [removeFace_of_live hlive, ih (hl.withoutFace gone)]
      unfold withoutFace ForwardingTable.removeFace
      rw [List.filter_filter]
      apply List.filter_congr
      intro route _
      cases route.face with
      | none => rfl
      | some id =>
        by_cases hid : id = gone
        · simp [hid]
        · simp [hid]
    · rw [removeFace_of_not_live hlive, ih hl]
      apply List.filter_congr
      intro route hroute
      cases hface : route.face with
      | none => rfl
      | some id =>
        have hid : id ≠ gone := by
          rintro rfl
          exact hlive (hl.routes id ⟨route, hroute, hface⟩)
        simp [hid]

/-- Nothing else goes. -/
lemma exists_removeFaces_eq (r : Relay σ κ) (ids : List FaceId) :
    ∃ faces pending table, r.removeFaces ids = { r with faces, pending, table } := by
  induction ids generalizing r with
  | nil => exact ⟨r.faces, r.pending, r.table, rfl⟩
  | cons gone ids ih =>
    have hone : ∃ faces pending table, (r.removeFace gone).2 = { r with faces, pending, table } := by
      unfold removeFace
      split
      · exact ⟨r.faces, r.pending, r.table, rfl⟩
      · exact ⟨_, _, _, rfl⟩
    obtain ⟨_, _, _, hone⟩ := hone
    obtain ⟨faces, pending, table, hrest⟩ := ih (r.removeFace gone).2
    refine ⟨faces, pending, table, ?_⟩
    rw [removeFaces_cons, hrest, hone]

/-! ## The content store and the pending table -/

lemma PendingSound.isAbandoned_eq_false {r : Relay σ κ} (hs : r.PendingSound) {e : PendingInterest}
    (he : e ∈ r.pending.toList) : e.isAbandoned = false := by
  rw [PendingInterest.isAbandoned_eq_false_iff]
  by_cases hnone : e.waiting = []
  · exact .inr ((hs.entries e he).wanted hnone)
  · exact .inl hnone

/-- Pinned content stays, and so does content that was used lately. -/
def staysCached (r : Relay σ κ) (c : CachedContent) : Bool :=
  c.flags.isStatic || !c.lastUsed.hasElapsed r.config.contentTimeout r.clock

/-- Content that is not pinned is stale once its freshness is over. -/
def withAge (r : Relay σ κ) (c : CachedContent) : CachedContent :=
  if !c.flags.isStatic && c.packet.freshness.any fun freshness =>
      c.lastUsed.hasElapsed freshness r.clock then
    c.markStale
  else c

lemma toList_ageStore (r : Relay σ κ) :
    r.ageStore.store.entries.toList =
      (r.store.entries.toList.filter r.staysCached).map r.withAge := by
  unfold ageStore
  rw [SlotTable.toList_retain]
  apply filterMap_eq_map_filter
  intro c
  rw [CachedContent.age?_eq]
  unfold staysCached withAge
  cases c.flags.isStatic with
  | true => rfl
  | false =>
    cases c.lastUsed.hasElapsed r.config.contentTimeout r.clock with
    | true => rfl
    | false => exact (apply_ite some _ _ _).symm

lemma toList_aged (r : Relay σ κ) :
    r.aged.pending.toList = r.resent.map PendingInterest.retried := by
  unfold aged resent isExpired
  rw [SlotTable.toList_retain]
  apply filterMap_eq_map_filter
  intro e
  unfold PendingInterest.age?
  cases e.isExpired r.config.maxRetransmits r.clock with
  | true => rfl
  | false => rfl

variable [Scheduler σ]

/-- The interests are sent as if the tables were not swept yet. -/
lemma agePending_eq (r : Relay σ κ) :
    r.ageStore.agePending = r.retransmitted.updateTables fun t =>
      { store := r.ageStore.store
        pending := r.aged.pending
        timeouts := t.timeouts + UInt64.ofNat (r.pending.toList.countP r.isExpired) } := by
  rw [List.countP_eq_length_filter]
  exact r.propagateAll_updateTables (fun t =>
    { store := r.ageStore.store
      pending := r.aged.pending
      timeouts := t.timeouts + UInt64.ofNat (r.pending.toList.filter r.isExpired).length }) r.resent

/-- What a sweep leaves. The faces are those that are there once the interests are sent again, which
may have brought new ones. -/
structure Sweeps (r s : Relay σ κ) : Prop where
  cached : s.store.entries.toList = (r.store.entries.toList.filter r.staysCached).map r.withAge
  /-- Every interest that has not expired is sent once. -/
  sent : ∃ parts, r.Hands r.retransmitted parts.flatten ∧ List.Forall₂ r.Spreads r.resent parts
  pending : s.pending.toList = ((r.resent.map PendingInterest.retried).map fun e =>
    e.withoutFaces r.retransmitted.outdated).filter fun e => !e.isAbandoned
  timeouts : s.counters.interestTimeouts = r.counters.interestTimeouts +
    UInt64.ofNat (r.pending.toList.countP r.isExpired)
  faces : s.faces.faces = r.retransmitted.faces.faces.filter fun f =>
    f.flags.isStatic || !f.lastUsed.hasElapsed r.config.faceTimeout r.clock
  routes : s.table.routes = r.table.routes.filter fun route =>
    route.face.all fun id => !r.retransmitted.outdated.contains id
  /-- All else is as the sending leaves it. -/
  others : s = { r.retransmitted with
    store := { r.store with entries := s.store.entries }
    pending := s.pending
    faces := s.faces
    table := s.table
    counters := { r.retransmitted.counters with
      interestTimeouts := s.counters.interestTimeouts } }

lemma doAgeing_eq (r : Relay σ κ) :
    r.doAgeing = r.ageStore.agePending.removeFaces r.retransmitted.outdated := by
  unfold doAgeing
  rw [ageFaces_eq, agePending_eq]
  rfl

omit [Scheduler σ] in
/-- The number of a face tells whether it is out of date. -/
lemma contains_outdated {r : Relay σ κ} (h : r.faces.Numbered) {f : Face σ}
    (hf : f ∈ r.faces.faces) :
    r.outdated.contains f.id = f.isExpired r.config.faceTimeout r.clock := by
  rw [Bool.eq_iff_iff, List.contains_iff_mem]
  unfold outdated
  rw [List.mem_map]
  constructor
  · rintro ⟨g, hg, hid⟩
    obtain ⟨hmem, hexpired⟩ := List.mem_filter.mp hg
    obtain rfl := h.eq_of_id hmem hf hid
    exact hexpired
  · intro hexpired
    exact ⟨f, List.mem_filter.mpr ⟨hf, hexpired⟩, rfl⟩

lemma faces_agePending (r : Relay σ κ) : r.ageStore.agePending.faces = r.retransmitted.faces := by
  rw [agePending_eq]
  rfl

lemma numbered_retransmitted {r : Relay σ κ} (h : r.faces.Numbered) :
    r.retransmitted.faces.Numbered :=
  numbered_of_moves (Moves.foldl Moves.propagate r.resent r) h

lemma doAgeing_sweeps {r : Relay σ κ} (hl : r.Linked) (hs : r.PendingSound)
    (hnumbered : r.faces.Numbered) : r.Sweeps r.doAgeing := by
  obtain ⟨parts, hsends, hspreads⟩ := retransmitted_spreads hl
  have hkeeps := hsends.toKeeps
  have hlinked : r.ageStore.agePending.Linked := hl.swept.propagateAll r.resent
  have hpending : r.ageStore.agePending.pending = r.aged.pending := by
    rw [agePending_eq]
    rfl
  have hwanted : ∀ e ∈ r.ageStore.agePending.pending.toList, e.isAbandoned = false := by
    rw [hpending]
    exact fun _ => hs.aged.isAbandoned_eq_false
  have htable : r.ageStore.agePending.table = r.table := by
    rw [agePending_eq]
    exact hkeeps.table
  obtain ⟨faces, pending, table, hrest⟩ :=
    r.ageStore.agePending.exists_removeFaces_eq r.retransmitted.outdated
  have hremoved := r.doAgeing_eq
  refine ⟨?_, ⟨parts, hsends.toHands, hspreads⟩, ?_, ?_, ?_, ?_, ?_⟩
  · rw [hremoved, hrest, agePending_eq]
    exact r.toList_ageStore
  · rw [hremoved, toList_pending_removeFaces hlinked hwanted, hpending, toList_aged]
  · have htimeouts : r.retransmitted.counters.interestTimeouts = r.counters.interestTimeouts :=
      congrArg Tables.timeouts (r.tables_propagateAll r.resent)
    rw [hremoved, hrest, agePending_eq, ← htimeouts]
    rfl
  · rw [hremoved, faces_removeFaces, faces_agePending]
    apply List.filter_congr
    intro f hf
    rw [contains_outdated (numbered_retransmitted hnumbered) hf, hkeeps.config, hkeeps.clock]
    unfold Face.isExpired
    rw [Bool.not_and, Bool.not_not]
  · rw [hremoved, routes_removeFaces hlinked, htable]
  · rw [hremoved, hrest, agePending_eq]
    rfl

end Relay

/-- A sweep leaves exactly what has not timed out. Pinned content and content that was used lately
stays in order, and goes stale when its freshness is over. Each interest that has not expired is
sent once and has one more retry; it forgets the faces that are removed, and goes with the last one
that waits on it unless the application asked as well. The other interests are counted. Of the
faces, those that the sending brought included, the static ones and those in use stay, and the
routes to the other ones go. As long as every slot has a handle, all this is what it comes to if the
sweep goes through the slots of the two tables while they change. -/
theorem ageing_sweep_is_exact {σ κ : Type} [Scheduler σ] [CacheStrategy κ] {r : Relay σ κ}
    (h : Reachable r) :
    r.Sweeps r.doAgeing ∧
      (r.store.entries.slots.length ≤ UInt32.size → r.pending.slots.length ≤ UInt32.size →
        r.sweepBySlots = r.doAgeing) :=
  ⟨Relay.doAgeing_sweeps h.linked h.pendingSound h.numbered, Relay.sweepBySlots_eq⟩

namespace Sample

/-- The first peer has long asked for other content than the second one, who has just asked for `x`,
and the store has content that is no longer fresh. -/
def overdue : Relay Allowance CachePolicy :=
  Operation.runAll [.addRoute name ⟨1⟩, .handleInterest ⟨1⟩ freshInterest, .addToCache fleeting,
    .advance config.faceTimeout, .handleInterest ⟨2⟩ (interest none)] peered

lemma reachable_overdue : Reachable overdue :=
  reachable_peered.runAll _

end Sample

/-- An interest is sent again and another one expires, content goes stale, and of three faces one is
left. -/
theorem overdue_relay_is_swept :
    Reachable Sample.overdue ∧ Sample.overdue.Sweeps Sample.overdue.doAgeing ∧
      Sample.overdue.sweepBySlots = Sample.overdue.doAgeing ∧
      Sample.overdue.resent.length = 1 ∧
      Sample.overdue.doAgeing.counters.interestTimeouts = 1 ∧
      Sample.overdue.doAgeing.store.entries.toList.map (fun c => c.flags.stale) = [true] ∧
      Sample.overdue.doAgeing.faces.faces.map Face.id = [⟨2⟩] ∧
      Sample.overdue.doAgeing.table.routes = [] := by
  obtain ⟨hsweeps, hslots⟩ := ageing_sweep_is_exact Sample.reachable_overdue
  exact ⟨Sample.reachable_overdue, hsweeps, hslots (by decide) (by decide), by decide, by decide,
    by decide, by decide, by decide⟩

end NamedRelay
