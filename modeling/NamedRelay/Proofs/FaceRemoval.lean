import NamedRelay.Proofs.Sweep

/-!
# What goes with a face

The removal of a face takes its routes out of the forwarding table and the face out of the pending
interests, and those that nobody wants any more go. Nothing else changes, and it makes no difference
in which order faces are removed: the tables that are left differ in their generation only.
-/

namespace NamedRelay

namespace SlotTable

variable {α : Type}

/-- The slots that are left are those of the entries, so the generation has no part in them. -/
lemma slots_retain (t : SlotTable α) (f : α → Option α) :
    (t.retain f).slots = (t.toList.filterMap f).map some := by
  rw [(packed_retain t f).slots_eq, toList_retain]

end SlotTable

namespace PendingInterest

lemma withoutFaces_singleton (e : PendingInterest) (id : FaceId) :
    e.withoutFaces [id] = e.withoutFace id := by
  rw [withoutFaces_cons, withoutFaces_nil]

/-- Which faces an entry forgets is all that matters. -/
lemma withoutFaces_congr {ids ids' : List FaceId} (h : ∀ id, ids.contains id = ids'.contains id)
    (e : PendingInterest) : e.withoutFaces ids = e.withoutFaces ids' := by
  unfold withoutFaces
  simp only [h]

lemma withoutFace_comm (e : PendingInterest) (id other : FaceId) :
    (e.withoutFace id).withoutFace other = (e.withoutFace other).withoutFace id := by
  have hboth : ∀ id other, (e.withoutFace id).withoutFace other = e.withoutFaces [id, other] := by
    intro id other
    rw [withoutFaces_cons, withoutFaces_singleton]
  rw [hboth, hboth]
  apply withoutFaces_congr
  intro j
  simp [Bool.or_comm]

/-- An entry goes if it is abandoned once both faces are forgotten, whether it was abandoned before
or not. -/
lemma forgetFace?_bind (e : PendingInterest) (id other : FaceId) :
    (e.forgetFace? id).bind (forgetFace? other) =
      if ((e.withoutFace id).withoutFace other).isAbandoned then none
      else some ((e.withoutFace id).withoutFace other) := by
  unfold forgetFace?
  dsimp only
  cases hgone : (e.withoutFace id).isAbandoned with
  | false => rfl
  | true =>
    have hlater := isAbandoned_withoutFaces hgone [other]
    rw [withoutFaces_singleton] at hlater
    rw [hlater]
    rfl

lemma forgetFace?_comm (e : PendingInterest) (id other : FaceId) :
    (e.forgetFace? id).bind (forgetFace? other) = (e.forgetFace? other).bind (forgetFace? id) := by
  rw [forgetFace?_bind, forgetFace?_bind, withoutFace_comm]

/-- Somebody wants a sound entry, so it is abandoned with a face only if nobody else waits. -/
lemma Sound.isAbandoned_withoutFace_iff {e : PendingInterest} {limit : UInt32} (h : e.Sound limit)
    (id : FaceId) :
    (e.withoutFace id).isAbandoned = true ↔ e.waiting = [id] ∧ e.isLocal = false := by
  rw [← withoutFaces_singleton, isAbandoned_withoutFaces_iff, and_comm]
  apply and_congr_left
  intro hlocal
  constructor
  · intro hforgotten
    have hall : ∀ j ∈ e.waiting, j = id := by simpa using hforgotten
    have hreplicate := List.eq_replicate_of_mem hall
    have hatMost : e.waiting.length ≤ 1 := List.nodup_replicate.mp (hreplicate ▸ h.once)
    have hsome : e.waiting ≠ [] := by
      intro hnone
      rw [h.wanted hnone] at hlocal
      cases hlocal
    have hlength := Nat.le_antisymm hatMost (List.length_pos_of_ne_nil hsome)
    rw [hreplicate, hlength]
    rfl
  · intro hwaiting j hj
    simpa [hwaiting] using hj

end PendingInterest

lemma PendingTable.slots_removeFace (t : PendingTable) (id : FaceId) :
    (t.removeFace id).slots = (t.toList.filterMap (PendingInterest.forgetFace? id)).map some :=
  SlotTable.slots_retain t _

lemma PendingTable.slots_removeFace_comm (t : PendingTable) (id other : FaceId) :
    ((t.removeFace id).removeFace other).slots = ((t.removeFace other).removeFace id).slots := by
  have hboth : ∀ id other, ((t.removeFace id).removeFace other).slots =
      (t.toList.filterMap fun e =>
        (e.forgetFace? id).bind (PendingInterest.forgetFace? other)).map some := by
    intro id other
    rw [slots_removeFace, removeFace, SlotTable.toList_retain, List.filterMap_filterMap]
  rw [hboth, hboth]
  congr 2
  funext e
  exact e.forgetFace?_comm id other

namespace Relay

variable {σ κ : Type}

/-- The relay with its pending interests in their slots, and no account of how often the slots were
moved together. -/
def unstamped (r : Relay σ κ) : Relay σ κ :=
  { r with pending := { r.pending with generation := 0 } }

/-- What the removal of a face leaves: the other faces, the routes that do not lead to it, and the
pending interests without it, but for those that it was the only one to want; all in their order.
Nothing else changes. -/
structure LosesFace (r s : Relay σ κ) (id : FaceId) : Prop where
  faces : s.faces = { r.faces with faces := r.faces.faces.filter fun f => f.id ≠ id }
  routes : s.table.routes = r.table.routes.filter fun route => route.face ≠ some id
  pending : s.pending.toList = (r.pending.toList.filter fun e =>
    ¬(e.waiting = [id] ∧ e.isLocal = false)).map fun e => e.withoutFace id
  others : s = { r with faces := s.faces, table := s.table, pending := s.pending }

lemma fst_removeFace {r : Relay σ κ} {id : FaceId} (hlive : r.isLive id = true) :
    (r.removeFace id).1 = .ok () := by
  obtain ⟨f, hf⟩ := Option.isSome_iff_exists.mp hlive
  unfold removeFace
  rw [hf]

lemma losesFace_of_live {r : Relay σ κ} (hs : r.PendingSound) {id : FaceId}
    (hlive : r.isLive id = true) : r.LosesFace (r.removeFace id).2 id := by
  rw [removeFace_of_live hlive]
  refine ⟨?_, ?_, ?_, rfl⟩
  · unfold withoutFace FaceRegistry.erase
    dsimp only
    congr 1
    apply List.filter_congr
    intro f _
    rw [decide_not, ← beq_eq_decide, bne]
  · unfold withoutFace ForwardingTable.removeFace
    dsimp only
    apply List.filter_congr
    intro route _
    rw [decide_not, ← beq_eq_decide, bne]
  · rw [toList_pending_withoutFace, List.filter_map]
    congr 1
    apply List.filter_congr
    intro e he
    rw [Function.comp_apply, Bool.eq_iff_iff, Bool.not_eq_true', ← Bool.not_eq_true,
      (hs.entries e he).isAbandoned_withoutFace_iff, decide_eq_true_iff]

/-! ## Two faces -/

lemma withoutFace_comm (r : Relay σ κ) (id other : FaceId) :
    ((r.withoutFace id).withoutFace other).unstamped =
      ((r.withoutFace other).withoutFace id).unstamped := by
  have hfaces : (r.faces.erase id).erase other = (r.faces.erase other).erase id := by
    unfold FaceRegistry.erase
    rw [List.filter_comm]
  have htable : (r.table.removeFace id).removeFace other =
      (r.table.removeFace other).removeFace id := by
    unfold ForwardingTable.removeFace
    rw [List.filter_comm]
  have hslots := PendingTable.slots_removeFace_comm r.pending id other
  unfold unstamped withoutFace
  dsimp only
  rw [hfaces, htable, hslots]

/-- A face that is not there, or has gone with another one, is no matter. -/
lemma removeFace_comm (r : Relay σ κ) (id other : FaceId) :
    ((r.removeFace id).2.removeFace other).2.unstamped =
      ((r.removeFace other).2.removeFace id).2.unstamped := by
  by_cases hsame : other = id
  · rw [hsame]
  · have hid : (r.withoutFace other).isLive id = true ↔ r.isLive id = true := by
      rw [isLive_withoutFace]
      exact and_iff_left (Ne.symm hsame)
    have hother : (r.withoutFace id).isLive other = true ↔ r.isLive other = true := by
      rw [isLive_withoutFace]
      exact and_iff_left hsame
    by_cases hlive : r.isLive id = true
    · by_cases hlive' : r.isLive other = true
      · rw [removeFace_of_live hlive, removeFace_of_live hlive',
          removeFace_of_live (hother.mpr hlive'), removeFace_of_live (hid.mpr hlive)]
        exact r.withoutFace_comm id other
      · rw [removeFace_of_live hlive, removeFace_of_not_live hlive', removeFace_of_live hlive,
          removeFace_of_not_live (mt hother.mp hlive')]
    · by_cases hlive' : r.isLive other = true
      · rw [removeFace_of_live hlive', removeFace_of_not_live hlive, removeFace_of_live hlive',
          removeFace_of_not_live (mt hid.mp hlive)]
      · rw [removeFace_of_not_live hlive, removeFace_of_not_live hlive',
          removeFace_of_not_live hlive]

/-! ## Any number of faces -/

lemma removeFace_unstamped (r : Relay σ κ) (id : FaceId) :
    (r.unstamped.removeFace id).2.unstamped = (r.removeFace id).2.unstamped := by
  have hslots : (r.unstamped.pending.removeFace id).slots = (r.pending.removeFace id).slots := by
    rw [PendingTable.slots_removeFace, PendingTable.slots_removeFace]
    rfl
  by_cases hlive : r.isLive id = true
  · have hlive' : r.unstamped.isLive id = true := hlive
    rw [removeFace_of_live hlive, removeFace_of_live hlive']
    unfold withoutFace
    unfold unstamped at hslots ⊢
    dsimp only at hslots ⊢
    rw [hslots]
  · have hlive' : ¬r.unstamped.isLive id = true := hlive
    rw [removeFace_of_not_live hlive, removeFace_of_not_live hlive']
    rfl

/-- Relays that differ in the generation only do so after the same removals. -/
lemma removeFaces_congr {r s : Relay σ κ} (h : r.unstamped = s.unstamped) (ids : List FaceId) :
    (r.removeFaces ids).unstamped = (s.removeFaces ids).unstamped := by
  induction ids generalizing r s with
  | nil => exact h
  | cons id ids ih =>
    rw [removeFaces_cons, removeFaces_cons]
    apply ih
    rw [← r.removeFace_unstamped, h, s.removeFace_unstamped]

lemma removeFaces_perm {ids ids' : List FaceId} (h : ids.Perm ids') (r : Relay σ κ) :
    (r.removeFaces ids).unstamped = (r.removeFaces ids').unstamped := by
  induction h generalizing r with
  | nil => rfl
  | cons id _ ih => exact ih (r.removeFace id).2
  | swap id other ids =>
    simp only [removeFaces_cons]
    exact removeFaces_congr (r.removeFace_comm other id) ids
  | trans _ _ ih ih' => exact (ih r).trans (ih' r)

lemma doAgeing_of_perm [Scheduler σ] {r : Relay σ κ} {ids : List FaceId}
    (h : ids.Perm r.ageStore.agePending.outdated) :
    (r.ageStore.agePending.removeFaces ids).unstamped = r.doAgeing.unstamped := by
  unfold doAgeing
  rw [ageFaces_eq]
  exact removeFaces_perm h _

end Relay

/-- In every reachable relay a face goes with exactly what names it: its routes, its places in the
pending interests, and those of them that it was the only one to want. Two faces may be removed in
either order. What is left is the same, only that the pending interests may have got new handles
once more or less; so a sweep may remove the faces that have timed out in any order. -/
theorem faces_go_with_what_names_them {σ κ : Type} [Scheduler σ] [CacheStrategy κ] {r : Relay σ κ}
    (h : Reachable r) :
    (∀ id, r.isLive id = true →
      (r.removeFace id).1 = .ok () ∧ r.LosesFace (r.removeFace id).2 id) ∧
    (∀ id other, r.isLive id = true → r.isLive other = true → id ≠ other →
      ((r.removeFace id).2.removeFace other).1 = .ok () ∧
      ((r.removeFace id).2.removeFace other).2.unstamped =
        ((r.removeFace other).2.removeFace id).2.unstamped) ∧
    ∀ ids, ids.Perm r.ageStore.agePending.outdated →
      (r.ageStore.agePending.removeFaces ids).unstamped = r.doAgeing.unstamped := by
  refine ⟨?_, ?_, fun ids => Relay.doAgeing_of_perm⟩
  · intro id hlive
    exact ⟨Relay.fst_removeFace hlive, Relay.losesFace_of_live h.pendingSound hlive⟩
  · intro id other hlive hlive' hne
    refine ⟨?_, r.removeFace_comm id other⟩
    apply Relay.fst_removeFace
    rw [Relay.removeFace_of_live hlive, Relay.isLive_withoutFace]
    exact ⟨hlive', hne.symm⟩

namespace Sample

/-- A peer with a route waits alone for one content, with the other peer for another, and with the
application for a third. -/
def entangled : Relay Allowance CachePolicy :=
  Operation.runAll [.addRoute name ⟨1⟩, .handleInterest ⟨1⟩ (interest none),
    .handleInterest ⟨2⟩ (interest none), .handleInterest ⟨1⟩ freshInterest,
    .handleInterest ⟨1⟩ (interestByDigest 6), .expressInterest (interestByDigest 6)] peered

lemma reachable_entangled : Reachable entangled :=
  reachable_peered.runAll _

end Sample

/-- Whoever of the peers goes first, only what the application waits for is left, and the slots are
moved together twice or once. Faces 1 and 3 time out together, and may go in the other order. -/
theorem entangled_faces_go_in_either_order :
    Sample.entangled.LosesFace (Sample.entangled.removeFace ⟨1⟩).2 ⟨1⟩ ∧
      Sample.entangled.pending.toList.map PendingInterest.waiting = [[⟨1⟩, ⟨2⟩], [⟨1⟩], [⟨1⟩]] ∧
      (Sample.entangled.removeFace ⟨1⟩).2.pending.toList.map PendingInterest.waiting =
        [[⟨2⟩], []] ∧
      ((Sample.entangled.removeFace ⟨1⟩).2.removeFace ⟨2⟩).2.unstamped =
        ((Sample.entangled.removeFace ⟨2⟩).2.removeFace ⟨1⟩).2.unstamped ∧
      ((Sample.entangled.removeFace ⟨1⟩).2.removeFace ⟨2⟩).2.pending.generation = 2 ∧
      ((Sample.entangled.removeFace ⟨2⟩).2.removeFace ⟨1⟩).2.pending.generation = 1 ∧
      Sample.overdue.ageStore.agePending.outdated = [⟨1⟩, ⟨3⟩] ∧
      (Sample.overdue.ageStore.agePending.removeFaces [⟨3⟩, ⟨1⟩]).unstamped =
        Sample.overdue.doAgeing.unstamped := by
  obtain ⟨hone, htwo, -⟩ := faces_go_with_what_names_them Sample.reachable_entangled
  obtain ⟨-, -, hageing⟩ := faces_go_with_what_names_them Sample.reachable_overdue
  have hlive : Sample.entangled.isLive ⟨1⟩ = true := by decide
  have houtdated : Sample.overdue.ageStore.agePending.outdated = [⟨1⟩, ⟨3⟩] := by decide
  have hswap : ([⟨3⟩, ⟨1⟩] : List FaceId).Perm Sample.overdue.ageStore.agePending.outdated := by
    rw [houtdated]
    exact List.Perm.swap _ _ []
  exact ⟨(hone ⟨1⟩ hlive).2, by decide, by decide,
    (htwo ⟨1⟩ ⟨2⟩ hlive (by decide) (by decide)).2, by decide, by decide, houtdated,
    hageing _ hswap⟩

end NamedRelay
