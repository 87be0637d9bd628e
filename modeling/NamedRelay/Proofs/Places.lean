import NamedRelay.Proofs.Collapse

/-!
# Waiting places

Where a face waits in the pending table. An interest gives the face it comes in on at most one place
more, and an entry that is satisfied gives back the place of each face that waits on it. Nothing
else an operation does to the table makes new places.
-/

namespace NamedRelay

/-- The face waits on the entry, and the interest there is one of those counted. -/
def PendingInterest.counts (id : FaceId) (p : Packet → Bool) (e : PendingInterest) : Bool :=
  p e.packet && decide (id ∈ e.waiting)

namespace PendingTable

/-- The number of places where a face waits, on entries for the interests counted. -/
def places (t : PendingTable) (id : FaceId) (p : Packet → Bool) : Nat :=
  t.toList.countP (PendingInterest.counts id p)

/-- An entry found for an interest is counted if the interest is. -/
def Recognises (t : PendingTable) (p : Packet → Bool) : Prop :=
  ∀ interest h e, t.findSame? interest = some h → t.get? h = some e → p e.packet = p interest

variable {t : PendingTable} {p : Packet → Bool}

lemma recognises_true (t : PendingTable) : t.Recognises fun _ => true :=
  fun _ _ _ _ _ => rfl

/-- In a table whose slots all have handles, the entry found is for the request. -/
lemma recognises_request (hsize : t.slots.length ≤ UInt32.size) (request : Request) :
    t.Recognises fun interest => interest.request = request := by
  intro interest h e hfound hget
  obtain ⟨e', hget', hsame⟩ := SlotTable.get?_of_find? hsize hfound
  obtain rfl : e' = e := Option.some.inj (hget'.symm.trans hget)
  have hrequest : e'.packet.request = interest.request := (Packet.isSameInterest_iff _ _).mp hsame
  simp only [hrequest]

lemma places_true (t : PendingTable) (id : FaceId) :
    t.places id (fun _ => true) = t.toList.countP fun e => id ∈ e.waiting := by
  unfold places
  congr 1

lemma places_request (t : PendingTable) (id : FaceId) (request : Request) :
    (t.places id fun interest => interest.request = request) =
      t.toList.countP fun e => e.packet.request = request ∧ id ∈ e.waiting := by
  unfold places
  congr 1
  funext e
  simp [PendingInterest.counts]

lemma places_insert (t : PendingTable) (e : PendingInterest) (id : FaceId) (p : Packet → Bool) :
    places (t.insert e).2 id p = t.places id p + [e].countP (PendingInterest.counts id p) := by
  unfold places
  rw [SlotTable.toList_insert, List.countP_append]

/-- Entries may go, and those that are left may forget faces. -/
lemma places_retain_le {f : PendingInterest → Option PendingInterest}
    (hf : ∀ e e', f e = some e' → e'.packet = e.packet ∧ ∀ j ∈ e'.waiting, j ∈ e.waiting)
    (t : PendingTable) (id : FaceId) (p : Packet → Bool) :
    places (t.retain f) id p ≤ t.places id p := by
  unfold places
  rw [SlotTable.toList_retain]
  induction t.toList with
  | nil => exact Nat.le_refl 0
  | cons e entries ih =>
    cases he : f e with
    | none =>
      rw [List.filterMap_cons_none he, List.countP_cons]
      exact Nat.le_add_right_of_le ih
    | some e' =>
      obtain ⟨hpacket, hwaiting⟩ := hf e e' he
      have hcounts : e'.counts id p = true → e.counts id p = true := by
        unfold PendingInterest.counts
        rw [Bool.and_eq_true, Bool.and_eq_true, decide_eq_true_eq, decide_eq_true_eq, hpacket]
        exact And.imp_right (hwaiting id)
      rw [List.filterMap_cons_some he, List.countP_cons, List.countP_cons]
      split
      · rename_i hcounted
        rw [if_pos (hcounts hcounted)]
        exact Nat.add_le_add_right ih 1
      · exact Nat.le_add_right_of_le ih

/-- A change of one entry gives a face at most one more place, which it has to name. -/
lemma places_modify_le {h : Handle} {change : PendingInterest → PendingInterest} {asked : Nat}
    {id : FaceId} (hchange : ∀ e, t.get? h = some e →
      [change e].countP (PendingInterest.counts id p) ≤
        [e].countP (PendingInterest.counts id p) + asked) :
    places (t.modify h change) id p ≤ t.places id p + asked := by
  unfold places
  cases hget : t.get? h with
  | none =>
    rw [SlotTable.toList_modify_of_none hget]
    exact Nat.le_add_right _ _
  | some e =>
    obtain ⟨before, after, hl, hl'⟩ := SlotTable.split_of_get? hget
    have hone := hchange e hget
    rw [hl', hl, ← List.singleton_append, ← List.singleton_append (l := after)]
    simp only [List.countP_append]
    omega

end PendingTable

lemma PendingInterest.counts_addWaiter (e : PendingInterest) (j id : FaceId) (now : Timestamp)
    (p : Packet → Bool) : [e.addWaiter j now].countP (counts id p) ≤
      [e].countP (counts id p) + (if j = id then [e.packet] else []).countP p := by
  have hpacket : (e.addWaiter j now).packet = e.packet := by rw [addWaiter_eq]
  have hmem : id ∈ (e.addWaiter j now).waiting ↔ id ∈ e.waiting ∨ id = j := mem_waiting_addWaiter
  simp only [List.countP_singleton, counts, hpacket, hmem]
  by_cases hj : j = id
  · simp only [hj, or_true, decide_true, Bool.and_true, ite_true, List.countP_singleton]
    exact Nat.le_add_left _ _
  · simp [hj, Ne.symm hj]

namespace Relay

variable {σ κ : Type}

/-- An interest of another face takes a place in the pending table for that face only. -/
lemma places_pendingWith_le {r : Relay σ κ} {p : Packet → Bool} (hp : r.pending.Recognises p)
    (j id : FaceId) (interest : Packet) :
    (r.pendingWith j interest).places id p ≤
      r.pending.places id p + (if j = id then [interest] else []).countP p := by
  unfold pendingWith
  cases hfound : r.pending.findSame? interest with
  | some h =>
    apply PendingTable.places_modify_le
    intro e hget
    have hcounted := e.counts_addWaiter j id r.clock p
    have hsame : (if j = id then [e.packet] else []).countP p =
        (if j = id then [interest] else []).countP p := by
      split
      · simp [hp interest h e hfound hget]
      · rfl
    rwa [hsame] at hcounted
  | none =>
    dsimp only
    rw [PendingTable.places_insert]
    apply Nat.add_le_add_left
    by_cases hj : j = id
    · simp [hj, PendingInterest.counts, PendingInterest.fromFace, PendingInterest.waiting]
    · simp [hj, Ne.symm hj, PendingInterest.counts, PendingInterest.fromFace,
        PendingInterest.waiting]

lemma places_claimed_le (r : Relay σ κ) (h : Handle) (id : FaceId) (p : Packet → Bool) :
    PendingTable.places (r.pending.modify h fun e => { e with origin := .application }) id p ≤
      r.pending.places id p := by
  change _ ≤ r.pending.places id p + 0
  apply PendingTable.places_modify_le
  exact fun _ _ => Nat.le_refl _

lemma places_withoutFace_le (r : Relay σ κ) (j id : FaceId) (p : Packet → Bool) :
    (r.withoutFace j).pending.places id p ≤ r.pending.places id p := by
  apply PendingTable.places_retain_le
  intro e e' he
  obtain ⟨rfl, -⟩ := PendingInterest.forgetFace?_eq_some.mp he
  refine ⟨rfl, ?_⟩
  intro k hk
  rw [PendingInterest.waiting_withoutFace] at hk
  exact (List.mem_filter.mp hk).1

lemma places_aged_le (r : Relay σ κ) (id : FaceId) (p : Packet → Bool) :
    r.aged.pending.places id p ≤ r.pending.places id p := by
  apply PendingTable.places_retain_le
  intro e e' he
  obtain ⟨-, rfl⟩ := PendingInterest.age?_eq_some.mp he
  exact ⟨rfl, fun _ hj => hj⟩

lemma places_removeFace_le (r : Relay σ κ) (j id : FaceId) (p : Packet → Bool) :
    (r.removeFace j).2.pending.places id p ≤ r.pending.places id p := by
  by_cases hlive : r.isLive j = true
  · rw [removeFace_of_live hlive]
    exact r.places_withoutFace_le j id p
  · exact Nat.le_of_eq (by rw [removeFace_of_not_live hlive])

lemma places_removeFaces_le (r : Relay σ κ) (ids : List FaceId) (id : FaceId)
    (p : Packet → Bool) : (r.removeFaces ids).pending.places id p ≤ r.pending.places id p := by
  induction ids generalizing r with
  | nil => exact Nat.le_refl _
  | cons j ids ih => exact Nat.le_trans (ih _) (r.places_removeFace_le j id p)

/-- A satisfied entry that the face waits on gives its place back when it goes. -/
lemma places_withoutSatisfied_le {r : Relay σ κ} {content : Packet} {e : PendingInterest}
    {id : FaceId} (he : e ∈ r.pending.toList) (hsat : r.satisfies content e = true)
    (hid : id ∈ e.waiting) (p : Packet → Bool) :
    [e.packet].countP p + (r.withoutSatisfied content).pending.places id p ≤
      r.pending.places id p := by
  have hsplit := r.pending.toList.countP_eq_countP_filter_add (PendingInterest.counts id p)
    fun e => !r.satisfies content e
  have hgone : e ∈ r.pending.toList.filter fun e => !!r.satisfies content e := by
    simp [he, hsat]
  have hcounted : [e.packet].countP p ≤
      (r.pending.toList.filter fun e => !!r.satisfies content e).countP
        (PendingInterest.counts id p) := by
    cases hp : p e.packet with
    | false => simp [hp]
    | true =>
      have hcounts : e.counts id p = true := by simp [PendingInterest.counts, hp, hid]
      have hpos := List.countP_pos_iff.mpr ⟨e, hgone, hcounts⟩
      simpa [hp] using hpos
  unfold PendingTable.places
  rw [toList_withoutSatisfied]
  omega

lemma places_withoutSatisfied_le_places (r : Relay σ κ) (content : Packet) (id : FaceId)
    (p : Packet → Bool) :
    (r.withoutSatisfied content).pending.places id p ≤ r.pending.places id p := by
  unfold PendingTable.places
  rw [toList_withoutSatisfied]
  exact List.filter_sublist.countP_le

lemma places_doAgeing_le [Scheduler σ] {r : Relay σ κ} (hl : r.Linked) (id : FaceId)
    (p : Packet → Bool) : r.doAgeing.pending.places id p ≤ r.pending.places id p := by
  obtain ⟨m, ids, -, hm, hremoved, -⟩ := doAgeing_ages hl
  rw [← hremoved]
  calc (m.removeFaces ids).pending.places id p
      ≤ m.pending.places id p := m.places_removeFaces_le ids id p
    _ = r.aged.pending.places id p := by rw [hm.pending]
    _ ≤ r.pending.places id p := r.places_aged_le id p

end Relay

end NamedRelay
