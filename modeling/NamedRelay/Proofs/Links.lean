import NamedRelay.Proofs.Caching
import NamedRelay.Proofs.Waiters

/-!
# Names of faces

Routes and pending interests name faces, and faces name interfaces. In a `Linked` relay all of these
are there. Operations may add faces, routes and interfaces, and only the removal of a face takes one
away, together with the places that name it.
-/

namespace NamedRelay

lemma FaceRegistry.get?_erase {σ : Type} (g : FaceRegistry σ) (id j : FaceId) :
    (g.erase id).get? j = if j = id then none else g.get? j := by
  unfold erase get?
  rw [List.find?_filter]
  split
  · rename_i hj
    subst hj
    simp
  · rename_i hj
    congr 1
    funext f
    by_cases hf : f.id = j
    · simp [hf, hj]
    · simp [hf]

namespace ForwardingTable

/-- Some route leads to the face. -/
def Names (t : ForwardingTable) (id : FaceId) : Prop :=
  ∃ route ∈ t.routes, route.face = some id

lemma names_of_modify {t : ForwardingTable} {name : Name} {change : Route → Route} {id : FaceId}
    (h : (t.modify name change).Names id) :
    t.Names id ∨ ∃ route ∈ t.routes, (change route).face = some id := by
  obtain ⟨route', hmem, hface⟩ := h
  obtain ⟨j, hj⟩ := List.mem_iff_getElem?.mp hmem
  rw [modify, List.getElem?_modify] at hj
  split at hj
  · obtain ⟨route, hroute, rfl⟩ := Option.map_eq_some_iff.mp hj
    exact .inr ⟨route, List.mem_of_getElem? hroute, hface⟩
  · rw [id_map'] at hj
    exact .inl ⟨route', List.mem_of_getElem? hj, hface⟩

lemma names_of_add {t : ForwardingTable} {name : Name} {face id : FaceId}
    (h : (t.add name face).2.Names id) : t.Names id ∨ id = face := by
  unfold add at h
  split at h
  · rcases names_of_modify h with hold | ⟨route, -, hface⟩
    · exact .inl hold
    · cases hface
      exact .inr rfl
  · obtain ⟨route', hmem, hface⟩ := h
    rcases List.mem_append.mp hmem with hmem | hmem
    · exact .inl ⟨route', hmem, hface⟩
    · cases List.mem_singleton.mp hmem
      cases hface
      exact .inr rfl

lemma names_of_addTap {t : ForwardingTable} {name : Name} {tap : String} {id : FaceId}
    (h : (t.addTap name tap).Names id) : t.Names id := by
  unfold addTap at h
  split at h
  · rcases names_of_modify h with hold | ⟨route, hmem, hface⟩
    · exact hold
    · exact ⟨route, hmem, hface⟩
  · obtain ⟨route', hmem, hface⟩ := h
    rcases List.mem_append.mp hmem with hmem | hmem
    · exact ⟨route', hmem, hface⟩
    · cases List.mem_singleton.mp hmem
      cases hface

lemma names_of_remove {t t' : ForwardingTable} {name : Option Name} {face : Option FaceId}
    {id : FaceId} (ht : t.remove name face = .ok t') (h : t'.Names id) : t.Names id := by
  unfold remove at ht
  split at ht
  · cases ht
    obtain ⟨route, hmem, hface⟩ := h
    exact ⟨route, List.mem_of_mem_eraseP hmem, hface⟩
  · cases ht

lemma names_removeFace_iff (t : ForwardingTable) (face id : FaceId) :
    (t.removeFace face).Names id ↔ t.Names id ∧ id ≠ face := by
  unfold removeFace Names
  constructor
  · rintro ⟨route, hmem, hface⟩
    obtain ⟨hmem, hne⟩ := List.mem_filter.mp hmem
    refine ⟨⟨route, hmem, hface⟩, ?_⟩
    rintro rfl
    simp [hface] at hne
  · rintro ⟨⟨route, hmem, hface⟩, hne⟩
    exact ⟨route, List.mem_filter.mpr ⟨hmem, by simpa [hface] using hne⟩, hface⟩

end ForwardingTable

namespace Relay

variable {σ κ : Type}

/-- Every face that a table names is there, and every face is on an interface that is there. -/
structure Linked (r : Relay σ κ) : Prop where
  routes : ∀ id, r.table.Names id → r.isLive id = true
  arrivals : ∀ e ∈ r.pending.toList, ∀ id, e.arrival = some id → r.isLive id = true
  waiting : ∀ e ∈ r.pending.toList, ∀ id ∈ e.waiting, r.isLive id = true
  interfaces : ∀ f ∈ r.faces.faces, ∀ index, f.interface = some index →
    index < r.interfaces.length

/-- The pending interests stay, no face or interface goes, and whatever is named is there or was
named before. -/
structure Extends (r r' : Relay σ κ) : Prop where
  config : r'.config = r.config
  digest : r'.digest = r.digest
  pending : r'.pending = r.pending
  live : ∀ {id}, r.isLive id = true → r'.isLive id = true
  routes : ∀ id, r'.table.Names id → r.table.Names id ∨ r.isLive id = true
  interfaces : r.interfaces.length ≤ r'.interfaces.length
  reached : ∀ f' ∈ r'.faces.faces, ∀ index, f'.interface = some index →
    index < r'.interfaces.length ∨ ∃ f ∈ r.faces.faces, f.interface = some index

namespace Extends

lemma refl (r : Relay σ κ) : r.Extends r where
  config := rfl
  digest := rfl
  pending := rfl
  live h := h
  routes _ h := .inl h
  interfaces := Nat.le_refl _
  reached f h _ hi := .inr ⟨f, h, hi⟩

end Extends

lemma KeepsFaces.extends {r r' : Relay σ κ} (h : r.KeepsFaces r') : r.Extends r' where
  config := h.config
  digest := h.digest
  pending := h.pending
  live := h.isLive
  routes _ hid := .inl (h.table ▸ hid)
  interfaces := Nat.le_of_eq h.length_interfaces.symm
  reached f' hf' index hi := by
    rw [h.length_interfaces]
    exact h.reached f' hf' index hi

namespace Linked

lemma of_extends {r r' : Relay σ κ} (hl : r.Linked) (h : r.Extends r') : r'.Linked where
  routes id hid := by
    rcases h.routes id hid with hold | hlive
    · exact h.live (hl.routes id hold)
    · exact h.live hlive
  arrivals e he id hid := h.live (hl.arrivals e (h.pending ▸ he) id hid)
  waiting e he id hid := h.live (hl.waiting e (h.pending ▸ he) id hid)
  interfaces f' hf' index hi := by
    rcases h.reached f' hf' index hi with hlt | ⟨f, hf, hi⟩
    · exact hlt
    · exact Nat.lt_of_lt_of_le (hl.interfaces f hf index hi) h.interfaces

lemma of_keeps {r r' : Relay σ κ} (hl : r.Linked) (h : r.KeepsFaces r') : r'.Linked :=
  hl.of_extends h.extends

lemma withPending {r : Relay σ κ} (hl : r.Linked) {t : PendingTable}
    (ht : ∀ e ∈ t.toList, (∀ id, e.arrival = some id → r.isLive id = true) ∧
      ∀ id ∈ e.waiting, r.isLive id = true) :
    ({ r with pending := t } : Relay σ κ).Linked where
  routes := hl.routes
  arrivals e he := (ht e he).1
  waiting e he := (ht e he).2
  interfaces := hl.interfaces

/-- Entries may go, and what else changes in an entry is none of its faces. -/
lemma narrow {r : Relay σ κ} (hl : r.Linked) {t : PendingTable}
    (ht : ∀ e' ∈ t.toList, ∃ e ∈ r.pending.toList, e'.arrival = e.arrival ∧
      e'.waiting = e.waiting) : ({ r with pending := t } : Relay σ κ).Linked := by
  apply hl.withPending
  intro e' he'
  obtain ⟨e, he, harrival, hwaiting⟩ := ht e' he'
  rw [harrival, hwaiting]
  exact ⟨hl.arrivals e he, hl.waiting e he⟩

lemma withoutSatisfied {r : Relay σ κ} (hl : r.Linked) (content : Packet) :
    (r.withoutSatisfied content).Linked := by
  apply hl.narrow
  intro e he
  have hmem : e ∈ (r.withoutSatisfied content).pending.toList := he
  rw [toList_withoutSatisfied] at hmem
  exact ⟨e, (List.mem_filter.mp hmem).1, rfl, rfl⟩

end Linked

/-! ## Removing faces -/

/-- Without the face and the places that name it. -/
def withoutFace (r : Relay σ κ) (id : FaceId) : Relay σ κ :=
  { r with
    faces := r.faces.erase id
    pending := r.pending.removeFace id
    table := r.table.removeFace id }

lemma removeFace_of_live {r : Relay σ κ} {id : FaceId} (h : r.isLive id = true) :
    (r.removeFace id).2 = r.withoutFace id := by
  obtain ⟨f, hf⟩ := Option.isSome_iff_exists.mp h
  unfold removeFace
  rw [hf]
  rfl

lemma removeFace_of_not_live {r : Relay σ κ} {id : FaceId} (h : ¬r.isLive id = true) :
    (r.removeFace id).2 = r := by
  unfold removeFace
  rw [Option.not_isSome_iff_eq_none.mp h]

lemma isLive_withoutFace (r : Relay σ κ) (id j : FaceId) :
    (r.withoutFace id).isLive j = true ↔ r.isLive j = true ∧ j ≠ id := by
  unfold isLive withoutFace
  rw [FaceRegistry.get?_erase]
  split
  · rename_i hj
    simp [hj]
  · rename_i hj
    simp [hj]

/-- The entries that are left forget the face, and somebody else wants them. -/
lemma mem_pending_withoutFace {r : Relay σ κ} {id : FaceId} {e' : PendingInterest} :
    e' ∈ (r.withoutFace id).pending.toList ↔
      ∃ e ∈ r.pending.toList, e.withoutFace id = e' ∧ e'.isAbandoned = false := by
  unfold withoutFace PendingTable.removeFace
  simp only [SlotTable.toList_retain, List.mem_filterMap, PendingInterest.forgetFace?_eq_some]

namespace Linked

lemma withoutFace {r : Relay σ κ} (hl : r.Linked) (id : FaceId) : (r.withoutFace id).Linked where
  routes j hj := by
    obtain ⟨hold, hne⟩ := (r.table.names_removeFace_iff id j).mp hj
    rw [isLive_withoutFace]
    exact ⟨hl.routes j hold, hne⟩
  arrivals e' he' j hj := by
    obtain ⟨e, he, rfl, -⟩ := mem_pending_withoutFace.mp he'
    simp only [PendingInterest.withoutFace] at hj
    rw [isLive_withoutFace]
    split at hj
    · cases hj
    · rename_i hne
      refine ⟨hl.arrivals e he j hj, ?_⟩
      rintro rfl
      exact hne hj
  waiting e' he' j hj := by
    obtain ⟨e, he, rfl, -⟩ := mem_pending_withoutFace.mp he'
    rw [PendingInterest.waiting_withoutFace] at hj
    obtain ⟨hmem, hne⟩ := List.mem_filter.mp hj
    rw [isLive_withoutFace]
    refine ⟨hl.waiting e he j hmem, ?_⟩
    simpa using hne
  interfaces f hf index hi := hl.interfaces f (List.mem_filter.mp hf).1 index hi

lemma removeFace {r : Relay σ κ} (hl : r.Linked) (id : FaceId) : (r.removeFace id).2.Linked := by
  by_cases hlive : r.isLive id = true
  · rw [removeFace_of_live hlive]
    exact hl.withoutFace id
  · rw [removeFace_of_not_live hlive]
    exact hl

end Linked

end Relay

end NamedRelay
