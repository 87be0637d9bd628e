import NamedRelay.Proofs.Sending

/-!
# Moving packets

Interfaces and faces send without touching a table. Offering a packet to a face that is there
always succeeds: the packet is queued or was waiting already, and that is the only handing out.
-/

namespace NamedRelay

lemma Interface.map_settings_set {σ : Type} {interfaces : List (Interface σ)} {index : Nat}
    {i i' : Interface σ} (hi : interfaces[index]? = some i) (hs : i'.settings = i.settings) :
    (interfaces.set index i').map Interface.settings = interfaces.map Interface.settings := by
  rw [List.map_set, hs]
  apply List.ext_getElem?
  intro j
  rw [List.getElem?_set]
  split
  · rename_i hj
    subst hj
    obtain ⟨hlt, hget⟩ := List.getElem?_eq_some_iff.mp hi
    simp [hlt, hget]
  · rfl

lemma Interface.settings_enqueue {σ : Type} (i : Interface σ) (request : TransmitRequest) :
    (i.enqueue request).2.settings = i.settings := by
  unfold Interface.enqueue
  split <;> rfl

section

variable {σ : Type} [Scheduler σ]

lemma Interface.ready_sends (i : Interface σ) (index : Nat) :
    (i.ready index).2.1.settings = i.settings ∧
      (i.ready index).2.2.filterMap Event.handing? = [] := by
  unfold Interface.ready
  split
  · exact ⟨rfl, rfl⟩
  · split
    · exact ⟨rfl, rfl⟩
    · exact ⟨rfl, rfl⟩

lemma Interface.clearToSend_sends (i : Interface σ) (index : Nat) :
    (i.clearToSend index).2.1.settings = i.settings ∧
      (i.clearToSend index).2.2.filterMap Event.handing? = [] := by
  unfold Interface.clearToSend
  split
  · exact ⟨rfl, rfl⟩
  · refine ⟨rfl, ?_⟩
    split <;> rfl

end

namespace Relay

variable {σ κ : Type}

/-! ## Interfaces -/

/-- An interface may be replaced by one with the same settings. -/
lemma Sends.setInterface (r : Relay σ κ) {index : Nat} {i i' : Interface σ}
    (hi : r.interfaces[index]? = some i) (hs : i'.settings = i.settings) :
    r.Sends { r with interfaces := r.interfaces.set index i' } [] :=
  Sends.of_keeps
    { Keeps.refl r with interfaces := Interface.map_settings_set hi hs }
    { Hands.refl r with }

lemma interfaceEnqueue_sends (r : Relay σ κ) (index : Nat) (face : Option FaceId) (packet : Bytes)
    (destination : Address) :
    r.Sends (r.interfaceEnqueue index face packet destination).2 [] := by
  unfold interfaceEnqueue
  split
  · exact Sends.refl r
  · rename_i i hi
    have hset := Sends.setInterface r hi (i.settings_enqueue ⟨packet, destination, face⟩)
    have hevent := Sends.emitAll
      { r with interfaces := r.interfaces.set index (i.enqueue ⟨packet, destination, face⟩).2 }
      [.accepted index ⟨packet, destination, face⟩
        (i.enqueue ⟨packet, destination, face⟩).1] rfl
    have hqueued := hset.trans hevent
    dsimp only
    split
    · exact hqueued
    · exact { hqueued with interests := hqueued.interests, contents := hqueued.contents }

variable [Scheduler σ]

lemma reportSent_sends (r : Relay σ κ) (face : Option FaceId) (length : Nat) :
    r.Sends (r.reportSent face length) [] := by
  unfold reportSent
  split
  · rename_i f hf
    split
    · refine Sends.of_keeps ?_ (Hands.of_log rfl rfl rfl rfl)
      have hmodify := Keeps.of_modify r f.id
        (fun g => { g with scheduler := Scheduler.noteOne g.scheduler length })
        (fun _ _ => rfl) (fun _ hg => hg) (fun g hg _ _ hi => ⟨g, hg, hi⟩)
      exact { hmodify with }
    · exact Sends.refl r
  · exact Sends.refl r

lemma interfaceClearToSend_sends (r : Relay σ κ) (index : Nat) :
    r.Sends (r.interfaceClearToSend index).2 [] := by
  unfold interfaceClearToSend
  split
  · exact Sends.refl r
  · rename_i i hi
    obtain ⟨hs, he⟩ := i.clearToSend_sends index
    split
    · exact Sends.refl r
    · rename_i request i' events hclear
      rw [hclear] at hs he
      have hset := (Sends.setInterface r hi hs).trans (Sends.emitAll _ _ he)
      exact hset.trans (reportSent_sends _ request.face request.packet.length)

lemma interfaceReady_sends (r : Relay σ κ) (index : Nat) :
    r.Sends (r.interfaceReady index).2 [] := by
  unfold interfaceReady
  split
  · exact Sends.refl r
  · rename_i i hi
    obtain ⟨hs, he⟩ := i.ready_sends index
    exact (Sends.setInterface r hi hs).trans (Sends.emitAll _ _ he)

lemma drain_sends (limit : Nat) (r : Relay σ κ) (index : Nat) :
    r.Sends (drain limit r index).2 [] := by
  induction limit generalizing r with
  | zero => exact Sends.refl r
  | succ limit ih =>
    have hready := r.interfaceReady_sends index
    unfold drain
    split
    · rename_i r₁ h₁
      rw [h₁] at hready
      exact hready
    · rename_i r₁ h₁
      rw [h₁] at hready
      have hclear := r₁.interfaceClearToSend_sends index
      split
      · rename_i r₂ h₂
        rw [h₂] at hclear
        exact hready.trans hclear
      · rename_i r₂ h₂
        rw [h₂] at hclear
        exact (hready.trans hclear).trans (ih r₂)

omit [Scheduler σ] in
lemma foldl_sends {f : Nat × Relay σ κ → Nat → Nat × Relay σ κ}
    (hf : ∀ (s : Nat × Relay σ κ) (index : Nat), s.2.Sends (f s index).2 [])
    (indices : List Nat) (s : Nat × Relay σ κ) :
    s.2.Sends (indices.foldl f s).2 [] := by
  induction indices generalizing s with
  | nil => exact Sends.refl s.2
  | cons index indices ih => exact (hf s index).trans (ih (f s index))

lemma transmitAll_sends (r : Relay σ κ) : r.Sends r.transmitAll.2 [] := by
  unfold transmitAll
  refine foldl_sends ?_ _ (0, r)
  rintro ⟨sent, m⟩ index
  exact drain_sends (m.waitingOn index) m index

/-! ## Faces -/

omit [Scheduler σ] in
/-- The face a handle leads to may be replaced by one with the same key. -/
lemma Keeps.replaceFace (r : Relay σ κ) {id : FaceId} {f f' : Face σ}
    (hf : r.faces.get? id = some f) (hk : f'.key = f.key) :
    r.Keeps { r with faces := r.faces.modify id fun _ => f' } := by
  have hid : f'.id = id := (Face.id_eq_of_key_eq hk).trans (FaceRegistry.id_of_get? hf)
  apply Keeps.of_modify
  · intro g hg
    rw [hf] at hg
    cases hg
    exact hk
  · intro _ _
    exact hid
  · intro g _ _ index hi
    exact ⟨f, FaceRegistry.mem_of_get? hf, (Face.interface_eq_of_key_eq hk) ▸ hi⟩

omit [Scheduler σ] in
lemma faceClearToSend_sends (r : Relay σ κ) (id : FaceId) :
    r.Sends (r.faceClearToSend id).2 [] := by
  unfold faceClearToSend
  split
  · exact Sends.refl r
  · rename_i f hf
    split
    · rename_i index destination packet f' _ _ hq
      have hk : f'.key = f.key := by
        have hkey := f.key_dequeue
        rw [hq] at hkey
        exact hkey
      have htaken := Sends.of_keeps (Keeps.replaceFace r hf hk) { Hands.refl r with }
      exact htaken.trans (interfaceEnqueue_sends _ index (some id) packet destination)
    · exact Sends.refl r

lemma askFace_sends (r : Relay σ κ) (f : Face σ) (length : Nat) :
    r.Sends (r.askFace f length).2 [] := by
  unfold askFace
  split
  · exact Sends.refl r
  · rename_i granted scheduler _
    have hmodify := Keeps.of_modify r f.id (fun g => { g with scheduler })
      (fun _ _ => rfl) (fun _ hg => hg) (fun g hg _ _ hi => ⟨g, hg, hi⟩)
    exact Sends.of_keeps { hmodify with } (Hands.of_log rfl rfl rfl rfl)

omit [Scheduler σ] in
lemma faceDequeue_sends (r : Relay σ κ) (id : FaceId) : r.Sends (r.faceDequeue id).2 [] := by
  unfold faceDequeue
  split
  · exact Sends.refl r
  · rename_i f hf
    exact Sends.of_keeps (Keeps.replaceFace r hf f.key_dequeue) { Hands.refl r with }

/-- The packet is on the queue of the face, and nothing has moved yet. -/
def queue (r : Relay σ κ) (purpose : Purpose) (f : Face σ) (packet : Bytes) : Relay σ κ :=
  ({ r with faces := r.faces.modify f.id fun _ => (f.enqueue packet).2 }).emit
    (.queued f.id purpose packet (f.enqueue packet).1)

omit [Scheduler σ] in
lemma queue_keeps (r : Relay σ κ) (purpose : Purpose) {id : FaceId} {f : Face σ}
    (hf : r.faces.get? id = some f) (packet : Bytes) : r.Keeps (r.queue purpose f packet) := by
  obtain rfl := FaceRegistry.id_of_get? hf
  exact { Keeps.replaceFace r hf (f.key_enqueue packet) with }

/-- Offering to a face that is there succeeds. -/
lemma offer_of_live (r : Relay σ κ) (purpose : Purpose) {id : FaceId} {f : Face σ}
    (hf : r.faces.get? id = some f) (packet : Bytes) :
    (r.offer purpose id packet).1 = .ok (f.enqueue packet).1 ∧
      (r.queue purpose f packet).Sends (r.offer purpose id packet).2 [] := by
  obtain rfl := FaceRegistry.id_of_get? hf
  unfold offer
  rw [hf]
  dsimp only
  split
  · rename_i hnew
    have hask := (r.queue purpose f packet).askFace_sends (f.enqueue packet).2 packet.length
    split
    · rename_i r₁ h₁
      unfold queue at hask
      rw [h₁] at hask
      exact ⟨hnew ▸ rfl, hask.trans (r₁.faceClearToSend_sends f.id)⟩
    · rename_i r₁ h₁
      unfold queue at hask
      rw [h₁] at hask
      exact ⟨hnew ▸ rfl, hask⟩
  · rename_i hnew
    rw [Bool.not_eq_true] at hnew
    exact ⟨hnew ▸ rfl, Sends.refl _⟩

lemma offer_of_not_live (r : Relay σ κ) (purpose : Purpose) {id : FaceId}
    (hf : r.faces.get? id = none) (packet : Bytes) :
    r.offer purpose id packet = (.error (.notFound .face), r) := by
  unfold offer
  rw [hf]

lemma offer_keeps (r : Relay σ κ) (purpose : Purpose) (id : FaceId) (packet : Bytes) :
    r.Keeps (r.offer purpose id packet).2 := by
  cases hf : r.faces.get? id with
  | none =>
    rw [offer_of_not_live r purpose hf]
    exact Keeps.refl r
  | some f =>
    exact (r.queue_keeps purpose hf packet).trans (r.offer_of_live purpose hf packet).2.toKeeps

lemma faceEnqueue_sends (r : Relay σ κ) (id : FaceId) (packet : Bytes) :
    r.Sends (r.faceEnqueue id packet).2
      (if r.isLive id then [.face id .direct packet] else []) := by
  unfold faceEnqueue
  cases hf : r.faces.get? id with
  | none =>
    rw [offer_of_not_live r .direct hf]
    simpa [isLive, hf] using Sends.refl r
  | some f =>
    obtain rfl := FaceRegistry.id_of_get? hf
    have hqueue : r.Sends (r.queue .direct f packet) [.face f.id .direct packet] := by
      refine ⟨r.queue_keeps .direct hf packet, ⟨[_], rfl, rfl⟩, ?_, ?_⟩
      · simp [queue, emit, Handing.isInterest]
      · simp [queue, emit, Handing.isReply]
    simpa [isLive, hf] using hqueue.trans (r.offer_of_live .direct hf packet).2

end Relay

end NamedRelay
