import Mathlib.Data.List.Nodup
import NamedRelay.Proofs.InterfaceQueues

/-!
# The queues of faces

Packets leave the queue of a face in the order they have joined it, and what leaves goes to the
interface and the peer of the face. A face that is gone takes its queue along, and its number is not
given out again.
-/

namespace NamedRelay

open Event

namespace Event

/-- Nothing happens to the queue of a face. -/
def QuietForFaces (events : List Event) : Prop :=
  ∀ event ∈ events, event.isOffer = false ∧ ∀ id, event.joins? id = none

lemma quiet_of_not_transport {event : Event} (h : event.isTransport = false) :
    event.isOffer = false ∧ ∀ id, event.joins? id = none := by
  cases event with
  | accepted _ _ _ => cases h
  | queued _ _ _ isNew =>
    cases isNew with
    | true => cases h
    | false => exact ⟨rfl, fun _ => rfl⟩
  | _ => exact ⟨rfl, fun _ => rfl⟩

lemma QuietForFaces.joined {events : List Event} (h : QuietForFaces events) (id : FaceId) :
    joined id events = [] :=
  List.filterMap_eq_nil_iff.mpr fun event hevent => (h event hevent).2 id

lemma QuietForFaces.moved {events : List Event} (h : QuietForFaces events) (id : FaceId) :
    moved id events = [] := by
  unfold Event.moved
  rw [List.filterMap_eq_nil_iff]
  intro event hevent
  have hoffer := (h event hevent).1
  cases event with
  | accepted _ _ _ => cases hoffer
  | _ => rfl

end Event

/-- Only the face itself changes. -/
lemma FaceRegistry.get?_modify_other {σ : Type} (g : FaceRegistry σ) {id j : FaceId}
    {change : Face σ → Face σ} (hid : ∀ f, f.id = id → (change f).id = id) (hj : j ≠ id) :
    (g.modify id change).get? j = g.get? j := by
  rw [get?_modify g hid]
  cases hf : g.get? j with
  | none => rfl
  | some f =>
    have hother : f.id ≠ id := fun heq => hj ((id_of_get? hf).symm.trans heq)
    simp [hother]

/-- A new number is larger than the ones before. -/
lemma FaceRegistry.number_of_nextId? {σ : Type} {g : FaceRegistry σ} {id : FaceId}
    (h : g.nextId? = some id) : id.number.toNat = g.latest.toNat + 1 := by
  unfold nextId? at h
  split at h
  · cases h
  · rename_i hlast
    cases h
    have hne : g.latest.toNat ≠ UInt32.size - 1 := by
      intro heq
      apply hlast
      rw [← heq]
      exact (UInt32.ofNat_toNat).symm
    have hlt := g.latest.toNat_lt
    rw [UInt32.toNat_add]
    change (g.latest.toNat + 1) % 4294967296 = g.latest.toNat + 1
    unfold UInt32.size at hne
    omega

lemma FaceRegistry.get?_insert_of_none {σ : Type} {g : FaceRegistry σ} {id : FaceId}
    (h : g.get? id = none) (face : Face σ) :
    (g.insert face).get? id = if face.id = id then some face else none := by
  unfold get? at h
  simp only [insert, get?, List.find?_append, h, Option.none_or, List.find?_singleton, beq_iff_eq]

/-- A face that is found after an insertion was there, or is the new one. -/
lemma FaceRegistry.get?_insert_cases {σ : Type} {g : FaceRegistry σ} {id : FaceId}
    {face f : Face σ} (h : (g.insert face).get? id = some f) :
    g.get? id = some f ∨ f = face ∧ face.id = id := by
  cases hid : g.get? id with
  | none =>
    rw [get?_insert_of_none hid] at h
    split at h
    · rename_i hface
      exact .inr ⟨(Option.some.inj h).symm, hface⟩
    · cases h
  | some old =>
    rw [get?_insert_of_some hid] at h
    exact .inl h

namespace Relay

variable {σ κ : Type}

/-- The packets that wait on a face. -/
def waits (r : Relay σ κ) (id : FaceId) : List Bytes :=
  (r.faces.get? id).elim [] Face.queue

/-- The face had the number and is gone. -/
def Retired (r : Relay σ κ) (id : FaceId) : Prop :=
  r.isLive id = false ∧ id.number ≤ r.faces.latest

lemma waits_of_get? {r : Relay σ κ} {id : FaceId} {f : Face σ} (hf : r.faces.get? id = some f) :
    r.waits id = f.queue := by
  unfold waits
  rw [hf]
  rfl

lemma waits_congr {r r' : Relay σ κ} {id : FaceId}
    (h : (r'.faces.get? id).map Face.line = (r.faces.get? id).map Face.line) :
    r'.waits id = r.waits id := by
  have hqueue := congrArg (fun line => line.elim [] FaceLine.queue) h
  rw [Option.elim_map, Option.elim_map] at hqueue
  exact hqueue

lemma waits_of_not_live {r : Relay σ κ} {id : FaceId} (h : r.isLive id = false) :
    r.waits id = [] := by
  have hnone : r.faces.get? id = none := by simpa [isLive] using h
  unfold waits
  rw [hnone]
  rfl

/-- Every face has a number that was given out and is on an interface that is there, and the packets
that wait on it differ. -/
structure Queues (r : Relay σ κ) : Prop where
  number : ∀ id, r.isLive id = true → id.number ≤ r.faces.latest
  interface : ∀ id f, r.faces.get? id = some f → ∀ index, f.interface = some index →
    index < r.interfaces.length
  nodup : ∀ id f, r.faces.get? id = some f → f.queue.Nodup

/-- The faces stay as they are while these events happen. -/
structure Rests (r r' : Relay σ κ) (events : List Event) : Prop where
  faces : ∀ id, (r'.faces.get? id).map Face.line = (r.faces.get? id).map Face.line
  latest : r'.faces.latest = r.faces.latest
  log : r'.log = r.log ++ events
  quiet : QuietForFaces events

namespace Rests

variable {r r' : Relay σ κ} {events : List Event}

lemma of_faces (hfaces : r'.faces = r.faces) (hlog : r'.log = r.log ++ events)
    (hquiet : QuietForFaces events) : r.Rests r' events :=
  ⟨fun _ => by rw [hfaces], by rw [hfaces], hlog, hquiet⟩

lemma of_still (h : r.Still r') : ∃ events, r.Rests r' events := by
  obtain ⟨events, hlog, htransport⟩ := h.log
  exact ⟨events, h.faces, h.latest, hlog, fun event hevent =>
    quiet_of_not_transport (htransport event hevent)⟩

lemma trans {m : Relay σ κ} {events' : List Event} (h : r.Rests m events)
    (h' : m.Rests r' events') : r.Rests r' (events ++ events') where
  faces id := (h'.faces id).trans (h.faces id)
  latest := h'.latest.trans h.latest
  log := by rw [h'.log, h.log, List.append_assoc]
  quiet event hevent := (List.mem_append.mp hevent).elim (h.quiet event) (h'.quiet event)

lemma get? (h : r.Rests r' events) {id : FaceId} {f' : Face σ} (hf' : r'.faces.get? id = some f') :
    ∃ f, r.faces.get? id = some f ∧ f.line = f'.line := by
  have hline := h.faces id
  rw [hf', Option.map_some] at hline
  exact Option.map_eq_some_iff.mp hline.symm

lemma isLive (h : r.Rests r' events) (id : FaceId) : r'.isLive id = r.isLive id := by
  have hlive := congrArg Option.isSome (h.faces id)
  rwa [Option.isSome_map, Option.isSome_map] at hlive

end Rests

/-- One face has another queue. -/
structure Requeues (r r' : Relay σ κ) (f : Face σ) (queue : List Bytes) : Prop where
  face : r.faces.get? f.id = some f
  get? : ∀ id, r'.faces.get? id = if id = f.id then some { f with queue } else r.faces.get? id
  latest : r'.faces.latest = r.faces.latest

namespace Requeues

variable {r r' : Relay σ κ} {f : Face σ} {queue : List Bytes}

lemma of_modify {change : Face σ → Face σ} (hf : r.faces.get? f.id = some f)
    (hfaces : r'.faces = r.faces.modify f.id change) (hchange : change f = { f with queue })
    (hid : ∀ g, g.id = f.id → (change g).id = f.id) : r.Requeues r' f queue where
  face := hf
  get? id := by
    rw [hfaces]
    split
    · rename_i heq
      rw [heq, FaceRegistry.get?_modify_self hf hid, hchange]
    · rename_i hne
      exact r.faces.get?_modify_other hid hne
  latest := by
    rw [hfaces]
    rfl

lemma self (h : r.Requeues r' f queue) : r'.faces.get? f.id = some { f with queue } :=
  (h.get? f.id).trans (if_pos rfl)

lemma other (h : r.Requeues r' f queue) {id : FaceId} (hid : id ≠ f.id) :
    r'.faces.get? id = r.faces.get? id :=
  (h.get? id).trans (if_neg hid)

lemma isLive (h : r.Requeues r' f queue) (id : FaceId) : r'.isLive id = r.isLive id := by
  unfold Relay.isLive
  rw [h.get?]
  split
  · rename_i hid
    rw [hid, h.face]
    rfl
  · rfl

end Requeues

/-- What moves through the queues of the faces while these events happen. -/
structure Flows (r r' : Relay σ κ) (events : List Event) : Prop where
  log : r'.log = r.log ++ events
  queues : ∀ id, moved id events ++ r'.waits id = r.waits id ++ joined id events
  places : ∀ id f, r.faces.get? id = some f →
    ∃ f', r'.faces.get? id = some f' ∧ f'.interface = f.interface ∧ f'.peer = f.peer
  reached : ∀ k request hasRoom id, .accepted k request hasRoom ∈ events →
    request.face = some id → ∃ f, r'.faces.get? id = some f ∧ f.interface = some k ∧
      f.peer = some request.destination
  latest : r.faces.latest ≤ r'.faces.latest
  retired : ∀ id, r.Retired id → r'.isLive id = false
  idle : ∀ id, r'.isLive id = false → joined id events = []

namespace Flows

lemma of_rests {r r' : Relay σ κ} {events : List Event} (h : r.Rests r' events) :
    r.Flows r' events where
  log := h.log
  queues id := by
    rw [h.quiet.moved, h.quiet.joined, waits_congr (h.faces id), List.append_nil]
    rfl
  places id f hf := by
    have hline := h.faces id
    rw [hf, Option.map_some] at hline
    obtain ⟨f', hf', hsame⟩ := Option.map_eq_some_iff.mp hline
    exact ⟨f', hf', congrArg FaceLine.interface hsame, congrArg FaceLine.peer hsame⟩
  reached k request hasRoom id hevent _ := by
    have hoffer := (h.quiet _ hevent).1
    cases hoffer
  latest := by
    rw [h.latest]
    exact UInt32.le_refl _
  retired id hid := (h.isLive id).trans hid.1
  idle id _ := h.quiet.joined id

/-- The queue of one face changes. -/
lemma of_requeues {r r' : Relay σ κ} {f : Face σ} {queue : List Bytes} {event : Event}
    (h : r.Requeues r' f queue) (hlog : r'.log = r.log ++ [event])
    (hown : moved f.id [event] ++ queue = f.queue ++ joined f.id [event])
    (hothers : ∀ id, id ≠ f.id → moved id [event] = [] ∧ joined id [event] = [])
    (hreached : ∀ k request hasRoom, event = .accepted k request hasRoom →
      request.face = some f.id ∧ f.interface = some k ∧ f.peer = some request.destination) :
    r.Flows r' [event] where
  log := hlog
  queues id := by
    by_cases hid : id = f.id
    · subst hid
      rw [waits_of_get? h.self, waits_of_get? h.face]
      exact hown
    · obtain ⟨hmoved, hjoined⟩ := hothers id hid
      unfold waits
      rw [hmoved, hjoined, h.other hid, List.append_nil]
      rfl
  places id g hg := by
    by_cases hid : id = f.id
    · subst hid
      rw [h.face] at hg
      cases hg
      exact ⟨_, h.self, rfl, rfl⟩
    · exact ⟨g, (h.other hid).trans hg, rfl, rfl⟩
  reached k request hasRoom id hevent hface := by
    obtain ⟨hid, hinterface, hpeer⟩ :=
      hreached k request hasRoom (List.mem_singleton.mp hevent).symm
    rw [hface] at hid
    cases hid
    exact ⟨_, h.self, hinterface, hpeer⟩
  latest := by
    rw [h.latest]
    exact UInt32.le_refl _
  retired id hid := (h.isLive id).trans hid.1
  idle id hgone := by
    apply (hothers id _).2
    rintro rfl
    rw [isLive_of_get? h.self] at hgone
    cases hgone

lemma trans {r m r' : Relay σ κ} {events events' : List Event} (h : r.Flows m events)
    (h' : m.Flows r' events') : r.Flows r' (events ++ events') where
  log := by rw [h'.log, h.log, List.append_assoc]
  queues id := by
    calc moved id (events ++ events') ++ r'.waits id
        = moved id events ++ (moved id events' ++ r'.waits id) := by
          rw [moved_append, List.append_assoc]
      _ = moved id events ++ m.waits id ++ joined id events' := by
          rw [h'.queues, List.append_assoc]
      _ = r.waits id ++ joined id (events ++ events') := by
          rw [h.queues, joined_append, List.append_assoc]
  places id f hf := by
    obtain ⟨f', hf', hinterface, hpeer⟩ := h.places id f hf
    obtain ⟨f'', hf'', hinterface', hpeer'⟩ := h'.places id f' hf'
    exact ⟨f'', hf'', hinterface'.trans hinterface, hpeer'.trans hpeer⟩
  reached k request hasRoom id hevent hface := by
    rcases List.mem_append.mp hevent with hold | hnew
    · obtain ⟨f, hf, hinterface, hpeer⟩ := h.reached k request hasRoom id hold hface
      obtain ⟨f', hf', hinterface', hpeer'⟩ := h'.places id f hf
      exact ⟨f', hf', hinterface'.trans hinterface, hpeer'.trans hpeer⟩
    · exact h'.reached k request hasRoom id hnew hface
  latest := UInt32.le_trans h.latest h'.latest
  retired id hid := h'.retired id ⟨h.retired id hid, UInt32.le_trans hid.2 h.latest⟩
  idle id hgone := by
    have hgone' : m.isLive id = false := by
      cases hm : m.faces.get? id with
      | none => simp [isLive, hm]
      | some f =>
        obtain ⟨f', hf', -⟩ := h'.places id f hm
        rw [isLive_of_get? hf'] at hgone
        cases hgone
    rw [joined_append, h.idle id hgone', h'.idle id hgone]
    rfl

end Flows

/-! ## The moves -/

/-- A packet joins the queue of a face. -/
lemma queue_requeues {r : Relay σ κ} {f : Face σ} (purpose : Purpose) {packet : Bytes}
    (hf : r.faces.get? f.id = some f) (hnew : packet ∉ f.queue) :
    r.Requeues (r.queue purpose f packet) f (f.queue ++ [packet]) ∧
      (r.queue purpose f packet).log = r.log ++ [.queued f.id purpose packet true] := by
  have hjoins : f.enqueue packet = (true, { f with queue := f.queue ++ [packet] }) := if_neg hnew
  unfold queue
  rw [hjoins]
  exact ⟨.of_modify hf rfl rfl fun _ _ => rfl, rfl⟩

lemma queue_flows {r : Relay σ κ} {f : Face σ} (purpose : Purpose) {packet : Bytes}
    (hf : r.faces.get? f.id = some f) (hnew : packet ∉ f.queue) :
    r.Flows (r.queue purpose f packet) [.queued f.id purpose packet true] := by
  obtain ⟨hrequeued, hlog⟩ := queue_requeues purpose hf hnew
  apply Flows.of_requeues hrequeued hlog
  · simp [moved, moves?, joined, joins?]
  · intro id hid
    simp [moved, moves?, joined, joins?, Ne.symm hid]
  · rintro _ _ _ ⟨⟩

/-- The oldest packet of a face moves on. -/
lemma forward_flows {r : Relay σ κ} {id : FaceId} {f : Face σ} {index : Nat}
    {destination : Address} {packet : Bytes} {rest : List Bytes} (hf : r.faces.get? id = some f)
    (hinterface : f.interface = some index) (hindex : index < r.interfaces.length)
    (hpeer : f.peer = some destination) (hqueue : f.queue = packet :: rest) :
    ∃ event, r.Flows (({ r with
      faces := r.faces.modify id fun _ => { f with queue := rest } }).interfaceEnqueue index
        (some id) packet destination).2 [event] := by
  obtain rfl := FaceRegistry.id_of_get? hf
  obtain ⟨hasRoom, hlog, hfaces⟩ := interfaceEnqueue_eq
    { r with faces := r.faces.modify f.id fun _ => { f with queue := rest } } hindex (some f.id)
    packet destination
  have hrequeued := Requeues.of_modify hf hfaces rfl fun _ _ => rfl
  refine ⟨_, Flows.of_requeues hrequeued hlog ?_ ?_ ?_⟩
  · rw [hqueue]
    simp [moved, moves?, joined, joins?]
  · intro id hid
    simp [moved, moves?, joined, joins?, Ne.symm hid]
  · rintro _ _ _ ⟨⟩
    exact ⟨rfl, hinterface, hpeer⟩

/-- A new face has an empty queue and a number of its own. -/
lemma createFace_flows (r : Relay σ κ) (interface : Option Nat) (peer : Option Address) :
    ∃ events, r.Flows (r.createFace interface peer).2 events := by
  rcases r.createFace_cases interface peer with hnone | ⟨new, sought, hnew, hsought, hcreated⟩
  · rw [hnone]
    exact ⟨[], .of_rests (.of_faces rfl (List.append_nil _).symm (by simp [QuietForFaces]))⟩
  · have hnumber := FaceRegistry.number_of_nextId? hnew
    have hquiet : QuietForFaces sought := by
      rcases hsought with rfl | rfl
      · simp [QuietForFaces]
      · simp [QuietForFaces, isOffer, joins?]
    rw [hcreated]
    refine ⟨sought, rfl, ?_, ?_, ?_, ?_, ?_, fun id _ => hquiet.joined id⟩
    · intro id
      rw [hquiet.moved, hquiet.joined, List.append_nil, List.nil_append]
      change ((r.faces.insert (r.newFace new interface peer)).get? id).elim [] Face.queue =
        r.waits id
      cases hid : r.faces.get? id with
      | none =>
        rw [FaceRegistry.get?_insert_of_none hid, waits_of_not_live (by simp [isLive, hid])]
        split <;> rfl
      | some f =>
        rw [FaceRegistry.get?_insert_of_some hid, waits_of_get? hid]
        rfl
    · exact fun id f hf => ⟨f, FaceRegistry.get?_insert_of_some hf _, rfl, rfl⟩
    · intro k request hasRoom id hevent _
      have hoffer := (hquiet _ hevent).1
      cases hoffer
    · change r.faces.latest ≤ new.number
      rw [UInt32.le_iff_toNat_le]
      omega
    · rintro id ⟨hgone, hle⟩
      have hid : r.faces.get? id = none := by simpa [isLive] using hgone
      have hother : (r.newFace new interface peer).id ≠ id := by
        rintro rfl
        have hle' : new.number.toNat ≤ r.faces.latest.toNat := UInt32.le_iff_toNat_le.mp hle
        omega
      change ((r.faces.insert (r.newFace new interface peer)).get? id).isSome = false
      rw [FaceRegistry.get?_insert_of_none hid, if_neg hother]
      rfl

variable [Scheduler σ]

/-- What the link gets was no longer on a face. -/
lemma interfaceClearToSend_rests (r : Relay σ κ) (index : Nat) :
    ∃ events, r.Rests (r.interfaceClearToSend index).2 events := by
  have hnothing : r.Rests r [] := .of_faces rfl (List.append_nil _).symm (by simp [QuietForFaces])
  unfold interfaceClearToSend
  split
  · exact ⟨[], hnothing⟩
  · rename_i i _
    split
    · exact ⟨[], hnothing⟩
    · rename_i request i' events hsends
      have hquiet : QuietForFaces events := by
        unfold Interface.clearToSend at hsends
        split at hsends
        · cases hsends
        · cases hsends
          split
          · simp [QuietForFaces, isOffer, joins?]
          · simp [QuietForFaces, isOffer, joins?]
      have hsent : r.Rests (({ r with interfaces := r.interfaces.set index i' } : Relay σ κ).emitAll
          events) events := .of_faces rfl rfl hquiet
      obtain ⟨reports, hreported⟩ := Rests.of_still (Still.reportSent
        (({ r with interfaces := r.interfaces.set index i' } : Relay σ κ).emitAll events)
        request.face request.packet.length)
      exact ⟨_, hsent.trans hreported⟩

namespace Queues

omit [Scheduler σ] in
lemma of_rests {r r' : Relay σ κ} {events : List Event} (h : r.Queues) (hr : r.Rests r' events)
    (hlength : r.interfaces.length ≤ r'.interfaces.length) : r'.Queues where
  number id hlive := by
    rw [hr.latest]
    exact h.number id ((hr.isLive id).symm.trans hlive)
  interface id f' hf' index hindex := by
    obtain ⟨f, hf, hline⟩ := hr.get? hf'
    have hinterface : f.interface = f'.interface := congrArg FaceLine.interface hline
    exact Nat.lt_of_lt_of_le (h.interface id f hf index (hinterface.trans hindex)) hlength
  nodup id f' hf' := by
    obtain ⟨f, hf, hline⟩ := hr.get? hf'
    have hqueue : f.queue = f'.queue := congrArg FaceLine.queue hline
    rw [← hqueue]
    exact h.nodup id f hf

omit [Scheduler σ] in
lemma of_requeues {r r' : Relay σ κ} {f : Face σ} {queue : List Bytes} (h : r.Queues)
    (hr : r.Requeues r' f queue) (hnodup : queue.Nodup)
    (hlength : r'.interfaces.length = r.interfaces.length) : r'.Queues where
  number id hlive := by
    rw [hr.latest]
    exact h.number id ((hr.isLive id).symm.trans hlive)
  interface id g hg index hindex := by
    rw [hlength]
    rw [hr.get?] at hg
    split at hg
    · cases hg
      exact h.interface f.id f hr.face index hindex
    · exact h.interface id g hg index hindex
  nodup id g hg := by
    rw [hr.get?] at hg
    split at hg
    · cases hg
      exact hnodup
    · exact h.nodup id g hg

omit [Scheduler σ] in
lemma createFace {r : Relay σ κ} (h : r.Queues) {interface : Option Nat} (peer : Option Address)
    (hinterface : ∀ index, interface = some index → index < r.interfaces.length) :
    (r.createFace interface peer).2.Queues := by
  rcases r.createFace_cases interface peer with hnone | ⟨new, sought, hnew, -, hcreated⟩
  · rwa [hnone]
  · rw [hcreated]
    refine ⟨?_, ?_, ?_⟩
    · intro id hlive
      obtain ⟨f', hf'⟩ := Option.isSome_iff_exists.mp hlive
      change id.number ≤ new.number
      rcases FaceRegistry.get?_insert_cases hf' with hold | ⟨-, rfl⟩
      · have hle := UInt32.le_iff_toNat_le.mp (h.number id (isLive_of_get? hold))
        have hnumber := FaceRegistry.number_of_nextId? hnew
        rw [UInt32.le_iff_toNat_le]
        omega
      · exact UInt32.le_refl _
    · intro id f' hf' index hindex
      rcases FaceRegistry.get?_insert_cases hf' with hold | ⟨rfl, -⟩
      · exact h.interface id f' hold index hindex
      · exact hinterface index hindex
    · intro id f' hf'
      rcases FaceRegistry.get?_insert_cases hf' with hold | ⟨rfl, -⟩
      · exact h.nodup id f' hold
      · exact List.nodup_nil

/-- However packets move, they pass through the queues in order. -/
lemma moves {r r' : Relay σ κ} (h : r.Queues) (hmoves : Moves r r') :
    r'.Queues ∧ ∃ events, r.Flows r' events := by
  induction hmoves with
  | still hstill =>
    obtain ⟨events, hrests⟩ := Rests.of_still hstill
    have hlength := congrArg List.length hstill.interfaces
    rw [List.length_map, List.length_map] at hlength
    exact ⟨h.of_rests hrests (Nat.le_of_eq hlength.symm), events, .of_rests hrests⟩
  | @joins r id f purpose packet hf hnew =>
    obtain rfl := FaceRegistry.id_of_get? hf
    have hnodup : (f.queue ++ [packet]).Nodup := by
      rw [← List.concat_eq_append]
      exact List.Nodup.concat hnew (h.nodup f.id f hf)
    obtain ⟨hrequeued, -⟩ := queue_requeues purpose hf hnew
    exact ⟨h.of_requeues hrequeued hnodup rfl, _, queue_flows purpose hf hnew⟩
  | forwards r id =>
    rcases r.faceClearToSend_cases id with hsame |
      ⟨f, index, destination, packet, rest, hf, hinterface, hpeer, hqueue, htaken⟩
    · rw [hsame]
      exact ⟨h, [], .of_rests (.of_faces rfl (List.append_nil _).symm (by simp [QuietForFaces]))⟩
    · obtain rfl := FaceRegistry.id_of_get? hf
      have hindex := h.interface f.id f hf index hinterface
      obtain ⟨event, hflows⟩ := forward_flows hf hinterface hindex hpeer hqueue
      obtain ⟨-, -, hfaces⟩ := interfaceEnqueue_eq
        { r with faces := r.faces.modify f.id fun _ => { f with queue := rest } } hindex
        (some f.id) packet destination
      have hnodup := h.nodup f.id f hf
      rw [hqueue] at hnodup
      have hlength := (r.faceClearToSend_sends f.id).length_interfaces
      rw [htaken] at hlength ⊢
      have hrequeued := Requeues.of_modify hf hfaces rfl fun _ _ => rfl
      exact ⟨h.of_requeues hrequeued hnodup.of_cons hlength, _, hflows⟩
  | sends r index =>
    obtain ⟨events, hrests⟩ := r.interfaceClearToSend_rests index
    have hlength := (r.interfaceClearToSend_sends index).length_interfaces
    exact ⟨h.of_rests hrests (Nat.le_of_eq hlength.symm), events, .of_rests hrests⟩
  | @meets r interface peer hinterface _ _ =>
    exact ⟨h.createFace peer hinterface, r.createFace_flows interface peer⟩
  | trans _ _ ihm ihr =>
    obtain ⟨hm, events, hflows⟩ := ihm h
    obtain ⟨hr, events', hflows'⟩ := ihr hm
    exact ⟨hr, _, hflows.trans hflows'⟩

end Queues

end Relay

end NamedRelay
