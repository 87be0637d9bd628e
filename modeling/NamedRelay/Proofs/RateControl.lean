import NamedRelay.Proofs.LiveFaces

/-!
# Rate control of faces

The scheduler of a face is asked for the packet that joins the queue, and its grant moves the oldest
packet of the queue on. Unless the queue is empty that is another packet, which may have another
length and may have been refused itself.
-/

namespace NamedRelay

/-! ## What events tell of a face -/

namespace Event

/-- A packet joins the queue of the face. -/
def joins? (id : FaceId) : Event → Option Bytes
  | queued j _ packet true => if j = id then some packet else none
  | _ => none

/-- The face's scheduler answers for a packet of this length. -/
def answers? (id : FaceId) : Event → Option (Nat × Bool)
  | sendRequested (.face j) _ length granted => if j = id then some (length, granted) else none
  | _ => none

/-- A packet moves on from the face to its interface. -/
def moves? (id : FaceId) : Event → Option Bytes
  | accepted _ request _ => if request.face = some id then some request.packet else none
  | _ => none

def joined (id : FaceId) (events : List Event) : List Bytes :=
  events.filterMap (joins? id)

def answered (id : FaceId) (events : List Event) : List (Nat × Bool) :=
  events.filterMap (answers? id)

def moved (id : FaceId) (events : List Event) : List Bytes :=
  events.filterMap (moves? id)

lemma joined_append (id : FaceId) (events new : List Event) :
    joined id (events ++ new) = joined id events ++ joined id new :=
  List.filterMap_append

lemma answered_append (id : FaceId) (events new : List Event) :
    answered id (events ++ new) = answered id events ++ answered id new :=
  List.filterMap_append

lemma moved_append (id : FaceId) (events new : List Event) :
    moved id (events ++ new) = moved id events ++ moved id new :=
  List.filterMap_append

/-- The lengths that the face's scheduler grants. -/
def granted (id : FaceId) (events : List Event) : List Nat :=
  ((answered id events).filter Prod.snd).map Prod.fst

/-- The packets that move on have the lengths that are granted. -/
def ObeyGrants (id : FaceId) (events : List Event) : Prop :=
  (moved id events).map List.length = granted id events

instance (id : FaceId) (events : List Event) : Decidable (ObeyGrants id events) :=
  inferInstanceAs (Decidable (_ = _))

end Event

open Event

namespace Relay

variable {σ κ : Type}

/-- A peer on an interface that is there, with a scheduler. -/
structure Governs (r : Relay σ κ) (f : Face σ) (s : σ) : Prop where
  face : r.faces.get? f.id = some f
  interface : ∃ index, f.interface = some index ∧ index < r.interfaces.length
  peer : ∃ destination, f.peer = some destination
  scheduler : f.scheduler = some s

/-! ## Moving on -/

lemma interfaceEnqueue_eq (r : Relay σ κ) {index : Nat} (hindex : index < r.interfaces.length)
    (face : Option FaceId) (packet : Bytes) (destination : Address) :
    ∃ hasRoom, (r.interfaceEnqueue index face packet destination).2.log =
        r.log ++ [.accepted index ⟨packet, destination, face⟩ hasRoom] ∧
      (r.interfaceEnqueue index face packet destination).2.faces = r.faces := by
  unfold interfaceEnqueue
  rw [List.getElem?_eq_getElem hindex]
  dsimp only
  split
  · exact ⟨_, rfl, rfl⟩
  · exact ⟨_, rfl, rfl⟩

/-- The oldest packet of the queue moves on. -/
lemma faceClearToSend_eq {r : Relay σ κ} {f : Face σ} {s : σ} (h : r.Governs f s) {oldest : Bytes}
    {rest : List Bytes} (hqueue : f.queue = oldest :: rest) :
    ∃ index destination hasRoom, (r.faceClearToSend f.id).2.log =
        r.log ++ [.accepted index ⟨oldest, destination, some f.id⟩ hasRoom] ∧
      (r.faceClearToSend f.id).2.Governs { f with queue := rest } s := by
  obtain ⟨index, hinterface, hindex⟩ := h.interface
  obtain ⟨destination, hpeer⟩ := h.peer
  have hdequeue : f.dequeue = (some oldest, { f with queue := rest }) := by
    unfold Face.dequeue
    rw [hqueue]
  have hmoves : (r.faceClearToSend f.id).2 =
      (({ r with faces := r.faces.modify f.id fun _ => { f with queue := rest } }).interfaceEnqueue
        index (some f.id) oldest destination).2 := by
    unfold faceClearToSend
    rw [h.face]
    dsimp only
    rw [hdequeue, hinterface, hpeer]
  have hkept := (r.faceClearToSend_sends f.id).length_interfaces
  rw [hmoves] at hkept ⊢
  obtain ⟨hasRoom, hlog, hfaces⟩ := interfaceEnqueue_eq
    { r with faces := r.faces.modify f.id fun _ => { f with queue := rest } } hindex
    (some f.id) oldest destination
  refine ⟨index, destination, hasRoom, hlog, ?_, ?_, ⟨destination, hpeer⟩, h.scheduler⟩
  · rw [hfaces]
    exact FaceRegistry.get?_modify_self h.face fun _ _ => rfl
  · exact ⟨index, hinterface, hkept ▸ hindex⟩

/-! ## Joining the queue -/

variable [Scheduler σ]

/-- The packet has joined the queue, and the scheduler has answered. -/
def asked (r : Relay σ κ) (purpose : Purpose) (f : Face σ) (packet : Bytes) : Relay σ κ :=
  ((r.queue purpose f packet).askFace (f.enqueue packet).2 packet.length).2

lemma offer_of_waiting {r : Relay σ κ} {f : Face σ} {s : σ} (h : r.Governs f s)
    (purpose : Purpose) {packet : Bytes} (hwaits : packet ∈ f.queue) :
    (r.offer purpose f.id packet).2.log = r.log ++ [.queued f.id purpose packet false] ∧
      (r.offer purpose f.id packet).2.Governs f s := by
  have hsame : f.enqueue packet = (false, f) := if_pos hwaits
  have hoffer : (r.offer purpose f.id packet).2 =
      ({ r with faces := r.faces.modify f.id fun _ => f }).emit
        (.queued f.id purpose packet false) := by
    unfold offer
    rw [h.face]
    dsimp only
    rw [hsame]
    rfl
  rw [hoffer]
  have hface : (r.faces.modify f.id fun _ => f).get? f.id = some f :=
    FaceRegistry.get?_modify_self h.face fun _ _ => rfl
  exact ⟨rfl, hface, h.interface, h.peer, h.scheduler⟩

lemma asked_eq {r : Relay σ κ} {f : Face σ} {s : σ} (h : r.Governs f s) (purpose : Purpose)
    {packet : Bytes} (hnew : packet ∉ f.queue) :
    (r.asked purpose f packet).log = r.log ++ [.queued f.id purpose packet true,
        .sendRequested (.face f.id) 1 packet.length
          (Scheduler.requestToSend s 1 packet.length).1] ∧
      (r.asked purpose f packet).Governs
        { f with queue := f.queue ++ [packet]
                 scheduler := some (Scheduler.requestToSend s 1 packet.length).2 }
        (Scheduler.requestToSend s 1 packet.length).2 := by
  have hjoins : f.enqueue packet = (true, { f with queue := f.queue ++ [packet] }) := if_neg hnew
  have hqueued : (r.queue purpose f packet).faces.get? f.id =
      some { f with queue := f.queue ++ [packet] } := by
    unfold queue
    rw [hjoins]
    exact FaceRegistry.get?_modify_self h.face fun _ _ => rfl
  have hasked : r.asked purpose f packet =
      { r.queue purpose f packet with
        faces := (r.queue purpose f packet).faces.modify f.id fun g =>
          { g with scheduler := some (Scheduler.requestToSend s 1 packet.length).2 }
        log := (r.queue purpose f packet).log ++ [.sendRequested (.face f.id) 1 packet.length
          (Scheduler.requestToSend s 1 packet.length).1] } := by
    unfold asked askFace
    rw [hjoins]
    dsimp only
    rw [h.scheduler]
    rfl
  rw [hasked]
  refine ⟨?_, ?_, h.interface, h.peer, rfl⟩
  · unfold queue
    rw [hjoins]
    exact List.append_assoc _ _ _
  · exact FaceRegistry.get?_modify_self (f := { f with queue := f.queue ++ [packet] }) hqueued
      fun _ he => he

lemma offer_of_new {r : Relay σ κ} {f : Face σ} {s : σ} (h : r.Governs f s) (purpose : Purpose)
    {packet : Bytes} (hnew : packet ∉ f.queue) :
    (r.offer purpose f.id packet).2 =
      if (Scheduler.requestToSend s 1 packet.length).1 then
        ((r.asked purpose f packet).faceClearToSend f.id).2
      else r.asked purpose f packet := by
  have hjoins : f.enqueue packet = (true, { f with queue := f.queue ++ [packet] }) := if_neg hnew
  have hanswer : ((r.queue purpose f packet).askFace (f.enqueue packet).2 packet.length).1 =
      (Scheduler.requestToSend s 1 packet.length).1 := by
    unfold askFace
    rw [hjoins]
    dsimp only
    rw [h.scheduler]
    rfl
  unfold offer
  rw [h.face]
  dsimp only
  rw [if_pos (congrArg Prod.fst hjoins), ← hanswer]
  unfold asked queue
  split
  · rename_i m hgranted
    rw [hgranted]
    rfl
  · rename_i m hrefused
    rw [hrefused]
    rfl

end Relay

/-- The packet joins the queue of the face, and the scheduler grants one of its length. -/
def Face.grants {σ : Type} [Scheduler σ] (f : Face σ) (s : σ) (packet : Bytes) : Bool :=
  packet ∉ f.queue && (Scheduler.requestToSend s 1 packet.length).1

/-- What an offer to a face does: the scheduler is asked for the packet unless it waits already, and
if it grants it, the oldest packet moves on. -/
structure Face.Takes {σ : Type} [Scheduler σ] (f : Face σ) (s : σ) (packet : Bytes)
    (events : List Event) (queue : List Bytes) : Prop where
  joins : joined f.id events = if packet ∈ f.queue then [] else [packet]
  asks : answered f.id events = if packet ∈ f.queue then []
    else [(packet.length, (Scheduler.requestToSend s 1 packet.length).1)]
  moves : moved f.id events = if f.grants s packet then [f.queue.headD packet] else []
  queue : moved f.id events ++ queue = f.queue ++ joined f.id events

namespace Relay

variable {σ κ : Type} [Scheduler σ]

lemma offer_takes {r : Relay σ κ} {f : Face σ} {s : σ} (h : r.Governs f s) (purpose : Purpose)
    (packet : Bytes) :
    ∃ events f' s', (r.offer purpose f.id packet).2.log = r.log ++ events ∧
      (r.offer purpose f.id packet).2.Governs f' s' ∧ f'.id = f.id ∧
      f.Takes s packet events f'.queue := by
  by_cases hwaits : packet ∈ f.queue
  · obtain ⟨hlog, hgoverns⟩ := offer_of_waiting h purpose hwaits
    refine ⟨_, f, s, hlog, hgoverns, rfl, ?_, ?_, ?_, ?_⟩
    · simp [joined, joins?, hwaits]
    · simp [answered, answers?, hwaits]
    · simp [moved, moves?, Face.grants, hwaits]
    · simp [moved, joined, List.filterMap_cons, moves?, joins?]
  · obtain ⟨hlog, hgoverns⟩ := asked_eq h purpose hwaits
    rw [offer_of_new h purpose hwaits]
    cases hanswer : (Scheduler.requestToSend s 1 packet.length).1 with
    | false =>
      rw [hanswer] at hlog
      refine ⟨_, _, _, hlog, hgoverns, rfl, ?_, ?_, ?_, ?_⟩
      · simp [joined, List.filterMap_cons, joins?, hwaits]
      · simp [answered, List.filterMap_cons, answers?, hwaits, hanswer]
      · simp [moved, moves?, Face.grants, hanswer]
      · simp [moved, joined, List.filterMap_cons, moves?, joins?]
    | true =>
      rw [hanswer] at hlog
      have hqueue : f.queue ++ [packet] = f.queue.headD packet :: (f.queue ++ [packet]).tail := by
        cases f.queue <;> rfl
      obtain ⟨index, destination, hasRoom, hmoved, hgoverns'⟩ :=
        faceClearToSend_eq hgoverns hqueue
      rw [hlog, List.append_assoc] at hmoved
      refine ⟨_, _, _, hmoved, hgoverns', rfl, ?_, ?_, ?_, ?_⟩
      · simp [joined, List.filterMap_cons, joins?, hwaits]
      · simp [answered, List.filterMap_cons, answers?, hwaits, hanswer]
      · simp [moved, List.filterMap_cons, moves?, Face.grants, hwaits, hanswer]
      · simpa [moved, joined, List.filterMap_cons, moves?, joins?] using hqueue.symm

/-- Offers to a face one after the other, with the events of each. Meanwhile anything may happen to
the relay that leaves the face its queue. -/
inductive Offers (id : FaceId) (r : Relay σ κ) : List Event → Relay σ κ → Prop where
  | start : r.Offers id [] r
  | offer {m : Relay σ κ} {events new : List Event} (purpose : Purpose) (packet : Bytes) :
      r.Offers id events m → (m.offer purpose id packet).2.log = m.log ++ new →
      r.Offers id (events ++ new) (m.offer purpose id packet).2
  | meanwhile {m m' : Relay σ κ} {events : List Event} {f f' : Face σ} {s s' : σ} :
      r.Offers id events m → m.Governs f s → f.id = id → m'.Governs f' s' → f'.id = id →
      f'.queue = f.queue → r.Offers id events m'

end Relay

namespace Face.Takes

variable {σ : Type} [Scheduler σ] {f : Face σ} {s : σ} {packet : Bytes} {events : List Event}
  {queue : List Bytes}

/-- The grant is obeyed unless the packet that moves on has another length. -/
lemma obeyGrants_iff (h : f.Takes s packet events queue) :
    ObeyGrants f.id events ↔
      (f.grants s packet = true → (f.queue.headD packet).length = packet.length) := by
  unfold ObeyGrants granted
  rw [h.moves, h.asks]
  unfold grants
  by_cases hwaits : packet ∈ f.queue
  · simp [hwaits]
  · cases (Scheduler.requestToSend s 1 packet.length).1 <;> simp [hwaits]

/-- The packet that was granted moves on itself unless others wait. -/
lemma moves_own_iff (h : f.Takes s packet events queue) :
    (∀ p ∈ moved f.id events, p = packet) ↔ (f.grants s packet = true → f.queue = []) := by
  rw [h.moves]
  cases hgrants : f.grants s packet with
  | false => simp
  | true =>
    have hnew : packet ∉ f.queue := by
      unfold grants at hgrants
      simpa using (Bool.and_eq_true_iff.mp hgrants).1
    cases hqueue : f.queue with
    | nil => simp
    | cons oldest rest =>
      rw [hqueue] at hnew
      have hother : oldest ≠ packet := fun heq => hnew (heq ▸ List.mem_cons_self)
      simp [hother]

/-- A packet is left on the queue for each one that is refused. -/
lemma length_queue (h : f.Takes s packet events queue) :
    queue.length = f.queue.length + (answered f.id events).countP fun answer => !answer.2 := by
  have hlength := congrArg List.length h.queue
  rw [List.length_append, List.length_append, h.joins, h.moves] at hlength
  rw [h.asks]
  unfold grants at hlength
  by_cases hwaits : packet ∈ f.queue
  · simpa [hwaits] using hlength
  · cases hanswer : (Scheduler.requestToSend s 1 packet.length).1
    · simpa [hwaits, hanswer] using hlength
    · simp only [hwaits, hanswer, not_false_eq_true, decide_true, Bool.and_true, ite_true,
        ite_false, List.length_singleton] at hlength
      simp only [hwaits, ite_false, List.countP_singleton, Bool.not_true, Bool.false_eq_true]
      omega

end Face.Takes

namespace Relay

variable {σ κ : Type} [Scheduler σ]

/-- Along any offers to a face the packets move on in the order they have joined, and those that are
left are as many as have been refused. -/
lemma Offers.moves_in_order {r m : Relay σ κ} {f : Face σ} {s : σ} {events : List Event}
    (ho : r.Offers f.id events m) (h : r.Governs f s) :
    ∃ f' s', m.Governs f' s' ∧ f'.id = f.id ∧
      moved f.id events ++ f'.queue = f.queue ++ joined f.id events ∧
      f'.queue.length = f.queue.length +
        (answered f.id events).countP fun answer => !answer.2 := by
  induction ho with
  | start => exact ⟨f, s, h, rfl, by simp [moved, joined], by simp [answered]⟩
  | @offer m earlier new purpose packet _ hlog ih =>
    obtain ⟨f', s', hgoverns, hid, hmoved, hlength⟩ := ih
    obtain ⟨last, f'', s'', hlog', hgoverns', hid', htakes⟩ :=
      offer_takes hgoverns purpose packet
    rw [hid] at hlog' hgoverns' hid'
    have hsame : last = new := List.append_cancel_left (hlog'.symm.trans hlog)
    rw [hsame] at htakes
    have hqueue := htakes.queue
    have hlast := htakes.length_queue
    rw [hid] at hqueue hlast
    refine ⟨f'', s'', hgoverns', hid', ?_, ?_⟩
    · calc moved f.id (earlier ++ new) ++ f''.queue
          = moved f.id earlier ++ (moved f.id new ++ f''.queue) := by
            rw [moved_append, List.append_assoc]
        _ = (moved f.id earlier ++ f'.queue) ++ joined f.id new := by
            rw [hqueue, List.append_assoc]
        _ = f.queue ++ joined f.id (earlier ++ new) := by
            rw [hmoved, joined_append, List.append_assoc]
    · rw [answered_append, List.countP_append, hlast, hlength, Nat.add_assoc]
  | meanwhile _ hgoverns hid hgoverns' hid' hsame ih =>
    obtain ⟨f₀, s₀, hgoverns₀, hid₀, hmoved, hlength⟩ := ih
    have hface := hgoverns.face
    rw [hid, ← hid₀, hgoverns₀.face] at hface
    cases hface
    rw [← hsame] at hmoved hlength
    exact ⟨_, _, hgoverns', hid', hmoved, hlength⟩

end Relay

/-- A grant moves the oldest packet of a face, and not the one it is for. So it is obeyed exactly if
the oldest packet is as long, and it moves a packet that it is not for exactly if others wait. Along
any offers to the face, in any state that a relay passes through, the packets move on in the order
they have joined, and as many of them stay behind as are refused. -/
theorem grant_moves_oldest_packet {σ κ : Type} [Scheduler σ] [CacheStrategy κ] {r m : Relay σ κ}
    (h : Reachable r) (hp : r.Passes m) {f : Face σ} {index : Nat} {destination : Address} {s : σ}
    (hf : m.faces.get? f.id = some f) (hindex : f.interface = some index)
    (hpeer : f.peer = some destination) (hs : f.scheduler = some s) :
    (∀ purpose packet, ∃ events f', (m.offer purpose f.id packet).2.log = m.log ++ events ∧
      (m.offer purpose f.id packet).2.faces.get? f.id = some f' ∧
      f.Takes s packet events f'.queue ∧
      (ObeyGrants f.id events ↔
        (f.grants s packet = true → (f.queue.headD packet).length = packet.length)) ∧
      ((∀ p ∈ moved f.id events, p = packet) ↔ (f.grants s packet = true → f.queue = []))) ∧
    ∀ events m', m.Offers f.id events m' → ∃ f', m'.faces.get? f.id = some f' ∧
      moved f.id events ++ f'.queue = f.queue ++ joined f.id events ∧
      f'.queue.length = f.queue.length +
        (answered f.id events).countP fun answer => !answer.2 := by
  have hlinked := h.linked.passes hp
  have hgoverns : m.Governs f s :=
    ⟨hf, ⟨index, hindex, hlinked.interfaces f (FaceRegistry.mem_of_get? hf) index hindex⟩,
      ⟨destination, hpeer⟩, hs⟩
  constructor
  · intro purpose packet
    obtain ⟨events, f', s', hlog, hgoverns', hid, htakes⟩ :=
      Relay.offer_takes hgoverns purpose packet
    exact ⟨events, f', hlog, hid ▸ hgoverns'.face, htakes, htakes.obeyGrants_iff,
      htakes.moves_own_iff⟩
  · intro events m' ho
    obtain ⟨f', s', hgoverns', hid, hmoved, hlength⟩ := ho.moves_in_order hgoverns
    exact ⟨f', hid ▸ hgoverns'.face, hmoved, hlength⟩

namespace Sample

/-- Packets of one byte may go. -/
def short : Allowance :=
  { maxLength := some 1 }

/-- A packet of two bytes was refused. -/
def held : Relay Allowance CachePolicy :=
  Operation.runAll [.changeFace ⟨1⟩ (.scheduler short), .faceEnqueue ⟨1⟩ [1, 2]] peered

/-- The face where the packet waits. -/
def heldFace : Face Allowance :=
  { id := ⟨1⟩
    interface := some 0
    peer := some (.link (Vector.replicate 6 2) linkEthertype)
    flags := {}
    lastUsed := ⟨0⟩
    queue := [[1, 2]]
    scheduler := some short }

lemma reachable_held : Reachable held :=
  reachable_peered.runAll _

end Sample

/-- The grant for a packet of one byte moves the packet of two bytes, and the other one stays. -/
theorem held_packet_moves_on_next_grant :
    Sample.held.faces.get? ⟨1⟩ = some Sample.heldFace ∧
      ∃ events queue, (Sample.held.offer .direct ⟨1⟩ [3]).2.log = Sample.held.log ++ events ∧
        Sample.heldFace.Takes Sample.short [3] events queue ∧ ¬ObeyGrants ⟨1⟩ events ∧
        moved ⟨1⟩ events ++ queue = [[1, 2]] ++ joined ⟨1⟩ events := by
  have hf : Sample.held.faces.get? Sample.heldFace.id = some Sample.heldFace := rfl
  obtain ⟨hoffer, hoffers⟩ := grant_moves_oldest_packet Sample.reachable_held .start hf rfl rfl rfl
  obtain ⟨events, f', hlog, hface, htakes, hobeys, -⟩ := hoffer .direct [3]
  obtain ⟨f'', hface', hmoved, -⟩ := hoffers events _ (.offer .direct [3] .start hlog)
  obtain rfl : f'' = f' := Option.some.inj (hface'.symm.trans hface)
  refine ⟨hf, events, f''.queue, hlog, htakes, ?_, hmoved⟩
  intro hobeyed
  exact absurd (hobeys.mp hobeyed (by decide)) (by decide)

/-- A packet that was refused may move on by the grant for another one of another length. -/
theorem refused_packet_may_move_on :
    Reachable Sample.held ∧ answered ⟨1⟩ Sample.held.log = [(2, false)] ∧
      joined ⟨1⟩ Sample.held.log = [[1, 2]] ∧ moved ⟨1⟩ Sample.held.log = [] ∧
      answered ⟨1⟩ ((Sample.held.faceEnqueue ⟨1⟩ [3]).2.log.drop Sample.held.log.length) =
        [(1, true)] ∧
      moved ⟨1⟩ ((Sample.held.faceEnqueue ⟨1⟩ [3]).2.log.drop Sample.held.log.length) =
        [[1, 2]] ∧
      ¬ObeyGrants ⟨1⟩ ((Sample.held.faceEnqueue ⟨1⟩ [3]).2.log.drop Sample.held.log.length) :=
  ⟨Sample.reachable_held, by decide, by decide, by decide, by decide, by decide, by decide⟩

end NamedRelay
