import NamedRelay.Proofs.FaceQueues

/-!
# Operations on the queues

What an operation does to the queues of interfaces and faces. The program may put a request on an
interface itself, and put a packet on the queue of a face or take one from it; the log does not tell
of the latter. All other operations move packets on, and some remove faces.
-/

namespace NamedRelay

open Event

namespace Face

variable {σ : Type}

/-- The place of a face in the network. -/
def place (f : Face σ) : Option Nat × Option Address :=
  (f.interface, f.peer)

lemma dequeue_eq (f : Face σ) : f.dequeue = (f.queue.head?, { f with queue := f.queue.tail }) := by
  rcases f with ⟨id, interface, peer, flags, lastUsed, queue, scheduler⟩
  cases queue <;> rfl

end Face

/-! ## What an operation moves -/

/-- A request that comes from the face, and the interface it reaches. -/
def Event.reaches? (id : FaceId) : Event → Option (Nat × TransmitRequest)
  | accepted k request _ => if request.face = some id then some (k, request) else none
  | _ => none

def Event.reached (id : FaceId) (events : List Event) : List (Nat × TransmitRequest) :=
  events.filterMap (reaches? id)

lemma Event.map_reached (id : FaceId) (events : List Event) :
    (reached id events).map (fun x => x.2.packet) = moved id events := by
  unfold reached moved
  rw [List.map_filterMap]
  congr 1
  funext event
  cases event with
  | accepted k request hasRoom =>
    by_cases hface : request.face = some id
    · simp [reaches?, moves?, hface]
    · simp [reaches?, moves?, hface]
  | _ => rfl

namespace Operation

variable {σ κ : Type} [Scheduler σ] [CacheStrategy κ]

/-- What an operation adds to the log. -/
def events (op : Operation σ κ) (r : Relay σ κ) : List Event :=
  (op.run r).log.drop r.log.length

/-- The packet that the program itself puts on the queue of a face. -/
def puts (id : FaceId) : Operation σ κ → Relay σ κ → List Bytes
  | changeFace j (.enqueue packet), r =>
    if j = id ∧ r.isLive id = true ∧ packet ∉ r.waits id then [packet] else []
  | _, _ => []

/-- The packet that the program itself takes from the queue of a face. -/
def takes (id : FaceId) : Operation σ κ → Relay σ κ → List Bytes
  | faceDequeue j, r => if j = id then (r.waits id).take 1 else []
  | changeFace j .dequeue, r => if j = id then (r.waits id).take 1 else []
  | _, _ => []

/-- The packets that join the queue of a face. -/
def joins (id : FaceId) (op : Operation σ κ) (r : Relay σ κ) : List Bytes :=
  joined id (op.events r) ++ op.puts id r

/-- What goes from a face to an interface. A request that the program itself puts on an interface
comes from no queue, whatever face it names. -/
def reaches (id : FaceId) (op : Operation σ κ) (r : Relay σ κ) : List (Nat × TransmitRequest) :=
  match op with
  | interfaceEnqueue _ _ _ _ => []
  | op => reached id (op.events r)

/-- The packets that leave the queue of a face. -/
def leaves (id : FaceId) (op : Operation σ κ) (r : Relay σ κ) : List Bytes :=
  (op.reaches id r).map (fun x => x.2.packet) ++ op.takes id r

/-- The program acts on a queue itself. -/
def isDirect : Operation σ κ → Bool
  | interfaceEnqueue _ _ _ _ => true
  | changeFace _ (.enqueue _) => true
  | changeFace _ .dequeue => true
  | faceDequeue _ => true
  | _ => false

omit [Scheduler σ] [CacheStrategy κ] in
lemma puts_of_not_direct {op : Operation σ κ} (h : op.isDirect = false) (id : FaceId)
    (r : Relay σ κ) : op.puts id r = [] := by
  unfold puts
  split
  · cases h
  · rfl

omit [Scheduler σ] [CacheStrategy κ] in
lemma takes_of_not_direct {op : Operation σ κ} (h : op.isDirect = false) (id : FaceId)
    (r : Relay σ κ) : op.takes id r = [] := by
  unfold takes
  split
  · cases h
  · cases h
  · rfl

lemma reaches_of_not_direct {op : Operation σ κ} (h : op.isDirect = false) (id : FaceId)
    (r : Relay σ κ) : op.reaches id r = reached id (op.events r) := by
  unfold reaches
  split
  · cases h
  · rfl

lemma events_of_log {op : Operation σ κ} {r : Relay σ κ} {events : List Event}
    (h : (op.run r).log = r.log ++ events) : op.events r = events := by
  unfold Operation.events
  rw [h, List.drop_left]

end Operation

namespace Relay

variable {σ κ : Type} [Scheduler σ] [CacheStrategy κ]

section

omit [Scheduler σ] [CacheStrategy κ]

lemma modifyFace_enqueue {r : Relay σ κ} {f : Face σ} (hf : r.faces.get? f.id = some f)
    (packet : Bytes) :
    r.Requeues (r.modifyFace f.id fun g => (g.enqueue packet).2) f
      (if packet ∈ f.queue then f.queue else f.queue ++ [packet]) := by
  refine .of_modify hf rfl ?_ fun g hg => (Face.id_eq_of_key_eq (g.key_enqueue packet)).trans hg
  unfold Face.enqueue
  split <;> rfl

lemma modifyFace_dequeue {r : Relay σ κ} {f : Face σ} (hf : r.faces.get? f.id = some f) :
    r.Requeues (r.modifyFace f.id fun g => g.dequeue.2) f f.queue.tail := by
  refine .of_modify hf rfl ?_ fun g hg => (Face.id_eq_of_key_eq g.key_dequeue).trans hg
  rw [Face.dequeue_eq]

lemma faceDequeue_requeues {r : Relay σ κ} {f : Face σ} (hf : r.faces.get? f.id = some f) :
    r.Requeues (r.faceDequeue f.id).2 f f.queue.tail := by
  unfold faceDequeue
  rw [hf]
  dsimp only
  rw [Face.dequeue_eq]
  exact .of_modify hf rfl rfl fun _ _ => rfl

/-- Nothing changes on a face that is gone. -/
lemma get?_modifyFace_of_none {r : Relay σ κ} {id : FaceId} (h : r.faces.get? id = none)
    {change : Face σ → Face σ} (hid : ∀ f, f.id = id → (change f).id = id) (j : FaceId) :
    (r.modifyFace id change).faces.get? j = r.faces.get? j := by
  unfold modifyFace
  by_cases hj : j = id
  · rw [hj, r.faces.get?_modify hid, h]
    rfl
  · rw [r.faces.get?_modify_other hid hj]

end

/-- The program changes the queue of one face itself, if the face is there. -/
structure Direct (r : Relay σ κ) (op : Operation σ κ) (j : FaceId) : Prop where
  log : (op.run r).log = r.log
  interfaces : (op.run r).interfaces = r.interfaces
  counters : (op.run r).counters = r.counters
  latest : (op.run r).faces.latest = r.faces.latest
  numbers : (op.run r).faces.faces.map Face.id = r.faces.faces.map Face.id
  reaches : ∀ id, op.reaches id r = reached id (op.events r)
  others : ∀ id, id ≠ j → op.puts id r = [] ∧ op.takes id r = []
  gone : r.faces.get? j = none → (∀ id, (op.run r).faces.get? id = r.faces.get? id) ∧
    op.puts j r = [] ∧ op.takes j r = []
  there : ∀ f, r.faces.get? j = some f → ∃ queue, r.Requeues (op.run r) f queue ∧
    op.takes j r ++ queue = f.queue ++ op.puts j r ∧ (f.queue.Nodup → queue.Nodup)

/-- What an operation does to the queues: packets move and faces go, a request is put on an interface
by the program, an interface is added, or the program changes the queue of a face. -/
inductive Course (r : Relay σ κ) : Operation σ κ → Prop where
  | moves {op : Operation σ κ} {m : Relay σ κ} (ids : List FaceId) :
      op.isDirect = false → Moves r m → op.run r = m.removeFaces ids → r.Course op
  | offers (index : Nat) (face : Option FaceId) (packet : Bytes) (destination : Address) :
      r.Course (.interfaceEnqueue index face packet destination)
  | adds (config : InterfaceConfig) : r.Course (.addInterface config)
  | changes {op : Operation σ κ} (j : FaceId) : r.Direct op j → r.Course op

lemma direct_enqueue (r : Relay σ κ) (j : FaceId) (packet : Bytes) :
    r.Direct (.changeFace j (.enqueue packet)) j where
  log := rfl
  interfaces := rfl
  counters := rfl
  latest := rfl
  numbers := r.faces.map_id_modify fun f hf =>
    (Face.id_eq_of_key_eq (f.key_enqueue packet)).trans hf
  reaches _ := rfl
  others id hid := ⟨if_neg fun h => hid h.1.symm, rfl⟩
  gone hj := by
    refine ⟨?_, if_neg fun h => ?_, rfl⟩
    · exact get?_modifyFace_of_none hj fun f hf =>
        (Face.id_eq_of_key_eq (f.key_enqueue packet)).trans hf
    · have hlive := h.2.1
      rw [isLive, hj] at hlive
      cases hlive
  there f hf := by
    obtain rfl := FaceRegistry.id_of_get? hf
    have hputs : (Operation.changeFace f.id (.enqueue packet) : Operation σ κ).puts f.id r =
        if packet ∈ f.queue then [] else [packet] := by
      simp [Operation.puts, isLive_of_get? hf, waits_of_get? hf]
    refine ⟨_, modifyFace_enqueue hf packet, ?_, ?_⟩
    · rw [hputs]
      split
      · exact (List.append_nil _).symm
      · rfl
    · intro hnodup
      split
      · exact hnodup
      · rename_i hnew
        rw [← List.concat_eq_append]
        exact List.Nodup.concat hnew hnodup

lemma direct_dequeue (r : Relay σ κ) (j : FaceId) : r.Direct (.changeFace j .dequeue) j where
  log := rfl
  interfaces := rfl
  counters := rfl
  latest := rfl
  numbers := r.faces.map_id_modify fun f hf => (Face.id_eq_of_key_eq f.key_dequeue).trans hf
  reaches _ := rfl
  others id hid := ⟨rfl, if_neg hid.symm⟩
  gone hj := by
    refine ⟨?_, rfl, ?_⟩
    · exact get?_modifyFace_of_none hj fun f hf => (Face.id_eq_of_key_eq f.key_dequeue).trans hf
    · have hwaits : r.waits j = [] := waits_of_not_live (by simp [isLive, hj])
      simp [Operation.takes, hwaits]
  there f hf := by
    obtain rfl := FaceRegistry.id_of_get? hf
    refine ⟨_, modifyFace_dequeue hf, ?_, List.Nodup.tail⟩
    simpa [Operation.takes, Operation.puts, waits_of_get? hf] using
      List.take_append_drop 1 f.queue

omit [Scheduler σ] [CacheStrategy κ] in
lemma faceDequeue_cases (r : Relay σ κ) (j : FaceId) :
    ∃ faces, (r.faceDequeue j).2 = { r with faces } ∧ faces.latest = r.faces.latest ∧
      faces.faces.map Face.id = r.faces.faces.map Face.id ∧
      (r.faces.get? j = none → faces = r.faces) := by
  unfold faceDequeue
  split
  · exact ⟨r.faces, rfl, rfl, rfl, fun _ => rfl⟩
  · rename_i f hf
    have hid : f.dequeue.2.id = j :=
      (Face.id_eq_of_key_eq f.key_dequeue).trans (FaceRegistry.id_of_get? hf)
    refine ⟨_, rfl, rfl, r.faces.map_id_modify fun _ _ => hid, fun hnone => ?_⟩
    rw [hf] at hnone
    cases hnone

lemma direct_faceDequeue (r : Relay σ κ) (j : FaceId) : r.Direct (.faceDequeue j) j := by
  obtain ⟨faces, hcases, hlatest, hnumbers, hgone⟩ := r.faceDequeue_cases j
  have hrun : Operation.run (.faceDequeue j) r = { r with faces } := hcases
  refine
    { log := by rw [hrun]
      interfaces := by rw [hrun]
      counters := by rw [hrun]
      latest := by rw [hrun, hlatest]
      numbers := by rw [hrun, hnumbers]
      reaches := fun _ => rfl
      others := fun id hid => ⟨rfl, if_neg hid.symm⟩
      gone := fun hj => ?_
      there := fun f hf => ?_ }
  · have hwaits : r.waits j = [] := waits_of_not_live (by simp [isLive, hj])
    refine ⟨fun id => by rw [hrun, hgone hj], rfl, ?_⟩
    simp [Operation.takes, hwaits]
  · obtain rfl := FaceRegistry.id_of_get? hf
    refine ⟨_, faceDequeue_requeues hf, ?_, List.Nodup.tail⟩
    simpa [Operation.takes, Operation.puts, waits_of_get? hf] using
      List.take_append_drop 1 f.queue

lemma Course.of_moves {r : Relay σ κ} {op : Operation σ κ}
    (hop : op.isDirect = false) (hmoves : Moves r (op.run r)) : r.Course op :=
  .moves [] hop hmoves rfl

lemma course (r : Relay σ κ) (op : Operation σ κ) : r.Course op := by
  cases op with
  | setClock ms => exact .of_moves rfl (.still { Still.refl r with })
  | advance ms => exact .of_moves rfl (.still { Still.refl r with })
  | setStrategy strategy => exact .of_moves rfl (.still { Still.refl r with })
  | setSchedulerFor schedulerFor => exact .of_moves rfl (.still { Still.refl r with })
  | setDelivers => exact .of_moves rfl (.still { Still.refl r with })
  | addInterface config => exact .adds config
  | setInterfaceScheduler index scheduler =>
    exact .of_moves rfl (.still (.setInterfaceScheduler r index scheduler))
  | interfaceEnqueue index face packet destination => exact .offers index face packet destination
  | interfaceClearToSend index => exact .of_moves rfl (.sends r index)
  | transmitAll => exact .of_moves rfl (.transmitAll r)
  | getFace interface peer => exact .of_moves rfl (.getFace r interface peer)
  | changeFace id change =>
    cases change with
    | flags flags =>
      exact .of_moves rfl (.still (.modifyFace r id _ (fun _ hf => hf) fun _ _ => rfl))
    | touch now => exact .of_moves rfl (.still (.touchFace r id now))
    | scheduler scheduler =>
      exact .of_moves rfl (.still (.modifyFace r id _ (fun _ hf => hf) fun _ _ => rfl))
    | enqueue packet => exact .changes id (r.direct_enqueue id packet)
    | dequeue => exact .changes id (r.direct_dequeue id)
  | removeFace id => exact .moves [id] rfl (.refl r) rfl
  | faceEnqueue id packet => exact .of_moves rfl (.offer r .direct id packet)
  | faceDequeue id => exact .changes id (r.direct_faceDequeue id)
  | faceClearToSend id => exact .of_moves rfl (.forwards r id)
  | addRoute name face => exact .of_moves rfl (.still (.addRoute r name face))
  | addTap name tap => exact .of_moves rfl (.still { Still.refl r with })
  | removeRoute name face => exact .of_moves rfl (.still (.removeRoute r name face))
  | receive decode interface peer bytes =>
    exact .of_moves rfl (.receive r decode interface peer bytes)
  | dispatch id packet => exact .of_moves rfl (.dispatch r id packet)
  | checkNonce packet => exact .of_moves rfl (.still (.checkNonce r packet))
  | handleInterest id interest => exact .of_moves rfl (.handleInterest r id interest)
  | expressInterest interest => exact .of_moves rfl (.expressInterest r interest)
  | handleContent id content => exact .of_moves rfl (.handleContent r id content)
  | interestPropagate h => exact .of_moves rfl (.interestPropagate r h)
  | interestBroadcast h => exact .of_moves rfl (.interestBroadcast r h)
  | addToCache content => exact .of_moves rfl (.still (.storeEntry r _))
  | addContent content => exact .of_moves rfl (.addContent r content)
  | removeCached path => exact .of_moves rfl (.still (.removeCached r path))
  | servePending h => exact .of_moves rfl (.servePending r h)
  | doAgeing => exact .moves _ rfl (.agePending r) r.ageStore.agePending.ageFaces_eq

/-! ## Interfaces along a run -/

section

omit [Scheduler σ] [CacheStrategy κ]

lemma removeFaces_moves_nothing (r : Relay σ κ) (ids : List FaceId) :
    (r.removeFaces ids).interfaces = r.interfaces ∧ (r.removeFaces ids).counters = r.counters ∧
      (r.removeFaces ids).log = r.log ∧ (r.removeFaces ids).faces.latest = r.faces.latest := by
  induction ids generalizing r with
  | nil => exact ⟨rfl, rfl, rfl, rfl⟩
  | cons id ids ih =>
    have hone : (r.removeFace id).2.interfaces = r.interfaces ∧
        (r.removeFace id).2.counters = r.counters ∧ (r.removeFace id).2.log = r.log ∧
        (r.removeFace id).2.faces.latest = r.faces.latest := by
      unfold removeFace
      split
      · exact ⟨rfl, rfl, rfl, rfl⟩
      · exact ⟨rfl, rfl, rfl, rfl⟩
    obtain ⟨hinterfaces, hcounters, hlog, hlatest⟩ := ih (r.removeFace id).2
    exact ⟨hinterfaces.trans hone.1, hcounters.trans hone.2.1, hlog.trans hone.2.2.1,
      hlatest.trans hone.2.2.2⟩

/-- A face that is left is as it was. -/
lemma get?_removeFaces (r : Relay σ κ) (ids : List FaceId) (id : FaceId) :
    (r.removeFaces ids).faces.get? id = none ∨
      (r.removeFaces ids).faces.get? id = r.faces.get? id := by
  induction ids generalizing r with
  | nil => exact .inr rfl
  | cons j ids ih =>
    have hone : (r.removeFace j).2.faces.get? id = none ∨
        (r.removeFace j).2.faces.get? id = r.faces.get? id := by
      by_cases hlive : r.isLive j = true
      · rw [removeFace_of_live hlive]
        change (r.faces.erase j).get? id = none ∨ (r.faces.erase j).get? id = _
        rw [FaceRegistry.get?_erase]
        split
        · exact .inl rfl
        · exact .inr rfl
      · rw [removeFace_of_not_live hlive]
        exact .inr rfl
    rcases ih (r.removeFace j).2 with hnone | hsame
    · exact .inl hnone
    · rcases hone with hnone | hsame'
      · exact .inl (hsame.trans hnone)
      · exact .inr (hsame.trans hsame')

lemma get?_of_removeFaces {r : Relay σ κ} {ids : List FaceId} {id : FaceId} {f : Face σ}
    (hf : (r.removeFaces ids).faces.get? id = some f) : r.faces.get? id = some f := by
  rcases r.get?_removeFaces ids id with hnone | hsame
  · rw [hnone] at hf
    cases hf
  · rwa [← hsame]

/-- What waited on a face that is removed is lost with it. -/
lemma exists_lost (r : Relay σ κ) (ids : List FaceId) (id : FaceId) :
    ∃ lost, (r.removeFaces ids).waits id ++ lost = r.waits id ∧
      ((r.removeFaces ids).isLive id = true → lost = []) := by
  rcases r.get?_removeFaces ids id with hnone | hsame
  · have hgone : (r.removeFaces ids).isLive id = false := by simp [isLive, hnone]
    refine ⟨r.waits id, ?_, fun hlive => ?_⟩
    · rw [waits_of_not_live hgone, List.nil_append]
    · rw [hgone] at hlive
      cases hlive
  · refine ⟨[], ?_, fun _ => rfl⟩
    rw [List.append_nil]
    exact waits_congr (by rw [hsame])

namespace Conserves

lemma removeFaces {r : Relay σ κ} (h : r.Conserves) (ids : List FaceId) :
    (r.removeFaces ids).Conserves := by
  obtain ⟨hinterfaces, hcounters, hlog, -⟩ := r.removeFaces_moves_nothing ids
  refine h.of_quiet ?_ ?_ (hlog.trans (List.append_nil _).symm) (List.forall_mem_nil _)
  · rw [hinterfaces]
  · rw [hcounters]

/-- A new interface has accepted nothing, and nothing was ever handed to it. -/
lemma addInterface {r : Relay σ κ} (h : r.Conserves) (config : InterfaceConfig) :
    (r.addInterface config).2.Conserves := by
  unfold Relay.addInterface
  split
  · refine ⟨?_, ?_, h.drops, h.refusals⟩
    · intro k i hi
      rw [List.getElem?_append] at hi
      split at hi
      · exact h.interfaces k i hi
      · rename_i hnew
        have hother : ∀ event ∈ r.log, event.interface? ≠ some k := fun event hevent hk =>
          hnew (h.known event hevent k hk)
        obtain ⟨htaken, hrefused, hsent⟩ := nothing_of_other hother
        obtain rfl := List.mem_singleton.mp (List.mem_of_getElem? hi)
        refine ⟨Ring.filled_empty, ⟨[], htaken, hsent⟩, ?_, ?_⟩
        · rw [hsent]
          rfl
        · rw [hrefused]
          rfl
    · intro event hevent k hk
      rw [List.length_append]
      exact Nat.lt_add_right 1 (h.known event hevent k hk)
  · exact h

lemma create {config : Config} {clock : Timestamp} {digest : Bytes → Digest} {r : Relay σ κ}
    (hnew : Relay.create config clock digest = .ok r) : r.Conserves := by
  unfold Relay.create at hnew
  split at hnew
  · cases hnew
  · cases hnew
    refine ⟨?_, List.forall_mem_nil _, rfl, ?_⟩
    · intro k i hi
      obtain ⟨config, -, rfl⟩ := List.mem_map.mp (List.mem_of_getElem? hi)
      exact ⟨Ring.filled_empty, ⟨[], rfl, rfl⟩, rfl, rfl⟩
    · intro before k request hasRoom after hsplit
      exact absurd hsplit.symm (List.append_ne_nil_of_right_ne_nil _ (List.cons_ne_nil _ _))

end Conserves

end

lemma Conserves.run {r : Relay σ κ} (h : r.Conserves) (op : Operation σ κ) :
    (op.run r).Conserves := by
  cases r.course op with
  | moves ids hop hmoves hrun =>
    rw [hrun]
    exact (h.moves hmoves).removeFaces ids
  | offers index face packet destination => exact h.interfaceEnqueue index face packet destination
  | adds config => exact h.addInterface config
  | changes j hdirect =>
    refine h.of_quiet ?_ ?_ (hdirect.log.trans (List.append_nil _).symm) (List.forall_mem_nil _)
    · rw [hdirect.interfaces]
    · rw [hdirect.counters]

lemma Conserves.runAll {r : Relay σ κ} (h : r.Conserves) (ops : List (Operation σ κ)) :
    (Operation.runAll ops r).Conserves := by
  induction ops generalizing r with
  | nil => exact h
  | cons op ops ih => exact ih (h.run op)

/-! ## Faces along a run -/

section

omit [Scheduler σ] [CacheStrategy κ]

lemma Queues.removeFaces {r : Relay σ κ} (h : r.Queues) (ids : List FaceId) :
    (r.removeFaces ids).Queues := by
  obtain ⟨hinterfaces, -, -, hlatest⟩ := r.removeFaces_moves_nothing ids
  refine ⟨?_, ?_, fun id f hf => h.nodup id f (get?_of_removeFaces hf)⟩
  · intro id hlive
    obtain ⟨f, hf⟩ := Option.isSome_iff_exists.mp hlive
    rw [hlatest]
    exact h.number id (isLive_of_get? (get?_of_removeFaces hf))
  · rw [hinterfaces]
    exact fun id f hf => h.interface id f (get?_of_removeFaces hf)

lemma Queues.create {config : Config} {clock : Timestamp} {digest : Bytes → Digest}
    {r : Relay σ κ} (hnew : Relay.create config clock digest = .ok r) : r.Queues := by
  unfold Relay.create at hnew
  split at hnew
  · cases hnew
  · cases hnew
    exact ⟨nofun, nofun, nofun⟩

end

omit [Scheduler σ] [CacheStrategy κ] in
/-- All that a face passes on goes to its interface and its peer. -/
lemma Flows.exists_place {r m : Relay σ κ} {events : List Event} (h : r.Flows m events)
    (id : FaceId) :
    ∃ place, (∀ f, r.faces.get? id = some f → f.place = place) ∧
      (∀ f, m.faces.get? id = some f → f.place = place) ∧
      ∀ x ∈ Event.reached id events, (some x.1, some x.2.destination) = place := by
  refine ⟨(m.faces.get? id).elim (none, none) Face.place, ?_, ?_, ?_⟩
  · intro f hf
    obtain ⟨f', hf', hinterface, hpeer⟩ := h.places id f hf
    rw [hf']
    exact (Prod.ext hinterface hpeer : f'.place = f.place).symm
  · intro f hf
    rw [hf]
    rfl
  · intro x hx
    obtain ⟨event, hevent, hreaches⟩ := List.mem_filterMap.mp hx
    unfold reaches? at hreaches
    split at hreaches
    · split at hreaches
      · rename_i hface
        cases hreaches
        obtain ⟨f, hf, hinterface, hpeer⟩ := h.reached _ _ _ id hevent hface
        rw [hf]
        exact (Prod.ext hinterface hpeer : f.place = (some _, some _)).symm
      · cases hreaches
    · cases hreaches

/-- What an operation does to the queue of a face. What is lost is lost with the face. -/
structure Carries (r : Relay σ κ) (op : Operation σ κ) (id : FaceId) : Prop where
  queue : ∃ lost, op.leaves id r ++ ((op.run r).waits id ++ lost) = r.waits id ++ op.joins id r ∧
    ((op.run r).isLive id = true → lost = [])
  place : ∃ place, (∀ f, r.faces.get? id = some f → f.place = place) ∧
    (∀ f, (op.run r).faces.get? id = some f → f.place = place) ∧
    ∀ x ∈ op.reaches id r, (some x.1, some x.2.destination) = place
  latest : r.faces.latest ≤ (op.run r).faces.latest
  retired : r.Retired id → (op.run r).isLive id = false ∧ op.joins id r = []
  fresh : (op.run r).faces.latest < id.number → op.joins id r = []

namespace Carries

lemma of_moves {r m : Relay σ κ} {op : Operation σ κ} {ids : List FaceId} (hq : r.Queues)
    (hop : op.isDirect = false) (hmoves : Moves r m) (hrun : op.run r = m.removeFaces ids)
    (id : FaceId) : r.Carries op id := by
  obtain ⟨hm, events, hflows⟩ := hq.moves hmoves
  obtain ⟨-, -, hlog, hlatest⟩ := m.removeFaces_moves_nothing ids
  rw [← hrun] at hlog hlatest
  have hevents : op.events r = events := Operation.events_of_log (hlog.trans hflows.log)
  have hreaches : op.reaches id r = reached id events := by
    rw [Operation.reaches_of_not_direct hop, hevents]
  have hjoins : op.joins id r = joined id events := by
    rw [Operation.joins, Operation.puts_of_not_direct hop, hevents, List.append_nil]
  have hleaves : op.leaves id r = moved id events := by
    rw [Operation.leaves, Operation.takes_of_not_direct hop, hreaches, map_reached, List.append_nil]
  refine ⟨?_, ?_, ?_, ?_, ?_⟩
  · obtain ⟨lost, hwaits, hlost⟩ := m.exists_lost ids id
    have hqueue := hflows.queues id
    rw [← hwaits] at hqueue
    rw [hleaves, hjoins, hrun]
    exact ⟨lost, hqueue, hlost⟩
  · obtain ⟨place, hr, hm', hreached⟩ := hflows.exists_place id
    refine ⟨place, hr, fun f hf => ?_, hreaches ▸ hreached⟩
    rw [hrun] at hf
    exact hm' f (get?_of_removeFaces hf)
  · rw [hlatest]
    exact hflows.latest
  · intro hretired
    have hgone := hflows.retired id hretired
    rw [hjoins, hrun]
    refine ⟨?_, hflows.idle id hgone⟩
    rw [Bool.eq_false_iff]
    intro hlive
    obtain ⟨f, hf⟩ := Option.isSome_iff_exists.mp hlive
    rw [isLive_of_get? (get?_of_removeFaces hf)] at hgone
    cases hgone
  · intro hfresh
    rw [hlatest, UInt32.lt_iff_toNat_lt] at hfresh
    rw [hjoins]
    apply hflows.idle id
    rw [Bool.eq_false_iff]
    intro hlive
    have hle := UInt32.le_iff_toNat_le.mp (hm.number id hlive)
    omega

/-- Nothing happens to the face. -/
lemma of_same {r : Relay σ κ} {op : Operation σ κ} {id : FaceId}
    (hface : (op.run r).faces.get? id = r.faces.get? id)
    (hlatest : (op.run r).faces.latest = r.faces.latest) (hjoins : op.joins id r = [])
    (hleaves : op.leaves id r = []) (hreaches : op.reaches id r = []) : r.Carries op id where
  queue := by
    have hsame : (op.run r).waits id = r.waits id := waits_congr (by rw [hface])
    refine ⟨[], ?_, fun _ => rfl⟩
    rw [hjoins, hleaves, hsame, List.append_nil]
    rfl
  place := by
    rw [hface, hreaches]
    refine ⟨(r.faces.get? id).elim (none, none) Face.place, ?_, ?_, List.forall_mem_nil _⟩
    · intro f hf
      rw [hf]
      rfl
    · intro f hf
      rw [hf]
      rfl
  latest := by
    rw [hlatest]
    exact UInt32.le_refl _
  retired hretired := by
    unfold isLive
    rw [hface]
    exact ⟨hretired.1, hjoins⟩
  fresh _ := hjoins

/-- The program changes the queue of a face itself. -/
lemma of_requeues {r : Relay σ κ} {op : Operation σ κ} {f : Face σ} {queue : List Bytes}
    (hq : r.Queues) (h : r.Requeues (op.run r) f queue)
    (hown : op.leaves f.id r ++ queue = f.queue ++ op.joins f.id r)
    (hreaches : op.reaches f.id r = []) : r.Carries op f.id where
  queue := by
    refine ⟨[], ?_, fun _ => rfl⟩
    rw [waits_of_get? h.self, waits_of_get? h.face, List.append_nil]
    exact hown
  place := by
    refine ⟨f.place, ?_, ?_, hreaches ▸ List.forall_mem_nil _⟩
    · intro g hg
      rw [h.face] at hg
      cases hg
      rfl
    · intro g hg
      rw [h.self] at hg
      cases hg
      rfl
  latest := by
    rw [h.latest]
    exact UInt32.le_refl _
  retired hretired := by
    rw [Relay.Retired, isLive_of_get? h.face] at hretired
    cases hretired.1
  fresh hfresh := by
    have hle := UInt32.le_iff_toNat_le.mp (hq.number f.id (isLive_of_get? h.face))
    rw [h.latest, UInt32.lt_iff_toNat_lt] at hfresh
    omega

end Carries

omit [Scheduler σ] [CacheStrategy κ] in
/-- A request put on an interface touches no face. -/
lemma interfaceEnqueue_faces (r : Relay σ κ) (index : Nat) (face : Option FaceId) (packet : Bytes)
    (destination : Address) :
    (r.interfaceEnqueue index face packet destination).2.faces = r.faces ∧
      ∃ events, (r.interfaceEnqueue index face packet destination).2.log = r.log ++ events ∧
        ∀ id, joined id events = [] := by
  by_cases hindex : index < r.interfaces.length
  · obtain ⟨hasRoom, hlog, hfaces⟩ := interfaceEnqueue_eq r hindex face packet destination
    exact ⟨hfaces, _, hlog, fun _ => rfl⟩
  · unfold interfaceEnqueue
    rw [List.getElem?_eq_none (Nat.le_of_not_lt hindex)]
    exact ⟨rfl, [], (List.append_nil _).symm, fun _ => rfl⟩

lemma carries_interfaceEnqueue (r : Relay σ κ) (index : Nat) (face : Option FaceId)
    (packet : Bytes) (destination : Address) (id : FaceId) :
    r.Carries (.interfaceEnqueue index face packet destination) id := by
  obtain ⟨hfaces, events, hlog, hjoined⟩ := r.interfaceEnqueue_faces index face packet destination
  have hevents : (Operation.interfaceEnqueue index face packet destination).events r = events :=
    Operation.events_of_log hlog
  apply Carries.of_same
  · exact congrArg (·.get? id) hfaces
  · exact congrArg FaceRegistry.latest hfaces
  · rw [Operation.joins, hevents, hjoined]
    rfl
  · rfl
  · rfl

lemma carries_addInterface (r : Relay σ κ) (config : InterfaceConfig) (id : FaceId) :
    r.Carries (.addInterface config) id := by
  have hsame : (r.addInterface config).2.faces = r.faces ∧
      (r.addInterface config).2.log = r.log ++ [] := by
    unfold addInterface
    rw [List.append_nil]
    split
    · exact ⟨rfl, rfl⟩
    · exact ⟨rfl, rfl⟩
  have hevents : (Operation.addInterface config).events r = [] := Operation.events_of_log hsame.2
  apply Carries.of_same
  · exact congrArg (·.get? id) hsame.1
  · exact congrArg FaceRegistry.latest hsame.1
  · rw [Operation.joins, hevents]
    rfl
  · rw [Operation.leaves, Operation.reaches_of_not_direct rfl, hevents]
    rfl
  · rw [Operation.reaches_of_not_direct rfl, hevents]
    rfl

lemma carries_direct {r : Relay σ κ} (h : r.Queues) {op : Operation σ κ} {j : FaceId}
    (hdirect : r.Direct op j) (id : FaceId) : r.Carries op id := by
  have hevents : op.events r = [] :=
    Operation.events_of_log (hdirect.log.trans (List.append_nil _).symm)
  have hreaches : op.reaches id r = [] := by
    rw [hdirect.reaches, hevents]
    rfl
  have hjoins : op.joins id r = op.puts id r := by
    rw [Operation.joins, hevents]
    rfl
  have hleaves : op.leaves id r = op.takes id r := by
    rw [Operation.leaves, hreaches]
    rfl
  by_cases hid : id = j
  · subst hid
    cases hface : r.faces.get? id with
    | none =>
      obtain ⟨hsame, hputs, htakes⟩ := hdirect.gone hface
      exact .of_same (hsame id) hdirect.latest (hjoins.trans hputs) (hleaves.trans htakes) hreaches
    | some f =>
      obtain ⟨queue, hrequeued, hown, -⟩ := hdirect.there f hface
      obtain rfl := FaceRegistry.id_of_get? hface
      refine .of_requeues h hrequeued ?_ hreaches
      rw [hjoins, hleaves]
      exact hown
  · obtain ⟨hputs, htakes⟩ := hdirect.others id hid
    refine .of_same ?_ hdirect.latest (hjoins.trans hputs) (hleaves.trans htakes) hreaches
    cases hface : r.faces.get? j with
    | none => exact (hdirect.gone hface).1 id
    | some f =>
      obtain ⟨queue, hrequeued, -, -⟩ := hdirect.there f hface
      obtain rfl := FaceRegistry.id_of_get? hface
      exact hrequeued.other hid

/-- Each operation takes the packets of a face from the front of its queue. -/
lemma Queues.carries {r : Relay σ κ} (h : r.Queues) (op : Operation σ κ) (id : FaceId) :
    r.Carries op id := by
  cases r.course op with
  | moves ids hop hmoves hrun => exact .of_moves h hop hmoves hrun id
  | offers index face packet destination =>
    exact r.carries_interfaceEnqueue index face packet destination id
  | adds config => exact r.carries_addInterface config id
  | changes j hdirect => exact carries_direct h hdirect id

omit [Scheduler σ] [CacheStrategy κ] in
lemma Queues.of_get? {r r' : Relay σ κ} (h : r.Queues)
    (hget : ∀ id, r'.faces.get? id = r.faces.get? id) (hlatest : r'.faces.latest = r.faces.latest)
    (hlength : r.interfaces.length ≤ r'.interfaces.length) : r'.Queues where
  number id hlive := by
    unfold isLive at hlive
    rw [hget] at hlive
    rw [hlatest]
    exact h.number id hlive
  interface id f hf index hindex :=
    Nat.lt_of_lt_of_le (h.interface id f ((hget id).symm.trans hf) index hindex) hlength
  nodup id f hf := h.nodup id f ((hget id).symm.trans hf)

lemma Queues.run {r : Relay σ κ} (h : r.Queues) (op : Operation σ κ) : (op.run r).Queues := by
  cases r.course op with
  | moves ids hop hmoves hrun =>
    rw [hrun]
    exact (h.moves hmoves).1.removeFaces ids
  | offers index face packet destination =>
    obtain ⟨hfaces, -⟩ := r.interfaceEnqueue_faces index face packet destination
    have hlength := (r.interfaceEnqueue_sends index face packet destination).length_interfaces
    exact h.of_get? (fun id => congrArg (·.get? id) hfaces) (congrArg FaceRegistry.latest hfaces)
      (Nat.le_of_eq hlength.symm)
  | adds config =>
    change (r.addInterface config).2.Queues
    unfold addInterface
    split
    · refine h.of_get? (fun _ => rfl) rfl ?_
      simp
    · exact h
  | changes j hdirect =>
    have hlength : (op.run r).interfaces.length = r.interfaces.length := by
      rw [hdirect.interfaces]
    cases hface : r.faces.get? j with
    | none =>
      exact h.of_get? (hdirect.gone hface).1 hdirect.latest (Nat.le_of_eq hlength.symm)
    | some f =>
      obtain ⟨queue, hrequeued, -, hnodup⟩ := hdirect.there f hface
      obtain rfl := FaceRegistry.id_of_get? hface
      exact h.of_requeues hrequeued (hnodup (h.nodup f.id f hface)) hlength

end Relay

end NamedRelay
