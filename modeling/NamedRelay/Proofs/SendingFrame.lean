import NamedRelay.Proofs.Forwarding

/-!
# What sending leaves aside

Sending goes by the faces, the interfaces and the settings. The tables of names, the nonces, and
the counters of what came in are neither read nor changed by it, so it does not matter what they
hold, and they hold the same afterwards. The routes of an interest are looked up before it is sent.
-/

namespace NamedRelay

/-- The counters that moving packets on does not touch. -/
def Counters.intake (c : Counters) : Counters :=
  { c with interestsForwarded := 0, contentsForwarded := 0, queueDrops := 0 }

namespace Relay

variable {σ κ : Type}

/-- What sending neither reads nor changes. -/
structure Rest (κ : Type) where
  store : ContentStore
  strategy : Option κ
  pending : PendingTable
  table : ForwardingTable
  nonces : NonceHistory
  intake : Counters

def rest (r : Relay σ κ) : Rest κ :=
  ⟨r.store, r.strategy, r.pending, r.table, r.nonces, r.counters.intake⟩

def withRest (r : Relay σ κ) (t : Rest κ) : Relay σ κ :=
  { r with
    store := t.store
    strategy := t.strategy
    pending := t.pending
    table := t.table
    nonces := t.nonces
    counters := { t.intake with
      interestsForwarded := r.counters.interestsForwarded
      contentsForwarded := r.counters.contentsForwarded
      queueDrops := r.counters.queueDrops } }

section

variable (r : Relay σ κ) (t : Rest κ)

@[simp] lemma faces_withRest : (r.withRest t).faces = r.faces := rfl

@[simp] lemma interfaces_withRest : (r.withRest t).interfaces = r.interfaces := rfl

@[simp] lemma config_withRest : (r.withRest t).config = r.config := rfl

@[simp] lemma interfaceFor_withRest : (r.withRest t).interfaceFor = r.interfaceFor := rfl

omit t in
/-- A step that does not look at the rest does not change it. -/
lemma rest_eq_of_withRest {r' : Relay σ κ} (h : r' = r'.withRest r.rest) : r'.rest = r.rest := by
  rw [h]
  rfl

lemma interfaceEnqueue_withRest (index : Nat) (face : Option FaceId) (packet : Bytes)
    (destination : Address) :
    (r.withRest t).interfaceEnqueue index face packet destination =
      ((r.interfaceEnqueue index face packet destination).1,
        (r.interfaceEnqueue index face packet destination).2.withRest t) := by
  unfold interfaceEnqueue
  rw [interfaces_withRest]
  cases r.interfaces[index]? with
  | none => rfl
  | some i =>
    dsimp only
    split
    · rfl
    · rfl

lemma faceClearToSend_withRest (id : FaceId) :
    (r.withRest t).faceClearToSend id =
      ((r.faceClearToSend id).1, (r.faceClearToSend id).2.withRest t) := by
  unfold faceClearToSend
  rw [faces_withRest]
  cases r.faces.get? id with
  | none => rfl
  | some f =>
    dsimp only
    split
    · rename_i index destination packet f' _ _ _
      exact interfaceEnqueue_withRest { r with faces := r.faces.modify id fun _ => f' } t index
        (some id) packet destination
    · rfl

lemma createFace_withRest (interface : Option Nat) (peer : Option Address) :
    (r.withRest t).createFace interface peer =
      ((r.createFace interface peer).1, (r.createFace interface peer).2.withRest t) := by
  unfold createFace
  rw [faces_withRest]
  cases r.faces.nextId? with
  | none => rfl
  | some id => rfl

lemma getFace_withRest (interface : Option Nat) (peer : Option Address) :
    (r.withRest t).getFace interface peer =
      ((r.getFace interface peer).1, (r.getFace interface peer).2.withRest t) := by
  unfold getFace
  rw [interfaceFor_withRest]
  cases r.interfaceFor interface peer with
  | error e => rfl
  | ok interface =>
    dsimp only
    rw [faces_withRest]
    cases r.faces.findPeer? interface peer with
    | some f => rfl
    | none => exact r.createFace_withRest t interface peer

omit t in
lemma rest_getFace (interface : Option Nat) (peer : Option Address) :
    (r.getFace interface peer).2.rest = r.rest :=
  r.rest_eq_of_withRest (congrArg Prod.snd (r.getFace_withRest r.rest interface peer))

variable [Scheduler σ]

lemma askFace_withRest (f : Face σ) (length : Nat) :
    (r.withRest t).askFace f length =
      ((r.askFace f length).1, (r.askFace f length).2.withRest t) := by
  unfold askFace
  split
  · rfl
  · rfl

omit t in
/-- A packet that is new on a face joins its queue, and one moves on if the scheduler agrees. -/
lemma offer_eq (purpose : Purpose) {f : Face σ} (hf : r.faces.get? f.id = some f)
    (packet : Bytes) :
    r.offer purpose f.id packet =
      if (f.enqueue packet).1 then
        let asked := (r.queue purpose f packet).askFace (f.enqueue packet).2 packet.length
        (.ok true, if asked.1 then (asked.2.faceClearToSend f.id).2 else asked.2)
      else (.ok false, r.queue purpose f packet) := by
  unfold offer
  rw [hf]
  dsimp only
  unfold queue
  split
  · split
    · rename_i hasked
      rw [hasked]
      rfl
    · rename_i hasked
      rw [hasked]
      rfl
  · rfl

lemma offer_withRest (purpose : Purpose) (id : FaceId) (packet : Bytes) :
    (r.withRest t).offer purpose id packet =
      ((r.offer purpose id packet).1, (r.offer purpose id packet).2.withRest t) := by
  cases hf : r.faces.get? id with
  | none =>
    rw [offer_of_not_live r purpose hf, offer_of_not_live (r.withRest t) purpose hf]
  | some f =>
    obtain rfl := FaceRegistry.id_of_get? hf
    have hqueue : (r.withRest t).queue purpose f packet =
        (r.queue purpose f packet).withRest t := rfl
    rw [r.offer_eq purpose hf, (r.withRest t).offer_eq purpose hf, hqueue]
    dsimp only
    rw [askFace_withRest]
    split
    · dsimp only
      split
      · rw [faceClearToSend_withRest]
      · rfl
    · rfl

omit t in
lemma rest_offer (purpose : Purpose) (id : FaceId) (packet : Bytes) :
    (r.offer purpose id packet).2.rest = r.rest :=
  r.rest_eq_of_withRest (congrArg Prod.snd (r.offer_withRest r.rest purpose id packet))

lemma forwardInterest_withRest (wire : Bytes) (id : FaceId) :
    (r.withRest t).forwardInterest wire id = (r.forwardInterest wire id).withRest t :=
  congrArg Prod.snd (offer_withRest
    (r.tally fun c => { c with interestsForwarded := c.interestsForwarded + 1 }) t .interest id
    wire)

lemma broadcastOn_withRest (wire : Bytes) (suite : Suite) (index : Nat) :
    (r.withRest t).broadcastOn wire suite index =
      (r.broadcastOn wire suite index).withRest t := by
  unfold broadcastOn
  rw [interfaces_withRest]
  cases r.interfaces[index]? with
  | none => rfl
  | some i =>
    dsimp only
    rw [getFace_withRest]
    rcases r.getFace (some index) (some (i.address.broadcast suite)) with ⟨e | id, m⟩
    · rfl
    · exact m.forwardInterest_withRest t wire id

omit [Scheduler σ] in
/-- Steps that do not look at the rest may be done one after the other. -/
lemma foldl_withRest {α : Type} {f : Relay σ κ → α → Relay σ κ}
    (hf : ∀ r a, f (r.withRest t) a = (f r a).withRest t) (items : List α) :
    items.foldl f (r.withRest t) = (items.foldl f r).withRest t :=
  List.foldl_hom (fun m : Relay σ κ => m.withRest t) hf

lemma broadcast_withRest (wire : Bytes) (suite : Suite) :
    (r.withRest t).broadcast wire suite = (r.broadcast wire suite).withRest t :=
  r.foldl_withRest t (fun m index => m.broadcastOn_withRest t wire suite index) _

/-- All that sending an interest goes by in the rest is the routes it takes. -/
lemma propagate_withRest {e : PendingInterest}
    (hroutes : (r.withRest t).routesFor e = r.routesFor e) :
    (r.withRest t).propagate e = (r.propagate e).withRest t := by
  have htaps : (r.withRest t).emitAll (tapEvents e (r.routesFor e)) =
      (r.emitAll (tapEvents e (r.routesFor e))).withRest t := rfl
  have hforward := foldl_withRest (r.emitAll (tapEvents e (r.routesFor e))) t
    (f := fun m id => m.forwardInterest e.packet.wire id)
    (fun m id => m.forwardInterest_withRest t e.packet.wire id)
    ((r.routesFor e).filterMap Route.face)
  unfold propagate
  dsimp only
  rw [hroutes, htaps, hforward, config_withRest]
  split
  · exact broadcast_withRest _ t e.packet.wire e.packet.suite
  · rfl

omit t in
lemma rest_propagate (e : PendingInterest) : (r.propagate e).rest = r.rest :=
  r.rest_eq_of_withRest (r.propagate_withRest r.rest rfl)

end

end Relay

end NamedRelay
