import NamedRelay.Proofs.Registry
import NamedRelay.Proofs.Request
import NamedRelay.Proofs.SendingFrame

/-!
# Where an interest goes

The routes that take an interest are those of its family whose components lead its name, in the
order of the table, without those back to a face that it came from and that does not reflect.
Propagation shows the interest to the observers of these routes and puts it on their faces, and on
no other. Only where no route takes it, a broadcast may put it on one face for each interface: that
of the interface's broadcast address, which is created if it is not there.
-/

namespace NamedRelay

def Event.isTap : Event → Bool
  | tapped _ _ _ _ => true
  | _ => false

namespace Route

/-- The route is of the name's family, and its components lead the name. -/
def Leads (route : Route) (name : Name) : Prop :=
  route.name.suite = name.suite ∧ route.name.components <+: name.components

instance (route : Route) (name : Name) : Decidable (route.Leads name) :=
  inferInstanceAs (Decidable (_ ∧ _))

lemma covers_iff (route : Route) (name : Name) : route.covers name = true ↔ route.Leads name := by
  unfold covers Leads
  rw [Bool.and_eq_true, beq_iff_eq, Name.leads_iff]

end Route

namespace Relay

variable {σ κ : Type}

/-! ## The routes that take an interest -/

/-- The route leads back to where the interest came from, and that face does not reflect. -/
def LeadsBack (r : Relay σ κ) (e : PendingInterest) (route : Route) : Prop :=
  ∃ id ∈ e.arrival, route.face = some id ∧ ∀ f ∈ r.faces.get? id, f.flags.reflect = false

instance (r : Relay σ κ) (e : PendingInterest) (route : Route) : Decidable (r.LeadsBack e route) :=
  inferInstanceAs (Decidable (∃ id ∈ e.arrival, _))

/-- The routes that take an interest. -/
def takers (r : Relay σ κ) (e : PendingInterest) : List Route :=
  r.table.routes.filter fun route => route.Leads e.packet.name ∧ ¬r.LeadsBack e route

lemma leadsBack_iff (r : Relay σ κ) (e : PendingInterest) (route : Route) :
    (e.arrival.isSome && route.face == e.arrival && !r.reflects e.arrival) = true ↔
      r.LeadsBack e route := by
  unfold LeadsBack reflects
  cases harrival : e.arrival with
  | none => simp
  | some id =>
    cases hface : r.faces.get? id with
    | none => simp [hface]
    | some f => simp [hface]

lemma routesFor_eq (r : Relay σ κ) (e : PendingInterest) : r.routesFor e = r.takers e := by
  unfold routesFor ForwardingTable.covering takers
  rw [List.filter_filter]
  apply List.filter_congr
  intro route _
  apply Bool.eq_iff_iff.mpr
  rw [Bool.and_eq_true, Bool.not_eq_true', ← Bool.not_eq_true, leadsBack_iff, Route.covers_iff,
    decide_eq_true_iff, and_comm]

/-! ## Nobody else is shown an interest -/

/-- No observer is shown anything meanwhile. -/
def Unobserved (r r' : Relay σ κ) : Prop :=
  ∃ events, r'.log = r.log ++ events ∧ events.filter Event.isTap = []

namespace Unobserved

lemma refl (r : Relay σ κ) : r.Unobserved r :=
  ⟨[], (List.append_nil _).symm, rfl⟩

lemma trans {r m r' : Relay σ κ} (h : r.Unobserved m) (h' : m.Unobserved r') : r.Unobserved r' := by
  obtain ⟨events, hlog, hnone⟩ := h
  obtain ⟨events', hlog', hnone'⟩ := h'
  refine ⟨events ++ events', by rw [hlog', hlog, List.append_assoc], ?_⟩
  rw [List.filter_append, hnone, hnone', List.append_nil]

lemma foldl {α : Type} {f : Relay σ κ → α → Relay σ κ}
    (hf : ∀ (m : Relay σ κ) (a : α), m.Unobserved (f m a)) (items : List α) (r : Relay σ κ) :
    r.Unobserved (items.foldl f r) := by
  induction items generalizing r with
  | nil => exact refl r
  | cons a items ih => exact (hf r a).trans (ih (f r a))

lemma interfaceEnqueue (r : Relay σ κ) (index : Nat) (face : Option FaceId) (packet : Bytes)
    (destination : Address) :
    r.Unobserved (r.interfaceEnqueue index face packet destination).2 := by
  unfold Relay.interfaceEnqueue
  split
  · exact refl r
  · dsimp only
    split
    · exact ⟨[_], rfl, rfl⟩
    · exact ⟨[_], rfl, rfl⟩

lemma faceClearToSend (r : Relay σ κ) (id : FaceId) : r.Unobserved (r.faceClearToSend id).2 := by
  unfold Relay.faceClearToSend
  split
  · exact refl r
  · split
    · exact interfaceEnqueue _ _ _ _ _
    · exact refl r

lemma getFace (r : Relay σ κ) (interface : Option Nat) (peer : Option Address) :
    r.Unobserved (r.getFace interface peer).2 := by
  unfold Relay.getFace
  split
  · exact refl r
  · rename_i place _
    split
    · exact ⟨[], (List.append_nil _).symm, rfl⟩
    · rcases r.createFace_cases place peer with hnone | ⟨id, sought, -, hsought, hcreated⟩
      · rw [hnone]
        exact refl r
      · rw [hcreated]
        refine ⟨sought, rfl, ?_⟩
        rcases hsought with rfl | rfl
        · rfl
        · rfl

variable [Scheduler σ]

lemma askFace (r : Relay σ κ) (f : Face σ) (length : Nat) :
    r.Unobserved (r.askFace f length).2 := by
  unfold Relay.askFace
  split
  · exact refl r
  · exact ⟨[_], rfl, rfl⟩

lemma offer (r : Relay σ κ) (purpose : Purpose) (id : FaceId) (packet : Bytes) :
    r.Unobserved (r.offer purpose id packet).2 := by
  cases hface : r.faces.get? id with
  | none =>
    rw [offer_of_not_live r purpose hface]
    exact refl r
  | some f =>
    obtain rfl := FaceRegistry.id_of_get? hface
    have hqueued : r.Unobserved (r.queue purpose f packet) := ⟨[_], rfl, rfl⟩
    have hasked := hqueued.trans (askFace _ (f.enqueue packet).2 packet.length)
    rw [r.offer_eq purpose hface]
    dsimp only
    split
    · dsimp only
      split
      · exact hasked.trans (faceClearToSend _ f.id)
      · exact hasked
    · exact hqueued

lemma forwardInterest (r : Relay σ κ) (wire : Bytes) (id : FaceId) :
    r.Unobserved (r.forwardInterest wire id) :=
  offer (r.tally fun c => { c with interestsForwarded := c.interestsForwarded + 1 }) .interest id
    wire

lemma broadcastOn (r : Relay σ κ) (wire : Bytes) (suite : Suite) (index : Nat) :
    r.Unobserved (r.broadcastOn wire suite index) := by
  unfold Relay.broadcastOn
  split
  · exact refl r
  · rename_i i _
    have hface := getFace r (some index) (some (i.address.broadcast suite))
    split
    · rename_i id m hm
      rw [hm] at hface
      exact hface.trans (forwardInterest m wire id)
    · rename_i e m hm
      rwa [hm] at hface

/-- Propagation shows the interest to the observers of its routes, and to no other. -/
lemma propagate (r : Relay σ κ) (e : PendingInterest) :
    (r.emitAll (tapEvents e (r.routesFor e))).Unobserved (r.propagate e) := by
  have hforwarded := foldl (fun m id => forwardInterest m e.packet.wire id)
    ((r.routesFor e).filterMap Route.face) (r.emitAll (tapEvents e (r.routesFor e)))
  unfold Relay.propagate
  dsimp only
  split
  · exact hforwarded.trans (foldl (fun m index => broadcastOn m _ _ index) _ _)
  · exact hforwarded

end Unobserved

/-! ## Broadcasts -/

lemma offer_sameFaces [Scheduler σ] {r : Relay σ κ} (h : r.faces.Numbered) (purpose : Purpose)
    (id : FaceId) (packet : Bytes) : r.faces.SameFaces (r.offer purpose id packet).2.faces := by
  cases hface : r.faces.get? id with
  | none =>
    rw [offer_of_not_live r purpose hface]
    exact .refl r.faces
  | some f =>
    obtain rfl := FaceRegistry.id_of_get? hface
    have hqueued := queue_sameFaces h purpose hface packet
    have hstill := Still.askFace (r.queue purpose f packet) (f.enqueue packet).2 packet.length
    have hasked := hqueued.trans (hstill.sameFaces (hqueued.numbered h))
    rw [r.offer_eq purpose hface]
    dsimp only
    split
    · dsimp only
      split
      · exact hasked.trans (faceClearToSend_sameFaces (hasked.numbered h) f.id)
      · exact hasked
    · exact hqueued

lemma forwardInterest_sameFaces [Scheduler σ] {r : Relay σ κ} (h : r.faces.Numbered) (wire : Bytes)
    (id : FaceId) : r.faces.SameFaces (r.forwardInterest wire id).faces :=
  offer_sameFaces (r := r.tally fun c => { c with interestsForwarded := c.interestsForwarded + 1 })
    h .interest id wire

/-- The place of the broadcast address of an interface. -/
def broadcastPlace (r : Relay σ κ) (suite : Suite) (index : Nat) : Option Nat × Option Address :=
  (some index, (r.interfaces[index]?).map fun i => i.address.broadcast suite)

/-- Those of the interfaces whose broadcast address has no face. -/
def strangers (r : Relay σ κ) (suite : Suite) (indices : List Nat) : List Nat :=
  indices.filter fun index => r.broadcastPlace suite index ∉ r.faces.faces.map Face.place

/-- The last number that is given out if all strangers get one. -/
def lastNeeded (r : Relay σ κ) (suite : Suite) (indices : List Nat) : Nat :=
  r.faces.latest.toNat + (r.strangers suite indices).length

lemma length_strangers_cons (r : Relay σ κ) (suite : Suite) (index : Nat) (indices : List Nat) :
    (r.strangers suite (index :: indices)).length =
      (if r.broadcastPlace suite index ∈ r.faces.faces.map Face.place then 0 else 1) +
        (r.strangers suite indices).length := by
  unfold strangers
  by_cases hknown : r.broadcastPlace suite index ∈ r.faces.faces.map Face.place
  · rw [List.filter_cons_of_neg (by simpa using hknown), if_pos hknown, Nat.zero_add]
  · rw [List.filter_cons_of_pos (by simpa using hknown), if_neg hknown, List.length_cons,
      Nat.add_comm]

lemma KeepsFaces.broadcastPlace {r r' : Relay σ κ} (h : r.KeepsFaces r') (suite : Suite)
    (index : Nat) : r'.broadcastPlace suite index = r.broadcastPlace suite index := by
  have hsettings := congrArg (fun settings => (settings[index]?).map Prod.fst) h.interfaces
  simp only [List.getElem?_map, Option.map_map] at hsettings
  have haddress : (r'.interfaces[index]?).map Interface.address =
      (r.interfaces[index]?).map Interface.address := hsettings
  have hbroadcast := congrArg (Option.map fun address => address.broadcast suite) haddress
  rw [Option.map_map, Option.map_map] at hbroadcast
  exact Prod.ext rfl hbroadcast

/-- Where faces are only added, nobody becomes a stranger. -/
lemma KeepsFaces.length_strangers_le {r r' : Relay σ κ} (h : r.KeepsFaces r')
    (hplaces : r.faces.faces.map Face.place ⊆ r'.faces.faces.map Face.place) (suite : Suite)
    (indices : List Nat) :
    (r'.strangers suite indices).length ≤ (r.strangers suite indices).length := by
  apply List.Sublist.length_le
  apply List.monotone_filter_right
  intro index hstranger
  rw [decide_eq_true_iff] at hstranger ⊢
  rw [h.broadcastPlace] at hstranger
  exact fun hmem => hstranger (hplaces hmem)

variable [Scheduler σ]

/-- The face of a broadcast address is found or created, if there is a number for it. -/
lemma getFace_reaches {r : Relay σ κ} (h : r.faces.Registered) {index : Nat}
    (hindex : index < r.interfaces.length) (peer : Address)
    (hnumber : (some index, some peer) ∈ r.faces.faces.map Face.place ∨
      r.faces.latest.toNat ≠ UInt32.size - 1) :
    ∃ id m, r.getFace (some index) (some peer) = (.ok id, m) ∧ m.faces.Registered ∧
      (∃ f, m.faces.get? id = some f ∧ f.place = (some index, some peer)) ∧
      r.faces.faces.map Face.place ⊆ m.faces.faces.map Face.place ∧
      m.faces.latest.toNat = r.faces.latest.toNat +
        if (some index, some peer) ∈ r.faces.faces.map Face.place then 0 else 1 := by
  have hgets := getsFace h (some index) (some peer)
  have hplace : r.interfaceFor (some index) (some peer) = .ok (some index) := if_pos hindex
  obtain ⟨ids, hevolves⟩ :=
    faces_evolve_of_moves (Moves.getFace r (some index) (some peer)) h.toNumbered
  have hregistered := hevolves.registered h
  by_cases hknown : (some index, some peer) ∈ r.faces.faces.map Face.place
  · obtain ⟨f, hf, hthere⟩ := List.mem_map.mp hknown
    have hfound := hgets.known _ hplace f hf hthere
    have hsame := (Still.touchFace r f.id r.clock).sameFaces h.toNumbered
    have hplaces := (touchFace_sends r f.id r.clock).places f.id f (h.get?_of_mem hf)
    rw [hthere] at hplaces
    rw [hfound] at hregistered
    refine ⟨f.id, _, hfound, hregistered, hplaces, ?_, ?_⟩
    · rw [hsame.places]
      exact List.Subset.refl _
    · rw [hsame.latest, if_pos hknown]
      rfl
  · have hnobody : ∀ f ∈ r.faces.faces, f.place ≠ (some index, some peer) := fun f hf hthere =>
      hknown (List.mem_map.mpr ⟨f, hf, hthere⟩)
    obtain ⟨face, hthere, hid, hok, hfaces⟩ :=
      hgets.stranger _ hplace hnobody (hnumber.resolve_left hknown)
    refine ⟨face.id, _, Prod.ext hok rfl, hregistered, ⟨face, ?_, hthere⟩, ?_, ?_⟩
    · apply hregistered.get?_of_mem
      rw [hfaces]
      exact List.mem_append_right _ (List.mem_singleton_self face)
    · rw [hfaces, List.map_append]
      exact List.subset_append_left _ _
    · rw [hfaces, if_neg hknown, ← hid]

/-- On an interface that is there, the packet goes out on the face of the broadcast address.
Strangers that are still to come need no other numbers than before. -/
lemma broadcastOn_reaches {r : Relay σ κ} (h : r.faces.Registered) (wire : Bytes) (suite : Suite)
    {index : Nat} (hindex : index < r.interfaces.length)
    (hnumber : r.broadcastPlace suite index ∈ r.faces.faces.map Face.place ∨
      r.faces.latest.toNat ≠ UInt32.size - 1) :
    ∃ id, r.Sends (r.broadcastOn wire suite index) [.face id .interest wire] ∧
      (r.broadcastOn wire suite index).faces.Registered ∧
      (∃ f, (r.broadcastOn wire suite index).faces.get? id = some f ∧
        f.place = r.broadcastPlace suite index) ∧
      ∀ indices, (r.broadcastOn wire suite index).lastNeeded suite indices ≤
        r.lastNeeded suite (index :: indices) := by
  have hget := List.getElem?_eq_getElem hindex
  have hplace : r.broadcastPlace suite index =
      (some index, some (r.interfaces[index].address.broadcast suite)) := by
    unfold broadcastPlace
    rw [hget]
    rfl
  rw [hplace] at hnumber
  obtain ⟨id, m, hm, hregistered, ⟨f, hf, hthere⟩, hplaces, hlatest⟩ :=
    getFace_reaches h hindex _ hnumber
  have hfound := r.getFace_sends (some index) (some (r.interfaces[index].address.broadcast suite))
  rw [hm] at hfound
  have hsent := m.forwardInterest_sends wire (isLive_of_get? hf)
  have hsame := forwardInterest_sameFaces hregistered.toNumbered wire id
  have hrun : r.broadcastOn wire suite index = m.forwardInterest wire id := by
    unfold broadcastOn
    rw [hget]
    dsimp only
    rw [hm]
  rw [hrun]
  refine ⟨id, hfound.trans hsent, hregistered.of_sameFaces hsame, ?_, fun indices => ?_⟩
  · rw [hplace, ← hthere]
    exact hsent.places id f hf
  · have hfewer := (hfound.trans hsent).toKeepsFaces.length_strangers_le (hsame.places ▸ hplaces)
      suite indices
    unfold lastNeeded
    rw [hsame.latest, hlatest, length_strangers_cons, hplace, ← Nat.add_assoc]
    exact Nat.add_le_add_left hfewer _

/-- While numbers suffice, the packet goes out once on each of the interfaces, in order, on the face
of the broadcast address. -/
lemma foldl_broadcastOn_reaches {r : Relay σ κ} (h : r.faces.Registered) (wire : Bytes)
    (suite : Suite) (indices : List Nat) (hindices : ∀ index ∈ indices, index < r.interfaces.length)
    (hnumbers : r.lastNeeded suite indices < UInt32.size) :
    ∃ ids, r.Sends (indices.foldl (fun m index => m.broadcastOn wire suite index) r)
        (ids.map fun id => .face id .interest wire) ∧
      (indices.foldl (fun m index => m.broadcastOn wire suite index) r).faces.Registered ∧
      List.Forall₂ (fun index id =>
        ∃ f, (indices.foldl (fun m index => m.broadcastOn wire suite index) r).faces.get? id =
          some f ∧ f.place = r.broadcastPlace suite index) indices ids := by
  induction indices generalizing r with
  | nil => exact ⟨[], Sends.refl r, h, .nil⟩
  | cons index indices ih =>
    have hnumber : r.broadcastPlace suite index ∈ r.faces.faces.map Face.place ∨
        r.faces.latest.toNat ≠ UInt32.size - 1 := by
      by_contra hnone
      obtain ⟨hstranger, hlast⟩ := not_or.mp hnone
      unfold lastNeeded at hnumbers
      rw [length_strangers_cons, if_neg hstranger, not_not.mp hlast] at hnumbers
      unfold UInt32.size at hnumbers
      omega
    obtain ⟨id, hsent, hregistered, ⟨f, hf, hthere⟩, hneeded⟩ :=
      broadcastOn_reaches h wire suite (hindices index List.mem_cons_self) hnumber
    have hlength := hsent.length_interfaces
    obtain ⟨ids, hrest, hregistered', hreached⟩ := ih hregistered
      (fun j hj => hlength ▸ hindices j (List.mem_cons_of_mem index hj))
      (Nat.lt_of_le_of_lt (hneeded indices) hnumbers)
    refine ⟨id :: ids, hsent.trans hrest, hregistered', .cons ?_ ?_⟩
    · rw [← hthere]
      exact hrest.places id f hf
    · refine hreached.imp fun j _ hface => ?_
      rwa [hsent.toKeepsFaces.broadcastPlace] at hface

/-- Numbers suffice for all broadcast addresses that have no face yet. -/
def NumbersSuffice (r : Relay σ κ) (suite : Suite) : Prop :=
  r.lastNeeded suite (List.range r.interfaces.length) < UInt32.size

/-- What the propagation of a pending interest does. What it adds to the log are `events`. -/
structure Propagates (r : Relay σ κ) (e : PendingInterest) (events : List Event)
    (r' : Relay σ κ) : Prop where
  log : r'.log = r.log ++ events
  taps : events.filter Event.isTap = (r.takers e).filterMap fun route =>
    route.tap.map fun tap => .tapped tap e.arrival e.packet.name e.packet.wire
  routed : r.takers e ≠ [] ∨ r.config.broadcastFallback = false →
    events.filterMap Event.handing? =
      ((r.takers e).filterMap Route.face).map fun id => .face id .interest e.packet.wire
  broadcast : r.takers e = [] → r.config.broadcastFallback = true →
    r.NumbersSuffice e.packet.suite →
      ∃ ids,
        events.filterMap Event.handing? = ids.map (fun id => .face id .interest e.packet.wire) ∧
        List.Forall₂ (fun index id => ∃ f, r'.faces.get? id = some f ∧
          f.place = r.broadcastPlace e.packet.suite index ∧
          ∀ old ∈ r.faces.faces, old.place = f.place → old.id = id)
          (List.range r.interfaces.length) ids
  counted : r'.counters.interestsForwarded = r.counters.interestsForwarded +
    UInt64.ofNat (events.filterMap Event.handing?).length
  pending : r'.pending = r.pending
  store : r'.store = r.store
  table : r'.table = r.table

lemma filter_tapEvents (e : PendingInterest) (routes : List Route) :
    (tapEvents e routes).filter Event.isTap = tapEvents e routes := by
  apply List.filter_eq_self.mpr
  intro event hevent
  obtain ⟨route, -, htap⟩ := List.mem_filterMap.mp hevent
  obtain ⟨tap, -, rfl⟩ := Option.map_eq_some_iff.mp htap
  rfl

lemma propagate_of_no_takers {r : Relay σ κ} {e : PendingInterest} (hnone : r.takers e = [])
    (hfallback : r.config.broadcastFallback = true) :
    r.propagate e = r.broadcast e.packet.wire e.packet.suite := by
  have hlog : r.emitAll [] = r := by
    unfold emitAll
    rw [List.append_nil]
  unfold propagate
  dsimp only
  rw [routesFor_eq, hnone]
  change (if ([] : List Route).isEmpty && r.config.broadcastFallback then
    (r.emitAll []).broadcast e.packet.wire e.packet.suite else r.emitAll []) = _
  rw [hfallback, hlog]
  rfl

/-- A broadcast reaches the broadcast address of each interface, on the face that it had or on a new
one. -/
lemma broadcast_reaches {r : Relay σ κ} (h : r.faces.Registered) (wire : Bytes) (suite : Suite)
    (hnumbers : r.NumbersSuffice suite) :
    ∃ ids, r.Sends (r.broadcast wire suite) (ids.map fun id => .face id .interest wire) ∧
      List.Forall₂ (fun index id => ∃ f, (r.broadcast wire suite).faces.get? id = some f ∧
        f.place = r.broadcastPlace suite index ∧
        ∀ old ∈ r.faces.faces, old.place = f.place → old.id = id)
        (List.range r.interfaces.length) ids := by
  obtain ⟨ids, hsent, hregistered, hreached⟩ := foldl_broadcastOn_reaches h wire suite
    (List.range r.interfaces.length) (fun index hindex => List.mem_range.mp hindex) hnumbers
  refine ⟨ids, hsent, hreached.imp ?_⟩
  rintro index id ⟨f, hf, hthere⟩
  refine ⟨f, hf, hthere, fun old hold hplace => ?_⟩
  obtain ⟨f', hf', hplace'⟩ := hsent.places old.id old (h.get?_of_mem hold)
  have hsame := hregistered.eq_of_place (FaceRegistry.mem_of_get? hf')
    (FaceRegistry.mem_of_get? hf) (hplace'.trans hplace)
  rw [← FaceRegistry.id_of_get? hf', hsame, FaceRegistry.id_of_get? hf]

lemma propagate_propagates {r : Relay σ κ} (hl : r.Linked) (h : r.faces.Registered)
    (e : PendingInterest) : ∃ events, r.Propagates e events (r.propagate e) := by
  obtain ⟨events, hlog, hunseen⟩ := Unobserved.propagate r e
  obtain ⟨others, hsent, hothers, hfallback⟩ := r.propagate_sends e (hl.targets e)
  have hgained : (r.propagate e).log = r.log ++ (tapEvents e (r.routesFor e) ++ events) :=
    hlog.trans (List.append_assoc _ _ _)
  have hdropped : (r.propagate e).log.drop r.log.length =
      tapEvents e (r.routesFor e) ++ events := by
    rw [hgained, List.drop_left]
  have hhandings := hsent.handings_eq
  rw [hdropped] at hhandings
  have hrest := r.rest_propagate e
  refine ⟨tapEvents e (r.routesFor e) ++ events, hgained, ?_, ?_, ?_, ?_,
    congrArg Rest.pending hrest, congrArg Rest.store hrest, congrArg Rest.table hrest⟩
  · rw [List.filter_append, hunseen, List.append_nil, filter_tapEvents, routesFor_eq]
    rfl
  · intro htaken
    have hnone : others = [] := by
      by_contra hsome
      obtain ⟨hroutes, hbroadcast⟩ := hfallback hsome
      rw [routesFor_eq] at hroutes
      rcases htaken with htaken | hoff
      · exact htaken hroutes
      · rw [hbroadcast] at hoff
        cases hoff
    rw [hhandings, hnone, List.append_nil, targets, routesFor_eq]
  · intro hnone hbroadcast hnumbers
    have hrun := propagate_of_no_takers hnone hbroadcast
    obtain ⟨ids, hsent', hreached⟩ :=
      broadcast_reaches h e.packet.wire e.packet.suite hnumbers
    rw [← hrun] at hsent' hreached
    have hids := hsent'.handings_eq
    rw [hdropped] at hids
    exact ⟨ids, hids, hreached⟩
  · have hall : ∀ handing ∈
        (r.targets e).map (fun id => .face id .interest e.packet.wire) ++ others,
        Handing.isInterest handing = true := by
      intro handing hmem
      rcases List.mem_append.mp hmem with hmem | hmem
      · obtain ⟨id, -, rfl⟩ := List.mem_map.mp hmem
        rfl
      · obtain ⟨id, rfl⟩ := hothers handing hmem
        rfl
    rw [hsent.interests, hhandings, List.countP_eq_length.mpr hall]

end Relay

/-- Propagation, exactly. The observers of the routes that take the interest are shown it, in order
and once for each route, and it is put once on the face of each of these routes, in order, which is
counted. Nothing else is sent, except that without any such route, and with the fallback to it, the
interest goes out once on each interface instead, in order, on the face of its broadcast address,
while there are numbers for new faces. The tables stay as they are, and so does everything where the
handle leads nowhere. -/
theorem interests_go_where_routes_take_them {σ κ : Type} [Scheduler σ] [CacheStrategy κ]
    {r : Relay σ κ} (hr : Reachable r) (h : Handle) :
    (∀ e, r.pending.get? h = some e → ∃ events, r.Propagates e events (r.interestPropagate h)) ∧
      (r.pending.get? h = none → r.interestPropagate h = r) := by
  constructor
  · intro e he
    have hrun : r.interestPropagate h = r.propagate e := by
      unfold Relay.interestPropagate
      rw [he]
    rw [hrun]
    exact Relay.propagate_propagates hr.linked hr.registered e
  · intro hnone
    unfold Relay.interestPropagate
    rw [hnone]

namespace Sample

/-- The interest of the first peer is pending. One of the routes that lead its name has an observer,
and the other one leads back to that peer. -/
def watched : Relay Allowance CachePolicy :=
  Operation.runAll [.addRoute name ⟨2⟩, .addTap name "watch", .addRoute (Name.root .ccnb) ⟨1⟩,
    .handleInterest ⟨1⟩ (interest none)] peered

lemma reachable_watched : Reachable watched :=
  reachable_peered.runAll _

/-- Interests that no route takes are broadcast. The interest of a peer is pending, and has gone out
on the face of the broadcast address. -/
def calling : Relay Allowance CachePolicy :=
  Operation.runAll [meets 2, .handleInterest ⟨1⟩ (interest none)]
    { created with config := { config with broadcastFallback := true } }

lemma reachable_calling : Reachable calling :=
  (Reachable.create { config with broadcastFallback := true } ⟨0⟩ digest rfl).runAll _

/-- The interest of the first peer, as it is pending. -/
def pendingEntry : PendingInterest :=
  .fromFace (interest none) ⟨1⟩ config.interestTimeout ⟨0⟩

end Sample

/-- One route shows the interest to its observer and leads it on, the other one is left out; without
routes it goes out on the one interface that there is. -/
theorem watched_interest_goes_on :
    Reachable Sample.watched ∧ Sample.watched.pending.get? ⟨0, 0⟩ = some Sample.pendingEntry ∧
      (∃ events, (Sample.watched.interestPropagate ⟨0, 0⟩).log = Sample.watched.log ++ events ∧
        events.filter Event.isTap = [.tapped "watch" (some ⟨1⟩) Sample.name [1]] ∧
        events.filterMap Event.handing? = [.face ⟨2⟩ .interest [1]]) ∧
      Reachable Sample.calling ∧ Sample.calling.pending.get? ⟨0, 0⟩ = some Sample.pendingEntry ∧
      ∃ (events : List Event) (ids : List FaceId),
        (Sample.calling.interestPropagate ⟨0, 0⟩).log = Sample.calling.log ++ events ∧
        events.filterMap Event.handing? = ids.map (fun id => .face id .interest [1]) ∧
        ids.length = 1 := by
  have hwatched : Sample.watched.pending.get? ⟨0, 0⟩ = some Sample.pendingEntry := by decide
  have hcalling : Sample.calling.pending.get? ⟨0, 0⟩ = some Sample.pendingEntry := by decide
  obtain ⟨events, hgoes⟩ :=
    (interests_go_where_routes_take_them Sample.reachable_watched ⟨0, 0⟩).1 _ hwatched
  obtain ⟨events', hcalls⟩ :=
    (interests_go_where_routes_take_them Sample.reachable_calling ⟨0, 0⟩).1 _ hcalling
  have hnumbers : Sample.calling.NumbersSuffice .ccnb := by
    unfold Relay.NumbersSuffice
    decide
  obtain ⟨ids, hids, hreached⟩ := hcalls.broadcast (by decide) rfl hnumbers
  exact ⟨Sample.reachable_watched, hwatched, ⟨events, hgoes.log, hgoes.taps.trans rfl,
      (hgoes.routed (.inl (by decide))).trans (by decide)⟩,
    Sample.reachable_calling, hcalling, events', ids, hcalls.log, hids, hreached.length_eq.symm⟩

end NamedRelay
