import NamedRelay.Proofs.Transmission

/-!
# Meeting peers and forwarding interests

A face that is found or created is there afterwards, on an interface that is there. Propagation
and broadcast leave the tables alone and hand out interests only, one on each face they pick.
-/

namespace NamedRelay.Relay

variable {σ κ : Type}

/-! ## Faces -/

lemma isLive_iff (r : Relay σ κ) (id : FaceId) :
    r.isLive id = true ↔ ∃ f ∈ r.faces.faces, f.id = id :=
  r.faces.isSome_get?_iff id

lemma isLive_of_get? {r : Relay σ κ} {id : FaceId} {f : Face σ} (hf : r.faces.get? id = some f) :
    r.isLive id = true := by
  simp [isLive, hf]

lemma touchFace_sends (r : Relay σ κ) (id : FaceId) (now : Timestamp) :
    r.Sends (r.touchFace id now) [] := by
  have hmodify := Keeps.of_modify r id (fun f => f.touch now)
    (fun f _ => f.key_touch now) (fun _ hf => hf) (fun f hf _ _ hi => ⟨f, hf, hi⟩)
  exact Sends.of_keeps hmodify { Hands.refl r with }

lemma tally_sends (r : Relay σ κ) (count : Counters → Counters)
    (hi : ∀ c, (count c).interestsForwarded = c.interestsForwarded)
    (hc : ∀ c, (count c).contentsForwarded = c.contentsForwarded) :
    r.Sends (r.tally count) [] :=
  Sends.of_keeps { Keeps.refl r with } (Hands.of_log (List.append_nil r.log).symm rfl (hi _) (hc _))

lemma lt_of_interfaceFor {r : Relay σ κ} {interface : Option Nat} {peer : Option Address}
    {index : Nat} (h : r.interfaceFor interface peer = .ok (some index)) :
    index < r.interfaces.length := by
  unfold interfaceFor at h
  split at h
  · cases h
  · split at h
    · cases h
      assumption
    · cases h
  · split at h
    · rename_i i hi
      cases h
      obtain ⟨hlt, -⟩ := List.findIdx?_eq_some_iff_getElem.mp hi
      exact hlt
    · cases h

/-- A face that is met has an interface exactly if it has a peer. -/
lemma isSome_of_interfaceFor {r : Relay σ κ} {interface place : Option Nat}
    {peer : Option Address} (h : r.interfaceFor interface peer = .ok place) :
    place.isSome = peer.isSome := by
  unfold interfaceFor at h
  split at h
  · cases h
    rfl
  · split at h
    · cases h
      rfl
    · cases h
  · split at h
    · cases h
      rfl
    · cases h

/-- The face of a peer that is met for the first time. -/
def newFace (r : Relay σ κ) (id : FaceId) (interface : Option Nat) (peer : Option Address) :
    Face σ :=
  { id, interface, peer
    flags := r.initialFlags interface
    lastUsed := r.clock
    scheduler := r.schedulerFor.bind fun schedulerFor => schedulerFor id }

/-- There is no number left and nothing happens, or the next number goes to a new face. -/
lemma createFace_cases (r : Relay σ κ) (interface : Option Nat) (peer : Option Address) :
    r.createFace interface peer = (.error (.capacityExceeded .faceIds (UInt32.size - 1)), r) ∨
      ∃ id sought, r.faces.nextId? = some id ∧ (sought = [] ∨ sought = [.schedulerSought id]) ∧
        r.createFace interface peer = (.ok id,
          ({ r with faces := r.faces.insert (r.newFace id interface peer) }).emitAll sought) := by
  unfold createFace
  split
  · exact .inl rfl
  · rename_i id hnew
    refine .inr ⟨id, _, hnew, ?_, rfl⟩
    split
    · exact .inr rfl
    · exact .inl rfl

lemma createFace_sends (r : Relay σ κ) {interface : Option Nat} {peer : Option Address}
    (hi : ∀ index, interface = some index → index < r.interfaces.length) :
    r.Sends (r.createFace interface peer).2 [] := by
  rcases r.createFace_cases interface peer with hnone | ⟨id, sought, -, hsought, hcreated⟩
  · rw [hnone]
    exact Sends.refl r
  · rw [hcreated]
    refine Sends.of_keeps ?_ (Hands.of_log rfl ?_ rfl rfl)
    · refine { Keeps.refl r with faces := ?_, reached := ?_ }
      · intro j f hf
        exact ⟨f, FaceRegistry.get?_insert_of_some hf _, rfl⟩
      · intro f hf index hindex
        rcases List.mem_append.mp hf with hold | hnew
        · exact .inr ⟨f, hold, hindex⟩
        · obtain rfl := List.mem_singleton.mp hnew
          exact .inl (hi index hindex)
    · rcases hsought with rfl | rfl
      · rfl
      · rfl

lemma getFace_sends (r : Relay σ κ) (interface : Option Nat) (peer : Option Address) :
    r.Sends (r.getFace interface peer).2 [] := by
  unfold getFace
  split
  · exact Sends.refl r
  · rename_i interface' hi
    split
    · exact touchFace_sends r _ _
    · apply createFace_sends
      intro index hindex
      exact lt_of_interfaceFor (hindex ▸ hi)

/-- The face that is found or created is there. -/
lemma isLive_of_getFace {r r' : Relay σ κ} {interface : Option Nat} {peer : Option Address}
    {id : FaceId} (h : r.getFace interface peer = (.ok id, r')) : r'.isLive id = true := by
  unfold getFace at h
  split at h
  · cases h
  · rename_i interface' _
    split at h
    · rename_i f hf
      cases h
      apply (touchFace_sends r f.id r.clock).isLive
      rw [isLive_iff]
      exact ⟨f, List.mem_of_find?_eq_some hf, rfl⟩
    · rcases r.createFace_cases interface' peer with hnone | ⟨new, sought, -, -, hcreated⟩
      · rw [hnone] at h
        cases h
      · rw [hcreated] at h
        cases h
        rw [isLive_iff]
        exact ⟨_, List.mem_append_right _ (List.mem_singleton_self _), rfl⟩

/-! ## Forwarding -/

variable [Scheduler σ]

/-- A packet put on a face that is there, and counted. -/
lemma offer_sends (r : Relay σ κ) {purpose : Purpose} {id : FaceId} (hl : r.isLive id = true)
    (packet : Bytes) {count : Counters → Counters}
    (hi : ∀ c, (count c).interestsForwarded = c.interestsForwarded +
      UInt64.ofNat ([Handing.face id purpose packet].countP Handing.isInterest))
    (hc : ∀ c, (count c).contentsForwarded = c.contentsForwarded +
      UInt64.ofNat ([Handing.face id purpose packet].countP Handing.isReply)) :
    r.Sends ((r.tally count).offer purpose id packet).2 [.face id purpose packet] := by
  obtain ⟨f, hf⟩ := Option.isSome_iff_exists.mp hl
  obtain rfl := FaceRegistry.id_of_get? hf
  have hqueue : r.Sends ((r.tally count).queue purpose f packet)
      [.face f.id purpose packet] := by
    have hkeeps : r.Keeps (r.tally count) := { Keeps.refl r with }
    exact ⟨hkeeps.trans ((r.tally count).queue_keeps purpose hf packet), ⟨[_], rfl, rfl⟩,
      hi r.counters, hc r.counters⟩
  exact hqueue.trans ((r.tally count).offer_of_live purpose hf packet).2

lemma forwardInterest_sends (r : Relay σ κ) (wire : Bytes) {id : FaceId}
    (hl : r.isLive id = true) :
    r.Sends (r.forwardInterest wire id) [.face id .interest wire] :=
  r.offer_sends hl wire (fun _ => rfl) (fun _ => by simp [Handing.isReply])

lemma forwardInterest_keeps (r : Relay σ κ) (wire : Bytes) (id : FaceId) :
    r.Keeps (r.forwardInterest wire id) := by
  have hkeeps : r.Keeps (r.tally fun c =>
      { c with interestsForwarded := c.interestsForwarded + 1 }) := { Keeps.refl r with }
  exact hkeeps.trans (offer_keeps _ .interest id wire)

lemma forwardAll_sends (r : Relay σ κ) (wire : Bytes) (ids : List FaceId)
    (hl : ∀ id ∈ ids, r.isLive id = true) :
    r.Sends (ids.foldl (fun r id => r.forwardInterest wire id) r)
      (ids.map fun id => .face id .interest wire) := by
  induction ids generalizing r with
  | nil => exact Sends.refl r
  | cons id ids ih =>
    have hfirst := r.forwardInterest_sends wire (hl id List.mem_cons_self)
    have hrest := ih (r.forwardInterest wire id)
      (fun j hj => hfirst.isLive (hl j (List.mem_cons_of_mem id hj)))
    exact hfirst.trans hrest

/-- A broadcast on one interface hands out at most one packet, on a face that is there. -/
lemma broadcastOn_sends (r : Relay σ κ) (wire : Bytes) (suite : Suite) (index : Nat) :
    ∃ handed, r.Sends (r.broadcastOn wire suite index) handed ∧
      ∀ h ∈ handed, ∃ id, h = .face id .interest wire := by
  unfold broadcastOn
  split
  · exact ⟨[], Sends.refl r, by simp⟩
  · rename_i i _
    have hface := r.getFace_sends (some index) (some (i.address.broadcast suite))
    split
    · rename_i id r₁ h₁
      have hl := isLive_of_getFace h₁
      rw [h₁] at hface
      exact ⟨_, hface.trans (r₁.forwardInterest_sends wire hl), by simp⟩
    · rename_i e r₁ h₁
      rw [h₁] at hface
      exact ⟨[], hface, by simp⟩

lemma broadcast_sends (r : Relay σ κ) (wire : Bytes) (suite : Suite) :
    ∃ handed, r.Sends (r.broadcast wire suite) handed ∧
      ∀ h ∈ handed, ∃ id, h = .face id .interest wire := by
  unfold broadcast
  generalize List.range r.interfaces.length = indices
  induction indices generalizing r with
  | nil => exact ⟨[], Sends.refl r, by simp⟩
  | cons index indices ih =>
    obtain ⟨first, hfirst, hf⟩ := r.broadcastOn_sends wire suite index
    obtain ⟨rest, hrest, hr⟩ := ih (r.broadcastOn wire suite index)
    refine ⟨first ++ rest, hfirst.trans hrest, ?_⟩
    intro h hh
    rcases List.mem_append.mp hh with hh | hh
    · exact hf h hh
    · exact hr h hh

/-- The faces of the routes an interest takes. -/
def targets (r : Relay σ κ) (e : PendingInterest) : List FaceId :=
  (r.routesFor e).filterMap Route.face

omit [Scheduler σ] in
lemma mem_targets {r : Relay σ κ} {e : PendingInterest} {id : FaceId} (h : id ∈ r.targets e) :
    ∃ route ∈ r.table.routes, route.face = some id := by
  obtain ⟨route, hroute, hface⟩ := List.mem_filterMap.mp h
  exact ⟨route, (List.mem_filter.mp (List.mem_filter.mp hroute).1).1, hface⟩

omit [Scheduler σ] in
lemma tapEvents_handing (e : PendingInterest) (routes : List Route) :
    (tapEvents e routes).filterMap Event.handing? = [] := by
  unfold tapEvents
  rw [List.filterMap_filterMap, List.filterMap_eq_nil_iff]
  intro route _
  cases route.tap <;> rfl

/-- Where the routes lead to faces that are there, each of these gets the interest, and other
faces at most by a broadcast, if no route takes the interest and there is a fallback to it. -/
lemma propagate_sends (r : Relay σ κ) (e : PendingInterest)
    (hl : ∀ id ∈ r.targets e, r.isLive id = true) :
    ∃ others, r.Sends (r.propagate e)
        ((r.targets e).map (fun id => .face id .interest e.packet.wire) ++ others) ∧
      (∀ h ∈ others, ∃ id, h = .face id .interest e.packet.wire) ∧
      (others ≠ [] → r.routesFor e = [] ∧ r.config.broadcastFallback = true) := by
  have htaps := Sends.emitAll r _ (tapEvents_handing e (r.routesFor e))
  have hforward := htaps.trans (forwardAll_sends _ e.packet.wire (r.targets e)
    (fun id hid => htaps.isLive (hl id hid)))
  rw [List.nil_append] at hforward
  unfold propagate
  dsimp only
  split
  · rename_i hfallback
    obtain ⟨others, hothers, ho⟩ := broadcast_sends
      ((r.targets e).foldl (fun r id => r.forwardInterest e.packet.wire id)
        (r.emitAll (tapEvents e (r.routesFor e)))) e.packet.wire e.packet.suite
    refine ⟨others, hforward.trans hothers, ho, fun _ => ?_⟩
    simpa using hfallback
  · exact ⟨[], by rw [List.append_nil]; exact hforward, by simp, fun hnone => absurd rfl hnone⟩

/-- Whatever the routes, propagation leaves the tables alone. -/
lemma propagate_keeps (r : Relay σ κ) (e : PendingInterest) : r.Keeps (r.propagate e) := by
  have hfold : ∀ (ids : List FaceId) (m : Relay σ κ),
      m.Keeps (ids.foldl (fun r id => r.forwardInterest e.packet.wire id) m) := by
    intro ids
    induction ids with
    | nil => exact Keeps.refl
    | cons id ids ih =>
      intro m
      exact (m.forwardInterest_keeps e.packet.wire id).trans (ih _)
  have htaps := Sends.emitAll r _ (tapEvents_handing e (r.routesFor e))
  have hforward := htaps.toKeeps.trans (hfold (r.targets e) _)
  unfold propagate
  dsimp only
  split
  · obtain ⟨_, hothers, -⟩ := broadcast_sends
      ((r.targets e).foldl (fun r id => r.forwardInterest e.packet.wire id)
        (r.emitAll (tapEvents e (r.routesFor e)))) e.packet.wire e.packet.suite
    exact hforward.trans hothers.toKeeps
  · exact hforward

end NamedRelay.Relay
