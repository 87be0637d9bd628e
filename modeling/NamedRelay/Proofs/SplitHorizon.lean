import NamedRelay.Proofs.Collapse

/-!
# Interests and the face they came in on

What a handled interest puts on faces, where there is no fallback to broadcast: the interest of one
pending entry, along its routes, or none. A face that does not reflect is left out as the arrival
face of that entry, so it may get an interest back that it joined to an entry of somebody else.
-/

namespace NamedRelay.Relay

variable {σ κ : Type}

lemma mem_targets_iff {r : Relay σ κ} {e : PendingInterest} {id : FaceId} :
    id ∈ r.targets e ↔ (∃ route ∈ r.table.covering e.packet.name, route.face = some id) ∧
      (e.arrival = some id → r.reflects (some id) = true) := by
  unfold targets routesFor
  simp only [List.mem_filterMap, List.mem_filter]
  constructor
  · rintro ⟨route, ⟨hcovers, hkept⟩, hface⟩
    refine ⟨⟨route, hcovers, hface⟩, ?_⟩
    intro harrival
    simpa [harrival, hface] using hkept
  · rintro ⟨⟨route, hcovers, hface⟩, hback⟩
    refine ⟨route, ⟨hcovers, ?_⟩, hface⟩
    by_cases harrival : e.arrival = some id
    · simp [harrival, hface, hback harrival]
    · have hne : (some id == e.arrival) = false := by simpa using Ne.symm harrival
      simp [hface, hne]

/-- The entry whose interest is sent when a face's interest reaches the pending table. -/
def onward? (r : Relay σ κ) (face : Face σ) (interest : Packet) : Option PendingInterest :=
  match r.pending.findSame? interest with
  | some h => if face.flags.forwardAll then r.pending.get? h else none
  | none => some (.fromFace interest face.id (r.lifetimeOf interest) r.clock)

/-- What sending the interest of an entry puts on faces. -/
def copies (r : Relay σ κ) (e : PendingInterest) : List Handing :=
  (r.targets e).map fun id => .face id .interest e.packet.wire

lemma copies_addWaiter (r : Relay σ κ) (e : PendingInterest) (id : FaceId) (now : Timestamp) :
    r.copies (e.addWaiter id now) = r.copies e := by
  rw [PendingInterest.addWaiter_eq]
  rfl

lemma copies_congr {r m : Relay σ κ} (htable : m.table = r.table)
    (hreflects : ∀ arrival, m.reflects arrival = r.reflects arrival) : m.copies = r.copies := by
  funext e
  unfold copies targets routesFor
  rw [htable, hreflects]

lemma copies_checkNonce (r : Relay σ κ) (packet : Packet) :
    (r.checkNonce packet).2.copies = r.copies := by
  unfold checkNonce
  split
  · rfl
  · split <;> rfl

lemma copies_interestReceived (r : Relay σ κ) (id : FaceId) :
    (r.interestReceived id).copies = r.copies := by
  refine copies_congr (r := r) (m := r.interestReceived id) rfl ?_
  intro arrival
  cases arrival with
  | none => rfl
  | some j =>
    have hid : ∀ f : Face σ, f.id = id → (f.touch r.clock).id = id := fun _ hf => hf
    have hget := r.faces.get?_modify hid j
    unfold reflects
    change Option.any _ ((r.faces.modify id fun f => f.touch r.clock).get? j) =
      Option.any _ (r.faces.get? j)
    rw [hget]
    cases r.faces.get? j with
    | none => rfl
    | some f =>
      dsimp only [Option.map_some, Option.any_some]
      split <;> rfl

lemma filter_copies (r : Relay σ κ) (e : PendingInterest) :
    (r.copies e).filter Handing.isInterest = r.copies e := by
  rw [List.filter_eq_self]
  intro h hh
  obtain ⟨id, -, rfl⟩ := List.mem_map.mp hh
  rfl

variable [Scheduler σ]

lemma propagate_copies {r : Relay σ κ} (hl : r.Linked)
    (hfallback : r.config.broadcastFallback = false) (e : PendingInterest) :
    r.Sends (r.propagate e) (r.copies e) := by
  obtain ⟨others, hsends, -, honly⟩ := r.propagate_sends e (hl.targets e)
  have hnone : others = [] := by
    by_contra hsome
    rw [(honly hsome).2] at hfallback
    cases hfallback
  rw [hnone, List.append_nil] at hsends
  exact hsends

lemma interestPropagate_copies {r : Relay σ κ} (hl : r.Linked)
    (hfallback : r.config.broadcastFallback = false) (h : Handle) :
    r.Sends (r.interestPropagate h) ((r.pending.get? h).elim [] r.copies) := by
  unfold interestPropagate
  cases r.pending.get? h with
  | none => exact Sends.refl r
  | some e => exact propagate_copies hl hfallback e

/-- An interest that reaches the table is sent as that of the entry it opens, for which there has
to be a handle left, or of the one it joins if its face forwards all. -/
lemma recordInterest_hands {r : Relay σ κ} (hl : r.Linked)
    (hfallback : r.config.broadcastFallback = false)
    (hroom : r.pending.slots.length < UInt32.size) {face : Face σ}
    (hlive : r.isLive face.id = true) (interest : Packet) :
    r.Hands (r.recordInterest face interest) ((r.onward? face interest).elim [] r.copies) := by
  unfold recordInterest onward?
  cases hfound : r.pending.findSame? interest with
  | some h =>
    have hg : r.Grows (r.pending.modify h fun e => e.addWaiter face.id r.clock) := .joined h hlive
    have hsends := interestPropagate_copies (hl.grows hg) hfallback h
    dsimp only
    split
    · have hcopies : (((r.pending.modify h fun e => e.addWaiter face.id r.clock).get? h).elim []
          r.copies) = (r.pending.get? h).elim [] r.copies := by
        rw [SlotTable.get?_modify_self]
        cases r.pending.get? h with
        | none => rfl
        | some e => exact r.copies_addWaiter e face.id r.clock
      rw [← hcopies]
      exact hsends.toHands.of_withPending
    · exact (Hands.refl _).of_withPending
  | none =>
    let e : PendingInterest := .fromFace interest face.id (r.lifetimeOf interest) r.clock
    have hg : r.Grows (r.pending.insert e).2 := .opened hfound hlive
    have hsends := interestPropagate_copies (hl.grows hg) hfallback (r.pending.insert e).1
    have hentry : (r.pending.insert e).2.get? (r.pending.insert e).1 = some e :=
      SlotTable.get?_insert_self hroom e
    dsimp only at hsends ⊢
    rw [hentry] at hsends
    exact hsends.toHands.of_withPending

omit [Scheduler σ] in
lemma filter_answerTo (r : Relay σ κ) (f : Face σ) (content : Packet) :
    (r.answerTo f content).filter Handing.isInterest = [] := by
  unfold answerTo
  split
  · split <;> rfl
  · rfl

/-- The interests that an interest puts on faces: none if it is dropped or answered. -/
lemma takeInterest_hands {r : Relay σ κ} (hl : r.Linked)
    (hfallback : r.config.broadcastFallback = false)
    (hroom : r.pending.slots.length < UInt32.size) {face : Face σ}
    (hlive : r.isLive face.id = true) (interest : Packet) :
    ∃ handed, r.Hands (r.takeInterest face interest) handed ∧
      handed.filter Handing.isInterest =
        if !(r.checkNonce interest).1 && (r.lookupCached interest).isNone then
          (r.onward? face interest).elim [] r.copies
        else [] := by
  have hchecked := r.checkNonce_acts interest
  have hlive' := hchecked.isLive hlive
  rw [takeInterest_eq]
  dsimp only
  cases (r.checkNonce interest).1 with
  | true => exact ⟨[], hchecked.toHands.trans (dropDuplicate_acts _).toHands, rfl⟩
  | false =>
    cases r.lookupCached interest with
    | some h =>
      refine ⟨_, hchecked.toHands.trans (answerFromCache_acts hlive' h).toHands, ?_⟩
      cases (r.checkNonce interest).2.store.get? h with
      | none => rfl
      | some c => exact filter_answerTo _ face c.packet
    | none =>
      have hrecorded := recordInterest_hands (hl.of_keeps hchecked.toKeepsFaces)
        (hchecked.config ▸ hfallback) (hchecked.pending ▸ hroom) hlive' interest
      have honward : (r.checkNonce interest).2.onward? face interest =
          r.onward? face interest := by
        unfold onward? lifetimeOf
        rw [hchecked.pending, hchecked.clock, hchecked.config]
      rw [honward, r.copies_checkNonce] at hrecorded
      refine ⟨_, hchecked.toHands.trans hrecorded, ?_⟩
      cases r.onward? face interest with
      | none => rfl
      | some e => exact r.filter_copies e

lemma handleInterest_hands {r : Relay σ κ} (hl : r.Linked)
    (hfallback : r.config.broadcastFallback = false)
    (hroom : r.pending.slots.length < UInt32.size) {id : FaceId} {face : Face σ}
    (hface : r.faces.get? id = some face) (interest : Packet) :
    ∃ handed, r.Hands (r.handleInterest id interest).2 handed ∧
      handed.filter Handing.isInterest =
        if r.reachesPending id interest then (r.onward? face interest).elim [] r.copies
        else [] := by
  unfold reachesPending
  rcases r.handleInterest_cases id interest with ⟨hrefused, hsame⟩ | ⟨f, hkind, hf, htaken⟩
  · rw [hrefused, hsame]
    exact ⟨[], Hands.refl r, rfl⟩
  · obtain rfl : f = face := Option.some.inj (hf.symm.trans hface)
    obtain rfl := FaceRegistry.id_of_get? hface
    have hlive := isLive_of_get? hface
    have hreceived := r.interestReceived_acts f.id
    obtain ⟨handed, hh, hinterests⟩ := takeInterest_hands (hl.of_keeps hreceived.toKeepsFaces)
      hfallback hroom (hreceived.isLive hlive) interest
    rw [r.checkNonce_interestReceived f.id, r.copies_interestReceived f.id] at hinterests
    rw [htaken, hkind, hlive]
    exact ⟨handed, hreceived.toHands.trans hh, hinterests⟩

omit [Scheduler σ] in
lemma reflects_of_get? {r : Relay σ κ} {id : FaceId} {f : Face σ}
    (hf : r.faces.get? id = some f) : r.reflects (some id) = f.flags.reflect := by
  simp [reflects, hf]

omit [Scheduler σ] in
lemma exists_mem_copies_iff {r : Relay σ κ} {e : PendingInterest} {id : FaceId} :
    (∃ wire, .face id .interest wire ∈ r.copies e) ↔ id ∈ r.targets e := by
  simp [copies]

omit [Scheduler σ] in
/-- The interest that is sent comes back to its face exactly if the face forwards all and joins an
entry that others opened, with a route to the face. -/
lemma onward_returns_iff {r : Relay σ κ} (hs : r.PendingSound)
    (hroom : r.pending.slots.length < UInt32.size) {id : FaceId} {f : Face σ}
    (hf : r.faces.get? id = some f) (hreflect : f.flags.reflect = false) (interest : Packet) :
    (∃ wire, .face id .interest wire ∈ (r.onward? f interest).elim [] r.copies) ↔
      f.flags.forwardAll = true ∧ ∃ e ∈ r.pending.toList,
        e.packet.isSameInterest interest = true ∧ e.arrival ≠ some id ∧
        ∃ route ∈ r.table.covering e.packet.name, route.face = some id := by
  obtain rfl := FaceRegistry.id_of_get? hf
  have hback : ∀ e : PendingInterest, f.id ∈ r.targets e ↔
      (∃ route ∈ r.table.covering e.packet.name, route.face = some f.id) ∧
        e.arrival ≠ some f.id := by
    intro e
    rw [mem_targets_iff, reflects_of_get? hf, hreflect]
    simp
  unfold onward?
  cases hfound : r.pending.findSame? interest with
  | none =>
    have hnone := (SlotTable.find?_eq_none _ _).mp hfound
    dsimp only [Option.elim_some]
    rw [exists_mem_copies_iff, hback]
    constructor
    · rintro ⟨-, harrival⟩
      exact absurd rfl harrival
    · rintro ⟨-, e, he, hsame, -⟩
      rw [hnone e he] at hsame
      cases hsame
  | some h =>
    obtain ⟨e, hentry, hsame⟩ := SlotTable.get?_of_find? (Nat.le_of_lt hroom) hfound
    dsimp only
    cases hforward : f.flags.forwardAll with
    | false => simp
    | true =>
      rw [if_pos rfl, hentry, Option.elim_some, exists_mem_copies_iff, hback]
      constructor
      · rintro ⟨hroute, harrival⟩
        exact ⟨rfl, e, SlotTable.mem_of_get? hentry, hsame, harrival, hroute⟩
      · rintro ⟨-, e', he', hsame', harrival, hroute⟩
        have hrequest : e'.packet.request = e.packet.request :=
          ((Packet.isSameInterest_iff _ _).mp hsame').trans
            ((Packet.isSameInterest_iff _ _).mp hsame).symm
        obtain rfl := hs.eq_of_request he' (SlotTable.mem_of_get? hentry) hrequest
        exact ⟨hroute, harrival⟩

end NamedRelay.Relay

namespace NamedRelay

/-- Where there is no fallback to broadcast, an interest of a face that does not reflect is put on
that face again exactly if it reaches the pending table, the face forwards all, and the interest
joins an entry that did not come in on the face while a route leads there. It never is where it
opens an entry, or joins one that came in on the face. -/
theorem interest_goes_back_iff {σ κ : Type} [Scheduler σ] [CacheStrategy κ] {r : Relay σ κ}
    (h : Reachable r) (hfallback : r.config.broadcastFallback = false)
    (hroom : r.pending.slots.length < UInt32.size) {id : FaceId} {f : Face σ}
    (hf : r.faces.get? id = some f) (hreflect : f.flags.reflect = false) (interest : Packet) :
    (∃ wire, .face id .interest wire ∈ (Operation.handleInterest id interest).handings r) ↔
      r.reachesPending id interest = true ∧ f.flags.forwardAll = true ∧
        ∃ e ∈ r.pending.toList, e.packet.isSameInterest interest = true ∧ e.arrival ≠ some id ∧
          ∃ route ∈ r.table.covering e.packet.name, route.face = some id := by
  obtain ⟨handed, hh, hinterests⟩ :=
    Relay.handleInterest_hands h.linked hfallback hroom hf interest
  have hhandings : (Operation.handleInterest id interest).handings r = handed := hh.handings_eq
  have hfilter : (∃ wire, .face id .interest wire ∈ handed) ↔
      ∃ wire, .face id .interest wire ∈ handed.filter Handing.isInterest := by
    simp [List.mem_filter, Handing.isInterest]
  rw [hhandings, hfilter, hinterests]
  cases hreaches : r.reachesPending id interest with
  | false => simp
  | true =>
    rw [if_pos rfl, Relay.onward_returns_iff h.pendingSound hroom hf hreflect]
    simp

/-- A peer that forwards all joins the interest of another one, and gets its own back. -/
theorem joined_interest_goes_back :
    Sample.routed.config.broadcastFallback = false ∧
      (∃ f, Sample.routed.faces.get? ⟨2⟩ = some f ∧ f.flags.reflect = false) ∧
      ∃ wire, .face ⟨2⟩ .interest wire ∈
        (Operation.handleInterest ⟨2⟩ (Sample.interest none)).handings Sample.routed := by
  have hflags : (Sample.routed.faces.get? ⟨2⟩).map Face.flags =
      some { forwardAll := true } := by decide
  obtain ⟨f, hf, hflags⟩ := Option.map_eq_some_iff.mp hflags
  have hreflect : f.flags.reflect = false := by rw [hflags]
  have hforward : f.flags.forwardAll = true := by rw [hflags]
  have hreaches : Sample.routed.reachesPending ⟨2⟩ (Sample.interest none) = true := by decide
  have hjoins : ∃ e ∈ Sample.routed.pending.toList,
      e.packet.isSameInterest (Sample.interest none) = true ∧ e.arrival ≠ some ⟨2⟩ ∧
      ∃ route ∈ Sample.routed.table.covering e.packet.name, route.face = some ⟨2⟩ := by decide
  have hback := interest_goes_back_iff Sample.reachable_routed rfl (by decide) hf hreflect
    (Sample.interest none)
  exact ⟨rfl, ⟨f, hf, hreflect⟩, hback.mpr ⟨hreaches, hforward, hjoins⟩⟩

/-- Without a fallback to broadcast, a face that does not reflect may get its interest back. -/
theorem interest_may_go_back :
    Reachable Sample.routed ∧ Sample.routed.config.broadcastFallback = false ∧
      Sample.routed.isLive ⟨2⟩ = true ∧ Sample.routed.reflects (some ⟨2⟩) = false ∧
      (Operation.handleInterest ⟨2⟩ (Sample.interest none)).handings Sample.routed =
        [.face ⟨2⟩ .interest (Sample.interest none).wire] :=
  ⟨Sample.reachable_routed, rfl, by decide, by decide, by decide⟩

end NamedRelay
