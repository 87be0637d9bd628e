import NamedRelay.Proofs.Freshness
import NamedRelay.Proofs.Outcome
import NamedRelay.Proofs.Places

/-!
# What faces ask for and what they get

Each answer that is handed to a face, and each place of the face in the pending table, goes back to
an interest of that face which was taken in, and no interest is used twice. An operation uses up
waiting places for the answers it hands out, or the interest it takes in itself.
-/

namespace NamedRelay

/-- The handing answers the face. -/
def Handing.isFor (id : FaceId) (x : Handing) : Bool :=
  x.repliesTo? == some id

/-- The interest is satisfied by the content that an answer carries. -/
def Earns (digest : Bytes → Digest) (interest : Packet) (reply : Handing × Option Packet) : Prop :=
  ∃ content, reply.2 = some content ∧ reply.1.Answers (some content) ∧
    interest.isSatisfiedBy content digest = true

namespace Relay

variable {σ κ : Type}

/-! ## Earned answers -/

/-- What an interest that comes in on face `j` gives face `id` a claim to. -/
def asksOf [Scheduler σ] (r : Relay σ κ) (j : FaceId) (packet : Packet) (id : FaceId) :
    List Packet :=
  if (r.handleInterest j packet).1.isOk && j = id then [packet] else []

/-- On the way from one relay to the other, the answers handed to the face are earned by interests,
each by its own, and the interests and the waiting places that are left are among those there were
and those that came in. -/
def Balances (r : Relay σ κ) (id : FaceId) (r' : Relay σ κ) (answer : Option Packet)
    (asked : List Packet) : Prop :=
  ∃ handed interests, r.Hands r' handed ∧
    interests.length = (handed.filter (Handing.isFor id)).length ∧
    (r.store.entries.slots.length ≤ UInt32.size → List.Forall₂ (Earns r.digest) interests
      ((handed.filter (Handing.isFor id)).map fun x => (x, answer))) ∧
    ∀ p, r.pending.Recognises p →
      interests.countP p + r'.pending.places id p ≤ r.pending.places id p + asked.countP p

namespace Balances

variable {r r' : Relay σ κ} {id : FaceId} {answer : Option Packet} {asked : List Packet}

lemma of_none {handed : List Handing} (hh : r.Hands r' handed)
    (hnone : ∀ x ∈ handed, x.repliesTo? ≠ some id)
    (hplaces : ∀ p, r.pending.Recognises p →
      r'.pending.places id p ≤ r.pending.places id p + asked.countP p) :
    r.Balances id r' answer asked := by
  have hempty : handed.filter (Handing.isFor id) = [] := by
    rw [List.filter_eq_nil_iff]
    intro x hx
    simpa [Handing.isFor] using hnone x hx
  refine ⟨handed, [], hh, ?_, ?_, ?_⟩
  · rw [hempty]
    rfl
  · rw [hempty]
    exact fun _ => .nil
  · intro p hp
    simpa using hplaces p hp

lemma of_one {handed : List Handing} (hh : r.Hands r' handed) (interest : Packet)
    (hone : (handed.filter (Handing.isFor id)).length ≤ 1)
    (hearns : r.store.entries.slots.length ≤ UInt32.size → ∀ x ∈ handed,
      Earns r.digest interest (x, answer))
    (hplaces : ∀ p, r.pending.Recognises p →
      [interest].countP p + r'.pending.places id p ≤ r.pending.places id p + asked.countP p) :
    r.Balances id r' answer asked := by
  refine ⟨handed, (handed.filter (Handing.isFor id)).map fun _ => interest, hh, ?_, ?_, ?_⟩
  · rw [List.length_map]
  · intro hsize
    rw [List.forall₂_map_left_iff, List.forall₂_map_right_iff, List.forall₂_same]
    intro x hx
    exact hearns hsize x (List.mem_filter.mp hx).1
  · intro p hp
    have hinterests : ((handed.filter (Handing.isFor id)).map fun _ => interest).countP p ≤
        [interest].countP p := by
      rw [List.map_const']
      calc (List.replicate (handed.filter (Handing.isFor id)).length interest).countP p
          ≤ (List.replicate 1 interest).countP p :=
            ((List.replicate_sublist_replicate interest).mpr hone).countP_le
        _ = [interest].countP p := rfl
    exact Nat.le_trans (Nat.add_le_add_right hinterests _) (hplaces p hp)

lemma after {m : Relay σ κ} (h : r.Acts m []) (hstore : m.store = r.store)
    (hb : m.Balances id r' answer asked) : r.Balances id r' answer asked := by
  obtain ⟨handed, interests, hh, hlength, hearns, hplaces⟩ := hb
  rw [hstore, h.digest] at hearns
  rw [h.pending] at hplaces
  exact ⟨handed, interests, h.toHands.trans hh, hlength, hearns, hplaces⟩

/-- Without a packet to answer with there are no answers. -/
lemma of_quiet (h : r.Yields r' (fun _ => True) none) (hplaces : ∀ p, r.pending.Recognises p →
      r'.pending.places id p ≤ r.pending.places id p + asked.countP p) :
    r.Balances id r' answer asked := by
  obtain ⟨handed, hh, ha⟩ := h
  refine of_none hh ?_ hplaces
  intro x hx hreply
  have hnone := (ha x hx).2
  unfold Handing.repliesTo? at hreply
  split at hreply
  · cases hnone
  · cases hnone
  · cases hreply

end Balances

lemma repliesTo?_of_mem_answerTo {r : Relay σ κ} {f : Face σ} {content : Packet} {x : Handing}
    (hx : x ∈ r.answerTo f content) : x.repliesTo? = some f.id := by
  rcases eq_of_mem_answerTo hx with rfl | rfl
  · rfl
  · rfl

lemma length_answerTo_le_one (r : Relay σ κ) (f : Face σ) (content : Packet) :
    (r.answerTo f content).length ≤ 1 := by
  unfold answerTo
  split
  · split
    · exact Nat.le_refl 1
    · exact Nat.zero_le 1
  · exact Nat.le_refl 1

/-- A face that is handed content waits on an entry that goes. -/
lemma Balances.of_serves {r r' : Relay σ κ} {content : Packet} (h : r.Serves content r')
    (id : FaceId) : r.Balances id r' (some content) [] := by
  obtain ⟨m, hm, hk, hh⟩ := h
  cases hincludes : (m.recipients content).includes id with
  | false =>
    have hcounts : (m.recipients content).network.count id = 0 ∧
        (m.recipients content).deliveries.count (some id) = 0 := by
      simpa [Recipients.includes, List.count_eq_zero] using hincludes
    have hnone := m.filter_answers content id
    rw [hcounts.1, hcounts.2, List.replicate_zero, List.replicate_zero, ite_self,
      List.append_nil, List.filter_eq_nil_iff] at hnone
    refine of_none hh ?_ ?_
    · intro x hx
      simpa using hnone x hx
    · intro p _
      rw [hk.pending, ← hm.pending]
      exact m.places_withoutSatisfied_le_places content id p
  | true =>
    obtain ⟨⟨e, he, hsat, hwaits⟩, hlive⟩ := (m.includes_recipients content id).mp hincludes
    obtain ⟨f, hf⟩ := Option.isSome_iff_exists.mp hlive
    have hanswers := m.answers_to content hf
    rw [if_pos hincludes] at hanswers
    have hid : id ∈ e.waiting := List.mem_map.mpr hwaits
    have hone : ((m.answers content).filter (Handing.isFor id)).length ≤ 1 := by
      unfold Handing.isFor
      rw [hanswers]
      exact m.length_answerTo_le_one f content
    refine of_one hh e.packet hone ?_ ?_
    · intro _ x hx
      rw [← hm.digest]
      exact ⟨content, rfl, answers_of_mem_answers hx, hsat⟩
    · intro p _
      rw [hk.pending, ← hm.pending]
      exact places_withoutSatisfied_le he hsat hid p

lemma Balances.refl (r : Relay σ κ) (id : FaceId) (answer : Option Packet)
    (asked : List Packet) : r.Balances id r answer asked :=
  of_none (Hands.refl r) (fun _ hx => by cases hx) fun _ _ => Nat.le_add_right _ _

/-! ## Interests -/

section

variable [Scheduler σ]

/-- The face is answered from the store for its interest. -/
lemma answerFromCache_balances {r : Relay σ κ} {face : Face σ} (hlive : r.isLive face.id = true)
    {interest : Packet} {h : Handle} (hfound : r.lookupCached interest = some h) (id : FaceId) :
    r.Balances id (r.answerFromCache face h) ((r.store.get? h).map CachedContent.packet)
      (if face.id = id then [interest] else []) := by
  have hacts := answerFromCache_acts hlive h
  have hpending := r.pending_answerFromCache face h
  cases hget : r.store.get? h with
  | none =>
    rw [hget] at hacts
    refine .of_none hacts.toHands (fun _ hx => by cases hx) ?_
    intro p _
    rw [hpending]
    exact Nat.le_add_right _ _
  | some c =>
    rw [hget] at hacts
    by_cases hid : face.id = id
    · refine .of_one hacts.toHands interest ?_ ?_ ?_
      · exact Nat.le_trans (List.length_filter_le _ _) (r.length_answerTo_le_one face c.packet)
      · intro hsize x hx
        obtain ⟨c', hget', hmay⟩ := SlotTable.get?_of_find? hsize hfound
        obtain rfl : c' = c := Option.some.inj (hget'.symm.trans hget)
        rw [Bool.and_eq_true] at hmay
        exact ⟨c'.packet, rfl, answers_of_mem_answerTo hx, hmay.2⟩
      · intro p _
        exact Nat.le_of_eq (by rw [hpending, if_pos hid, Nat.add_comm])
    · refine .of_none hacts.toHands ?_ ?_
      · intro x hx hreply
        rw [repliesTo?_of_mem_answerTo hx] at hreply
        exact hid (Option.some.inj hreply)
      · intro p _
        rw [hpending]
        exact Nat.le_add_right _ _

/-- The interest takes a place for the face. -/
lemma recordInterest_balances {r : Relay σ κ} (hl : r.Linked) {face : Face σ}
    (hlive : r.isLive face.id = true) (interest : Packet) (id : FaceId) (answer : Option Packet) :
    r.Balances id (r.recordInterest face interest) answer
      (if face.id = id then [interest] else []) := by
  refine .of_quiet (recordInterest_yields hl (fun _ _ => trivial) hlive trivial) ?_
  intro p hp
  rw [pending_recordInterest]
  exact places_pendingWith_le hp face.id id interest

lemma takeInterest_balances {r : Relay σ κ} (hl : r.Linked) {face : Face σ}
    (hlive : r.isLive face.id = true) (interest : Packet) (id : FaceId) :
    r.Balances id (r.takeInterest face interest) ((r.hit? interest).map CachedContent.packet)
      (if face.id = id then [interest] else []) := by
  have hchecked := r.checkNonce_acts interest
  have hlive' := hchecked.isLive hlive
  have hstore := r.store_checkNonce interest
  have hlookup := r.lookupCached_checkNonce interest interest
  refine .after hchecked hstore ?_
  rw [takeInterest_eq]
  unfold hit?
  dsimp only
  rw [← hstore, ← hlookup]
  cases (r.checkNonce interest).1 with
  | true =>
    exact .of_quiet (.of_hands (dropDuplicate_acts _).toHands) fun _ _ => Nat.le_add_right _ _
  | false =>
    cases hfound : (r.checkNonce interest).2.lookupCached interest with
    | none => exact recordInterest_balances (hl.of_keeps hchecked.toKeepsFaces) hlive' interest id _
    | some h => exact answerFromCache_balances hlive' hfound id

lemma handleInterest_balances {r : Relay σ κ} (hl : r.Linked) (j : FaceId) (interest : Packet)
    (id : FaceId) :
    r.Balances id (r.handleInterest j interest).2
      ((if interest.isInterest then r.sourceFor? j interest else none).map CachedContent.packet)
      (r.asksOf j interest id) := by
  unfold asksOf
  rw [isOk_handleInterest]
  rcases r.handleInterest_cases j interest with ⟨hrefused, hsame⟩ | ⟨face, hkind, hface, htaken⟩
  · rw [hsame]
    exact .refl r id _ _
  · have hlive : r.isLive j = true := isLive_of_get? hface
    obtain rfl := FaceRegistry.id_of_get? hface
    have hreceived := r.interestReceived_acts face.id
    have hhit : (r.interestReceived face.id).hit? interest = r.hit? interest := by
      unfold hit?
      rw [checkNonce_interestReceived]
      rfl
    have htakes := takeInterest_balances (hl.of_keeps hreceived.toKeepsFaces)
      (hreceived.isLive hlive) interest id
    rw [hhit] at htakes
    unfold sourceFor?
    rw [htaken, hlive, hkind]
    simpa using htakes.after hreceived rfl

lemma places_recordOwn_le (r : Relay σ κ) (interest : Packet) (id : FaceId) (p : Packet → Bool) :
    (r.recordOwn interest).pending.places id p ≤ r.pending.places id p := by
  rw [pending_recordOwn]
  split
  · rename_i h _
    exact r.places_claimed_le h id p
  · rw [PendingTable.places_insert]
    simp [PendingInterest.counts, PendingInterest.fromApplication, PendingInterest.waiting]

/-- The relay's own interest gets no face anything. -/
lemma expressInterest_balances {r : Relay σ κ} (hl : r.Linked) (interest : Packet) (id : FaceId)
    (answer : Option Packet) : r.Balances id (r.expressInterest interest).2 answer [] := by
  cases hkind : interest.isInterest with
  | false =>
    rw [r.expressInterest_of_content hkind]
    exact .refl r id _ _
  | true =>
    have hchecked := r.checkNonce_acts interest
    refine .after hchecked (r.store_checkNonce interest) ?_
    rw [r.expressInterest_eq hkind]
    dsimp only
    split
    · exact .of_quiet (.of_hands (dropDuplicate_acts _).toHands) fun _ _ => Nat.le_add_right _ _
    · split
      · rename_i h _
        have hacts := (r.checkNonce interest).2.answerOwn_acts h
        refine .of_none hacts.toHands ?_ fun _ _ => Nat.le_of_eq (by rw [hacts.pending]; rfl)
        intro x hx hreply
        cases hget : (r.checkNonce interest).2.store.get? h with
        | none =>
          rw [hget] at hx
          cases hx
        | some c =>
          rw [hget, Option.elim_some] at hx
          split at hx
          · rw [List.mem_singleton.mp hx] at hreply
            cases hreply
          · cases hx
      · exact .of_quiet
          (recordOwn_yields (hl.of_keeps hchecked.toKeepsFaces) (fun _ _ => trivial) trivial)
          fun p _ => places_recordOwn_le _ interest id p

/-! ## Content -/

lemma servePending_balances (r : Relay σ κ) (h : Handle) (id : FaceId) :
    r.Balances id (r.servePending h).2 ((r.store.get? h).map CachedContent.packet) [] := by
  cases hget : r.store.get? h with
  | none =>
    rw [r.servePending_of_none hget]
    exact .refl r id _ _
  | some c => exact .of_serves (r.servePending_serves hget) id

variable [CacheStrategy κ]

lemma answerContent_balances (r : Relay σ κ) (content : Packet) (id : FaceId) :
    r.Balances id (r.answerContent content) (r.answering content) [] := by
  unfold answering answerContent
  cases r.store.findExact? content.name with
  | none => exact .of_serves (r.acceptContent_serves none content) id
  | some h =>
    dsimp only
    split
    · exact .of_serves (r.acceptContent_serves (some h) content) id
    · exact r.servePending_balances h id

lemma handleContent_balances (r : Relay σ κ) (j : FaceId) (content : Packet) (id : FaceId) :
    r.Balances id (r.handleContent j content).2 (r.servedFor? j content) [] := by
  rcases r.handleContent_cases j content with ⟨-, hsame⟩ | ⟨hkind, hlive, hanswered⟩
  · rw [hsame]
    exact .refl r id _ _
  · unfold servedFor?
    rw [hanswered, hlive, hkind]
    exact .after (r.contentReceived_acts j) rfl (answerContent_balances _ content id)

lemma dispatch_balances {r : Relay σ κ} (hl : r.Linked) (j : FaceId) (packet : Packet)
    (id : FaceId) : r.Balances id (r.dispatch j packet).2 (r.answerFor? j packet)
      (r.asksOf j packet id) := by
  unfold dispatch
  split
  · rename_i hkind
    have hinterest : packet.isInterest = true := by simp [Packet.isInterest, hkind]
    have hbalances := handleInterest_balances hl j packet id
    rw [if_pos hinterest] at hbalances
    rwa [answerFor?_of_interest hinterest]
  · rename_i hkind
    have hcontent : packet.isInterest = false := by simp [Packet.isInterest, hkind]
    have hnone : r.asksOf j packet id = [] := by
      unfold asksOf
      rw [isOk_handleInterest, hcontent]
      rfl
    rw [answerFor?_of_content hcontent, hnone]
    exact r.handleContent_balances j packet id

/-- Content is stored first and served then, so it is no longer the old store that is looked at. -/
lemma addContent_balances (r : Relay σ κ) (content : Packet) (id : FaceId) :
    r.Balances id (r.addContent content).2
      ((Operation.addContent content : Operation σ κ).answer? r) [] := by
  have hadded := r.addToCache_acts content
  have hstored : ∀ {m : Relay σ κ} {answer : Option Packet}, r.Acts m [] →
      r.Balances id m answer [] := by
    intro m answer hacts
    refine .of_none hacts.toHands (fun _ hx => by cases hx) ?_
    intro p _
    rw [hacts.pending]
    exact Nat.le_refl _
  unfold addContent Operation.answer? Operation.source? Operation.served?
  dsimp only
  rcases hm : r.addToCache content with ⟨e | h, m⟩
  · rw [hm] at hadded
    exact hstored hadded
  · rw [hm] at hadded
    simp only [Option.or_self]
    cases hget : m.store.get? h with
    | none =>
      rw [m.servePending_of_none hget]
      exact hstored hadded
    | some c => exact .of_serves (.after hadded (m.servePending_serves hget)) id

end

end Relay

/-! ## Operations -/

namespace Operation

variable {σ κ : Type} [Scheduler σ] [CacheStrategy κ]

/-- The interests of a face that a call of `handleInterest` takes in during an operation. -/
def asksOf : Operation σ κ → Relay σ κ → FaceId → List Packet
  | receive decode interface peer bytes, r, id =>
    if maxPacketBytes < bytes.length then []
    else match decode bytes, r.getFace (some interface) (some peer) with
      | .ok packet, (.ok j, r) => r.asksOf j packet id
      | _, _ => []
  | dispatch j packet, r, id => r.asksOf j packet id
  | handleInterest j interest, r, id => r.asksOf j interest id
  | _, _, _ => []

/-- The answers that an operation hands to a face, each with the packet it answers with. -/
def repliesTo (op : Operation σ κ) (r : Relay σ κ) (id : FaceId) :
    List (Handing × Option Packet) :=
  ((op.handings r).filter (Handing.isFor id)).map fun x => (x, op.answer? r)

end Operation

namespace Relay

variable {σ κ : Type} [Scheduler σ] [CacheStrategy κ]

lemma receive_balances {r : Relay σ κ} (hl : r.Linked) (decode : Bytes → Except Error Packet)
    (interface : Nat) (peer : Address) (bytes : Bytes) (id : FaceId) :
    r.Balances id (r.receive decode interface peer bytes).2
      ((Operation.receive decode interface peer bytes).answer? r)
      ((Operation.receive decode interface peer bytes).asksOf r id) := by
  unfold receive Operation.answer? Operation.source? Operation.served? Operation.asksOf
  dsimp only
  split
  · exact .refl r id _ _
  · cases decode bytes with
    | error e => exact .refl r id _ _
    | ok packet =>
      have hface := r.getFace_sends (some interface) (some peer)
      rcases hm : r.getFace (some interface) (some peer) with ⟨e | j, m⟩
      · rw [hm] at hface
        exact .after hface.acts hface.store (.refl m id _ _)
      · rw [hm] at hface
        exact .after hface.acts hface.store
          (dispatch_balances (hl.of_keeps hface.toKeepsFaces) j packet id)

/-- The answers of each operation are earned. -/
lemma run_balances {r : Relay σ κ} (hl : r.Linked) (op : Operation σ κ) (id : FaceId) :
    r.Balances id (op.run r) (op.answer? r) (op.asksOf r id) := by
  have hquiet : ∀ {op : Operation σ κ}, op.answer? r = none →
      (∀ p, (op.run r).pending.places id p ≤ r.pending.places id p) →
      r.Balances id (op.run r) (op.answer? r) [] := by
    intro op hnone hplaces
    have hanswers := run_yields_any hl op
    rw [hnone] at hanswers
    exact .of_quiet hanswers fun p _ => hplaces p
  have hsame : ∀ {op : Operation σ κ}, op.answer? r = none →
      (op.run r).pending = r.pending → r.Balances id (op.run r) (op.answer? r) [] := by
    intro op hnone hpending
    exact hquiet hnone fun p => Nat.le_of_eq (by rw [hpending])
  have hsettles : op.isQuiet = true → (∀ j, op ≠ .removeFace j) → r.Settles (op.run r) :=
    r.settles_run_of_quiet
  cases op with
  | removeFace j => exact hquiet rfl (r.places_removeFace_le j id)
  | faceEnqueue j packet => exact hsame rfl (r.faceEnqueue_sends j packet).pending
  | receive decode interface peer bytes => exact receive_balances hl decode interface peer bytes id
  | dispatch j packet => exact dispatch_balances hl j packet id
  | handleInterest j interest =>
    rw [answer?_handleInterest]
    exact handleInterest_balances hl j interest id
  | expressInterest interest => exact expressInterest_balances hl interest id _
  | handleContent j content =>
    rw [answer?_handleContent]
    exact r.handleContent_balances j content id
  | interestPropagate h => exact hsame rfl (r.interestPropagate_keeps h).pending
  | interestBroadcast h => exact hsame rfl (r.interestBroadcast_keeps h).pending
  | addToCache content => exact hsame rfl (r.addToCache_acts content).pending
  | addContent content => exact r.addContent_balances content id
  | servePending h =>
    rw [answer?_servePending]
    exact r.servePending_balances h id
  | doAgeing => exact hquiet rfl (places_doAgeing_le hl id)
  | _ => exact hsame rfl (hsettles rfl nofun).1.pending

end Relay

namespace Operation

variable {σ κ : Type} [Scheduler σ] [CacheStrategy κ]

/-- The answers that a run hands to a face. -/
def repliesAlong : List (Operation σ κ) → Relay σ κ → FaceId → List (Handing × Option Packet)
  | [], _, _ => []
  | op :: ops, r, id => op.repliesTo r id ++ repliesAlong ops (op.run r) id

/-- The interests of a face that a run takes in. -/
def asksAlong : List (Operation σ κ) → Relay σ κ → FaceId → List Packet
  | [], _, _ => []
  | op :: ops, r, id => op.asksOf r id ++ asksAlong ops (op.run r) id

/-- The property holds before each operation of a run. -/
def Throughout (P : Relay σ κ → Prop) : List (Operation σ κ) → Relay σ κ → Prop
  | [], _ => True
  | op :: ops, r => P r ∧ Throughout P ops (op.run r)

instance Throughout.decidable (P : Relay σ κ → Prop) [DecidablePred P] :
    ∀ (ops : List (Operation σ κ)) (r : Relay σ κ), Decidable (Throughout P ops r)
  | [], _ => isTrue trivial
  | op :: ops, r =>
    haveI := Throughout.decidable P ops (op.run r)
    inferInstanceAs (Decidable (P r ∧ Throughout P ops (op.run r)))

lemma Throughout.of_forall {P : Relay σ κ → Prop} (hP : ∀ r, P r) (ops : List (Operation σ κ))
    (r : Relay σ κ) : Throughout P ops r := by
  induction ops generalizing r with
  | nil => trivial
  | cons op ops ih => exact ⟨hP r, ih _⟩

lemma Throughout.imp {P Q : Relay σ κ → Prop} (hPQ : ∀ r, P r → Q r)
    {ops : List (Operation σ κ)} {r : Relay σ κ} (h : Throughout P ops r) :
    Throughout Q ops r := by
  induction ops generalizing r with
  | nil => trivial
  | cons op ops ih => exact ⟨hPQ r h.1, ih h.2⟩

/-- The slots of both tables all have handles. -/
def HandlesReach (r : Relay σ κ) : Prop :=
  r.store.entries.slots.length ≤ UInt32.size ∧ r.pending.slots.length ≤ UInt32.size

instance : DecidablePred (HandlesReach (σ := σ) (κ := κ)) :=
  fun _ => inferInstanceAs (Decidable (_ ∧ _))

/-- The answers along a run are earned. -/
lemma runAll_balances {r : Relay σ κ} (hl : r.Linked) (ops : List (Operation σ κ)) (id : FaceId) :
    ∃ interests : List Packet, interests.length = (repliesAlong ops r id).length ∧
      (Throughout HandlesReach ops r →
        List.Forall₂ (Earns r.digest) interests (repliesAlong ops r id)) ∧
      ∀ p, Throughout (fun r => r.pending.Recognises p) ops r →
        interests.countP p + (runAll ops r).pending.places id p ≤
          r.pending.places id p + (asksAlong ops r id).countP p := by
  induction ops generalizing r with
  | nil => exact ⟨[], rfl, fun _ => .nil, fun p _ => by simp [runAll, asksAlong]⟩
  | cons op ops ih =>
    have heffect := Relay.effect_run hl op
    obtain ⟨handed, first, hh, hlength, hearns, hplaces⟩ := Relay.run_balances hl op id
    obtain ⟨rest, hlength', hearns', hplaces'⟩ := ih (hl.effect heffect)
    have hreplies : op.repliesTo r id =
        (handed.filter (Handing.isFor id)).map fun x => (x, op.answer? r) := by
      unfold repliesTo
      rw [show op.handings r = handed from hh.handings_eq]
    refine ⟨first ++ rest, ?_, ?_, ?_⟩
    · rw [repliesAlong, List.length_append, List.length_append, hlength', hlength, hreplies,
        List.length_map]
    · intro hreach
      rw [repliesAlong, hreplies]
      rw [heffect.setup.2] at hearns'
      exact List.rel_append (hearns hreach.1.1) (hearns' hreach.2)
    · intro p hp
      have hstep := hplaces p hp.1
      have hrest := hplaces' p hp.2
      rw [asksAlong, List.countP_append, List.countP_append]
      change _ + _ + (runAll ops (op.run r)).pending.places id p ≤ _
      omega

end Operation

/-- What earns an answer as well as some other interest is an interest for the same request. -/
lemma Earns.congr {digest : Bytes → Digest} {interest other : Packet}
    {reply : Handing × Option Packet} (h : Earns digest interest reply)
    (hrequest : interest.request = other.request) : Earns digest other reply := by
  obtain ⟨content, hanswer, hcarries, hsat⟩ := h
  exact ⟨content, hanswer, hcarries, Packet.isSatisfiedBy_congr hrequest content digest ▸ hsat⟩

lemma exists_earns_of_mem {digest : Bytes → Digest} {interests : List Packet}
    {replies : List (Handing × Option Packet)} (h : List.Forall₂ (Earns digest) interests replies)
    {reply : Handing × Option Packet} (hreply : reply ∈ replies) :
    ∃ interest ∈ interests, Earns digest interest reply := by
  induction h with
  | nil => cases hreply
  | cons hearns _ ih =>
    rcases List.mem_cons.mp hreply with rfl | hrest
    · exact ⟨_, List.mem_cons_self, hearns⟩
    · obtain ⟨interest, hmem, hearned⟩ := ih hrest
      exact ⟨interest, List.mem_cons_of_mem _ hmem, hearned⟩

/-- Flow balance. From its creation on a relay hands a face no more answers, and lists it on no more
entries, than it has taken interests of the face in. As long as the slots of both tables have
handles, each answer carries content that satisfies one of these interests, and no two answers or
entries go back to the same one: for each request there are as many of these interests. -/
theorem answers_and_entries_are_asked_for {σ κ : Type} [Scheduler σ] [CacheStrategy κ]
    {config : Config} {clock : Timestamp} {digest : Bytes → Digest} {r : Relay σ κ}
    (hnew : Relay.create config clock digest = .ok r) (ops : List (Operation σ κ)) (id : FaceId) :
    (Operation.repliesAlong ops r id).length +
        (Operation.runAll ops r).pending.toList.countP (fun e => id ∈ e.waiting) ≤
      (Operation.asksAlong ops r id).length ∧
    (Operation.Throughout Operation.HandlesReach ops r →
      (∀ reply ∈ Operation.repliesAlong ops r id, ∃ interest ∈ Operation.asksAlong ops r id,
        Earns r.digest interest reply) ∧
      ∃ interests : List Packet,
        List.Forall₂ (Earns r.digest) interests (Operation.repliesAlong ops r id) ∧
        ∀ request, interests.countP (fun interest => interest.request = request) +
            (Operation.runAll ops r).pending.toList.countP
              (fun e => e.packet.request = request ∧ id ∈ e.waiting) ≤
          (Operation.asksAlong ops r id).countP fun interest => interest.request = request) := by
  obtain ⟨interests, hlength, hearns, hplaces⟩ :=
    Operation.runAll_balances (Reachable.create config clock digest hnew).linked ops id
  have hempty : ∀ p, r.pending.places id p = 0 := by
    intro p
    unfold Relay.create at hnew
    split at hnew
    · cases hnew
    · cases hnew
      rfl
  constructor
  · have hall := hplaces (fun _ => true) (.of_forall (fun r => r.pending.recognises_true) ops r)
    rwa [List.countP_true, hempty, Nat.zero_add, PendingTable.places_true, hlength] at hall
  · intro hreach
    have hrequests : ∀ request, interests.countP (fun interest => interest.request = request) +
        (Operation.runAll ops r).pending.toList.countP
          (fun e => e.packet.request = request ∧ id ∈ e.waiting) ≤
        (Operation.asksAlong ops r id).countP fun interest => interest.request = request := by
      intro request
      have hrequest := hplaces (fun interest => interest.request = request)
        (hreach.imp fun r hr => PendingTable.recognises_request hr.2 request)
      rwa [hempty, Nat.zero_add, PendingTable.places_request] at hrequest
    refine ⟨?_, interests, hearns hreach, hrequests⟩
    intro reply hreply
    obtain ⟨interest, hinterest, hearned⟩ := exists_earns_of_mem (hearns hreach) hreply
    have htaken : 0 < interests.countP fun other => other.request = interest.request :=
      List.countP_pos_iff.mpr ⟨interest, hinterest, decide_eq_true rfl⟩
    have hasked := Nat.lt_of_lt_of_le htaken
      (Nat.le_trans (Nat.le_add_right _ _) (hrequests interest.request))
    obtain ⟨asked, hmem, hsame⟩ := List.countP_pos_iff.mp hasked
    exact ⟨asked, hmem, hearned.congr (of_decide_eq_true hsame).symm⟩

namespace Sample

/-- A peer asks for `x` and gets it from the other one, asks again and gets it from the store, and
asks for another copy, which it waits for. -/
def visits : List (Operation Allowance CachePolicy) :=
  [.setDelivers, meets 2, meets 3, .handleInterest ⟨1⟩ (interest none),
    .handleContent ⟨2⟩ (content 5), .handleInterest ⟨1⟩ (interest none),
    .handleInterest ⟨1⟩ (interestByDigest 7)]

end Sample

/-- The peer asks three times, gets two answers and waits for a third one. -/
theorem visiting_peer_gets_what_it_asks_for :
    (Operation.repliesAlong Sample.visits Sample.created ⟨1⟩).length = 2 ∧
      (Operation.runAll Sample.visits Sample.created).pending.toList.countP
        (fun e => ⟨1⟩ ∈ e.waiting) = 1 ∧
      (Operation.asksAlong Sample.visits Sample.created ⟨1⟩).length = 3 ∧
      (Operation.repliesAlong Sample.visits Sample.created ⟨1⟩).length +
          (Operation.runAll Sample.visits Sample.created).pending.toList.countP
            (fun e => ⟨1⟩ ∈ e.waiting) ≤
        (Operation.asksAlong Sample.visits Sample.created ⟨1⟩).length ∧
      ∀ reply ∈ Operation.repliesAlong Sample.visits Sample.created ⟨1⟩,
        ∃ interest ∈ Operation.asksAlong Sample.visits Sample.created ⟨1⟩,
          Earns Sample.digest interest reply := by
  obtain ⟨hbalance, hearned⟩ := answers_and_entries_are_asked_for
    (rfl : Relay.create Sample.config ⟨0⟩ Sample.digest = .ok Sample.created) Sample.visits ⟨1⟩
  obtain ⟨hasked, -⟩ := hearned (by decide)
  exact ⟨by decide, by decide, by decide, hbalance, hasked⟩

end NamedRelay
