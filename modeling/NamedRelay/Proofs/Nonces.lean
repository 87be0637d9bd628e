import NamedRelay.Proofs.Failure
import NamedRelay.Proofs.Lifetime
import NamedRelay.Proofs.SendingFrame

/-!
# Which nonces count as seen

A nonce is recorded when it is checked and not found. `Operation.recordings` lists the nonces that a
run records, as the answers of its checks tell; a history of capacity `n` is the last `n` of them,
and a check finds what is among these. Without a history it is the pending interests that tell.
-/

namespace NamedRelay

lemma Packet.nonce_of_ccntlv {p : Packet} (h : p.suite = .ccntlv) : p.nonce = none := by
  have hfields : p.fields.suite = .ccntlv := p.suite_eq.trans h
  unfold Packet.nonce
  cases hf : p.fields with
  | ccnb least greatest nonce =>
    rw [hf] at hfields
    cases hfields
  | ccntlv => rfl
  | ndntlv least greatest nonce fresh lifetime freshness =>
    rw [hf] at hfields
    cases hfields

/-! ## The history -/

namespace NonceHistory

/-- The history is what was recorded last, no nonce twice. -/
structure Remembers (h : NonceHistory) (capacity : Nat) (recorded : List Bytes) : Prop where
  limit : h.capacity = capacity
  seen : h.seen = recorded.take capacity
  nodup : h.seen.Nodup

lemma capacity_findOrAppend (h : NonceHistory) (nonce : Bytes) :
    (h.findOrAppend nonce).2.capacity = h.capacity := by
  unfold findOrAppend
  split
  · rfl
  · split
    · rfl
    · split <;> rfl

/-- A new nonce is put before the ones recorded last, of which the oldest goes where they fill the
history. -/
lemma seen_findOrAppend_of_not_mem {h : NonceHistory} {recorded : List Bytes}
    (hseen : h.seen = recorded.take h.capacity) {nonce : Bytes} (hnew : nonce ∉ h.seen) :
    (h.findOrAppend nonce).2.seen = (nonce :: recorded).take h.capacity := by
  unfold findOrAppend
  rw [if_neg hnew]
  cases hcapacity : h.capacity with
  | zero =>
    rw [hcapacity, List.take_zero] at hseen
    rw [if_pos rfl]
    exact hseen
  | succ n =>
    rw [hcapacity] at hseen
    rw [if_neg (Nat.succ_ne_zero n), List.take_succ_cons, hseen]
    split
    · rename_i hroom
      rw [List.length_take] at hroom
      have hshort : recorded.length ≤ n := by omega
      dsimp only
      rw [List.take_of_length_le hshort, List.take_of_length_le (Nat.le_succ_of_le hshort)]
    · rename_i hfull
      rw [List.length_take] at hfull
      have hkept : min (min (n + 1) recorded.length - 1) (n + 1) = n := by omega
      dsimp only
      rw [List.dropLast_eq_take, List.length_take, List.take_take, hkept]

variable {h : NonceHistory} {capacity : Nat} {recorded : List Bytes}

lemma Remembers.findOrAppend_of_mem (hr : h.Remembers capacity recorded) {nonce : Bytes}
    (hmem : nonce ∈ h.seen) : (h.findOrAppend nonce).2.Remembers capacity recorded := by
  unfold NonceHistory.findOrAppend
  rw [if_pos hmem]
  exact hr

lemma Remembers.findOrAppend_of_not_mem (hr : h.Remembers capacity recorded) {nonce : Bytes}
    (hnew : nonce ∉ h.seen) :
    (h.findOrAppend nonce).2.Remembers capacity (nonce :: recorded) := by
  obtain ⟨rfl, hseen, hnodup⟩ := hr
  have happended := seen_findOrAppend_of_not_mem hseen hnew
  refine ⟨h.capacity_findOrAppend nonce, happended, ?_⟩
  rw [happended]
  cases hcapacity : h.capacity with
  | zero => exact List.nodup_nil
  | succ n =>
    have hsub : (recorded.take n).Sublist h.seen := by
      rw [hseen, hcapacity]
      exact List.take_sublist_take_left (Nat.le_succ n)
    rw [List.take_succ_cons, List.nodup_cons]
    exact ⟨fun hold => hnew (hsub.subset hold), hnodup.sublist hsub⟩

end NonceHistory

/-! ## What operations check -/

/-- The interest is taken in on the face. -/
def Relay.takenFrom? {σ κ : Type} (r : Relay σ κ) (id : FaceId) (packet : Packet) :
    Option Packet :=
  if packet.isInterest && r.isLive id then some packet else none

namespace Operation

variable {σ κ : Type} [Scheduler σ] [CacheStrategy κ]

/-- The packet whose nonce an operation checks. -/
def checked? : Operation σ κ → Relay σ κ → Option Packet
  | checkNonce packet, _ => some packet
  | handleInterest id interest, r => r.takenFrom? id interest
  | expressInterest interest, _ => if interest.isInterest then some interest else none
  | dispatch id packet, r => r.takenFrom? id packet
  | receive decode interface peer bytes, r =>
    if maxPacketBytes < bytes.length then none
    else match decode bytes with
      | .error _ => none
      | .ok packet =>
        match r.getFace (some interface) (some peer) with
        | (.error _, _) => none
        | (.ok id, m) => m.takenFrom? id packet
  | _, _ => none

/-- An operation reports a duplicate: it says so, or counts one that it drops. -/
def reportsDuplicate : Operation σ κ → Relay σ κ → Bool
  | checkNonce packet, r => (r.checkNonce packet).1
  | op, r => (op.run r).counters.duplicatesDropped != r.counters.duplicatesDropped

/-- The nonce that an operation records: the one it checks, unless that is a duplicate. -/
def records? (op : Operation σ κ) (r : Relay σ κ) : Option Bytes :=
  if op.reportsDuplicate r then none else (op.checked? r).bind Packet.nonce

/-- The nonces that operations record one after the other, the most recent one first. -/
def recordings : List (Operation σ κ) → Relay σ κ → List Bytes
  | [], _ => []
  | op :: ops, r => recordings ops (op.run r) ++ (op.records? r).toList

end Operation

namespace Relay

variable {σ κ : Type}

/-! ## Interests -/

/-- The nonces on record, and how many duplicates were dropped. -/
def onRecord (r : Relay σ κ) : NonceHistory × UInt64 :=
  (r.nonces, r.counters.duplicatesDropped)

lemma onRecord_of_rest {r r' : Relay σ κ} (h : r'.rest = r.rest) : r'.onRecord = r.onRecord :=
  congrArg (fun t : Rest κ => (t.nonces, t.intake.duplicatesDropped)) h

lemma onRecord_deliver (r : Relay σ κ) (face : Option FaceId) (content : Packet) :
    (r.deliver face content).onRecord = r.onRecord := by
  unfold deliver
  split <;> rfl

lemma onRecord_answerOwn (r : Relay σ κ) (h : Handle) : (r.answerOwn h).onRecord = r.onRecord := by
  unfold answerOwn
  dsimp only
  split
  · rfl
  · exact (onRecord_deliver _ none _).trans rfl

lemma counters_checkNonce (r : Relay σ κ) (packet : Packet) :
    (r.checkNonce packet).2.counters = r.counters := by
  unfold checkNonce
  split
  · rfl
  · split <;> rfl

/-- A nonce goes on record when it is checked against a history. -/
lemma nonces_checkNonce (r : Relay σ κ) (packet : Packet) :
    (r.checkNonce packet).2.nonces =
      match packet.nonce, r.config.nonceCheck with
      | some nonce, .history _ => (r.nonces.findOrAppend nonce).2
      | _, _ => r.nonces := by
  unfold checkNonce
  cases packet.nonce with
  | none => rfl
  | some nonce => cases r.config.nonceCheck <;> rfl

lemma dropDuplicate_counts (r : Relay σ κ) :
    r.dropDuplicate.counters.duplicatesDropped ≠ r.counters.duplicatesDropped := by
  change r.counters.duplicatesDropped + 1 ≠ r.counters.duplicatesDropped
  intro hsame
  have hword := congrArg UInt64.toNat hsame
  rw [UInt64.toNat_add] at hword
  have hlt := r.counters.duplicatesDropped.toNat_lt
  have hone : (1 : UInt64).toNat = 1 := rfl
  omega

section

variable [Scheduler σ]

lemma onRecord_interestPropagate (r : Relay σ κ) (h : Handle) :
    (r.interestPropagate h).onRecord = r.onRecord := by
  unfold interestPropagate
  split
  · exact onRecord_of_rest (r.rest_propagate _)
  · rfl

lemma onRecord_answerFromCache (r : Relay σ κ) (face : Face σ) (h : Handle) :
    (r.answerFromCache face h).onRecord = r.onRecord := by
  rw [answerFromCache_eq]
  split
  · rfl
  · split
    · exact (onRecord_deliver _ (some face.id) _).trans rfl
    · exact (onRecord_of_rest (rest_offer _ _ _ _)).trans rfl

lemma onRecord_recordInterest (r : Relay σ κ) (face : Face σ) (interest : Packet) :
    (r.recordInterest face interest).onRecord = r.onRecord := by
  rw [recordInterest_eq]
  dsimp only
  split
  · split
    · exact (onRecord_interestPropagate _ _).trans rfl
    · rfl
  · exact (onRecord_interestPropagate _ _).trans rfl

lemma onRecord_recordOwn (r : Relay σ κ) (interest : Packet) :
    (r.recordOwn interest).onRecord = r.onRecord := by
  unfold recordOwn
  split
  · rfl
  · exact (onRecord_interestPropagate _ _).trans rfl

lemma takeInterest_of_seen {r : Relay σ κ} {interest : Packet} (hseen : r.SeenBefore interest)
    (face : Face σ) : r.takeInterest face interest = r.dropDuplicate := by
  rw [takeInterest_eq]
  dsimp only
  rw [if_pos ((r.fst_checkNonce_iff interest).mpr hseen), snd_checkNonce_of_seen hseen]

lemma onRecord_takeInterest {r : Relay σ κ} {interest : Packet}
    (hunseen : ¬r.SeenBefore interest) (face : Face σ) :
    (r.takeInterest face interest).onRecord = (r.checkNonce interest).2.onRecord := by
  rw [takeInterest_eq]
  dsimp only
  rw [if_neg fun hdup => hunseen ((r.fst_checkNonce_iff interest).mp hdup)]
  split
  · exact onRecord_answerFromCache _ face _
  · exact onRecord_recordInterest _ face interest

lemma expressInterest_of_seen {r : Relay σ κ} {interest : Packet}
    (hkind : interest.isInterest = true) (hseen : r.SeenBefore interest) :
    (r.expressInterest interest).2 = r.dropDuplicate := by
  rw [r.expressInterest_eq hkind]
  dsimp only
  rw [if_pos ((r.fst_checkNonce_iff interest).mpr hseen), snd_checkNonce_of_seen hseen]

lemma onRecord_expressInterest {r : Relay σ κ} {interest : Packet}
    (hkind : interest.isInterest = true) (hunseen : ¬r.SeenBefore interest) :
    (r.expressInterest interest).2.onRecord = (r.checkNonce interest).2.onRecord := by
  rw [r.expressInterest_eq hkind]
  dsimp only
  rw [if_neg fun hdup => hunseen ((r.fst_checkNonce_iff interest).mp hdup)]
  split
  · exact onRecord_answerOwn _ _
  · exact onRecord_recordOwn _ interest

/-- How a relay deals with an interest: the nonce is checked, and a duplicate is dropped. -/
structure Checks (r : Relay σ κ) (interest : Packet) (r' : Relay σ κ) : Prop where
  nonces : r'.nonces = (r.checkNonce interest).2.nonces
  counts : r'.counters.duplicatesDropped ≠ r.counters.duplicatesDropped ↔ r.SeenBefore interest

omit [Scheduler σ] in
lemma Checks.of_seen {r : Relay σ κ} {interest : Packet} (hseen : r.SeenBefore interest) :
    r.Checks interest r.dropDuplicate where
  nonces := by
    rw [snd_checkNonce_of_seen hseen]
    rfl
  counts := ⟨fun _ => hseen, fun _ => r.dropDuplicate_counts⟩

omit [Scheduler σ] in
lemma Checks.of_unseen {r r' : Relay σ κ} {interest : Packet} (hunseen : ¬r.SeenBefore interest)
    (h : r'.onRecord = (r.checkNonce interest).2.onRecord) : r.Checks interest r' where
  nonces := congrArg Prod.fst h
  counts := by
    have hcount : r'.counters.duplicatesDropped =
        (r.checkNonce interest).2.counters.duplicatesDropped := congrArg Prod.snd h
    rw [hcount, counters_checkNonce]
    exact ⟨fun hcounted => absurd rfl hcounted, fun hseen => absurd hseen hunseen⟩

omit [Scheduler σ] in
/-- It makes no difference to a check that the packet was noted as received before. -/
lemma Checks.after {r m r' : Relay σ κ} {interest : Packet} (hconfig : m.config = r.config)
    (hpending : m.pending = r.pending) (hrecord : m.onRecord = r.onRecord)
    (h : m.Checks interest r') : r.Checks interest r' where
  nonces := by
    have hnonces : m.nonces = r.nonces := congrArg Prod.fst hrecord
    rw [h.nonces, nonces_checkNonce, nonces_checkNonce, hconfig, hnonces]
  counts := by
    have hnonces : m.nonces = r.nonces := congrArg Prod.fst hrecord
    have hcount : m.counters.duplicatesDropped = r.counters.duplicatesDropped :=
      congrArg Prod.snd hrecord
    have hcounts := h.counts
    unfold SeenBefore at hcounts ⊢
    rw [hcount, hconfig, hnonces, hpending] at hcounts
    exact hcounts

lemma takeInterest_checks (r : Relay σ κ) (face : Face σ) (interest : Packet) :
    r.Checks interest (r.takeInterest face interest) := by
  by_cases hseen : r.SeenBefore interest
  · rw [takeInterest_of_seen hseen]
    exact .of_seen hseen
  · exact .of_unseen hseen (onRecord_takeInterest hseen face)

lemma expressInterest_checks (r : Relay σ κ) {interest : Packet}
    (hkind : interest.isInterest = true) : r.Checks interest (r.expressInterest interest).2 := by
  by_cases hseen : r.SeenBefore interest
  · rw [expressInterest_of_seen hkind hseen]
    exact .of_seen hseen
  · exact .of_unseen hseen (onRecord_expressInterest hkind hseen)

/-- An operation leaves the nonces alone or checks one. -/
inductive Watches (r r' : Relay σ κ) : Option Packet → Prop where
  | leaves : r'.nonces = r.nonces → r.Watches r' none
  | checks {interest : Packet} : r.Checks interest r' → r.Watches r' (some interest)

lemma handleInterest_watches (r : Relay σ κ) (id : FaceId) (interest : Packet) :
    r.Watches (r.handleInterest id interest).2 (r.takenFrom? id interest) := by
  unfold takenFrom?
  rcases r.handleInterest_cases id interest with ⟨hrefused, hsame⟩ | ⟨face, hkind, hface, htaken⟩
  · rw [hrefused, hsame]
    exact .leaves rfl
  · have hlive : r.isLive id = true := by
      rw [isLive, hface]
      rfl
    rw [hkind, hlive, htaken]
    have hchecks := (r.interestReceived id).takeInterest_checks face interest
    exact .checks (.after (m := r.interestReceived id) rfl rfl rfl hchecks)

lemma expressInterest_watches (r : Relay σ κ) (interest : Packet) :
    r.Watches (r.expressInterest interest).2
      (if interest.isInterest then some interest else none) := by
  cases hkind : interest.isInterest with
  | false =>
    rw [r.expressInterest_of_content hkind]
    exact .leaves rfl
  | true => exact .checks (r.expressInterest_checks hkind)

/-! ## Content -/

lemma nonces_servePacket (r : Relay σ κ) (content : Packet) :
    (r.servePacket content).2.nonces = r.nonces :=
  (r.servePacket_sends content).nonces

lemma nonces_servePending (r : Relay σ κ) (h : Handle) :
    (r.servePending h).2.nonces = r.nonces := by
  unfold servePending
  split
  · rfl
  · exact r.nonces_servePacket _

end

section

variable [CacheStrategy κ]

lemma nonces_askAdmission (r : Relay σ κ) (content : Packet) :
    (r.askAdmission content).2.nonces = r.nonces := by
  unfold askAdmission
  split <;> rfl

lemma nonces_cacheServed (r : Relay σ κ) (staleCopy : Option Handle) (content : Packet)
    (served : Recipients) : (r.cacheServed staleCopy content served).nonces = r.nonces := by
  unfold cacheServed
  split <;> rfl

variable [Scheduler σ]

lemma nonces_answerContent (r : Relay σ κ) (content : Packet) :
    (r.answerContent content).nonces = r.nonces := by
  have haccepted : ∀ staleCopy, (r.acceptContent staleCopy content).nonces = r.nonces := by
    intro staleCopy
    have hserved := r.nonces_servePacket content
    have hasked := ((r.servePacket content).2.nonces_askAdmission content).trans hserved
    rw [acceptContent_eq]
    dsimp only
    split
    · exact hserved
    · split
      · exact (nonces_cacheServed _ staleCopy content _).trans hasked
      · exact hasked
  unfold answerContent
  split
  · exact haccepted none
  · split
    · exact haccepted _
    · exact r.nonces_servePending _

lemma nonces_handleContent (r : Relay σ κ) (id : FaceId) (content : Packet) :
    (r.handleContent id content).2.nonces = r.nonces := by
  rcases r.handleContent_cases id content with ⟨-, hsame⟩ | ⟨-, -, hanswered⟩
  · rw [hsame]
  · rw [hanswered]
    exact nonces_answerContent _ content

lemma nonces_addContent (r : Relay σ κ) (content : Packet) :
    (r.addContent content).2.nonces = r.nonces := by
  have hadded : (r.addToCache content).2.nonces = r.nonces := rfl
  unfold addContent
  rcases hm : r.addToCache content with ⟨e | h, m⟩
  · rw [hm] at hadded
    exact hadded
  · rw [hm] at hadded
    exact (m.nonces_servePending h).trans hadded

lemma dispatch_watches (r : Relay σ κ) (id : FaceId) (packet : Packet) :
    r.Watches (r.dispatch id packet).2 (r.takenFrom? id packet) := by
  unfold dispatch
  cases hkind : packet.kind with
  | interest => exact r.handleInterest_watches id packet
  | content =>
    have hnone : r.takenFrom? id packet = none := by simp [takenFrom?, Packet.isInterest, hkind]
    rw [hnone]
    exact .leaves (r.nonces_handleContent id packet)

lemma receive_watches (r : Relay σ κ) (decode : Bytes → Except Error Packet) (interface : Nat)
    (peer : Address) (bytes : Bytes) :
    r.Watches (r.receive decode interface peer bytes).2
      ((Operation.receive decode interface peer bytes).checked? r) := by
  unfold receive Operation.checked?
  dsimp only
  split
  · exact .leaves rfl
  · cases decode bytes with
    | error e => exact .leaves rfl
    | ok packet =>
      have hkeeps := (r.getFace_sends (some interface) (some peer)).toKeeps
      have hrecord := onRecord_of_rest (r.rest_getFace (some interface) (some peer))
      rcases hm : r.getFace (some interface) (some peer) with ⟨e | id, m⟩
      · rw [hm] at hkeeps
        exact .leaves hkeeps.nonces
      · rw [hm] at hkeeps hrecord
        dsimp only
        have hdispatched := m.dispatch_watches id packet
        cases htaken : m.takenFrom? id packet with
        | none =>
          rw [htaken] at hdispatched
          cases hdispatched with
          | leaves hnonces => exact .leaves (hnonces.trans hkeeps.nonces)
        | some interest =>
          rw [htaken] at hdispatched
          cases hdispatched with
          | checks hchecks =>
            exact .checks (hchecks.after hkeeps.config hkeeps.pending hrecord)

/-! ## All operations -/

omit [Scheduler σ] [CacheStrategy κ] in
lemma nonces_removeFaces (r : Relay σ κ) (ids : List FaceId) :
    (r.removeFaces ids).nonces = r.nonces := by
  induction ids generalizing r with
  | nil => rfl
  | cons id ids ih =>
    have hfirst : (r.removeFace id).2.nonces = r.nonces := by
      unfold removeFace
      split <;> rfl
    exact (ih (r.removeFace id).2).trans hfirst

omit [CacheStrategy κ] in
lemma nonces_doAgeing (r : Relay σ κ) : r.doAgeing.nonces = r.nonces := by
  unfold doAgeing
  rw [ageFaces_eq, nonces_removeFaces]
  exact (propagateAll_keeps (κ := κ) _ _).nonces

lemma watches_run (r : Relay σ κ) {op : Operation σ κ} (hop : ∀ p, op ≠ .checkNonce p) :
    r.Watches (op.run r) (op.checked? r) := by
  cases op with
  | setClock ms => exact .leaves rfl
  | advance ms => exact .leaves rfl
  | setStrategy strategy => exact .leaves rfl
  | setSchedulerFor schedulerFor => exact .leaves rfl
  | setDelivers => exact .leaves rfl
  | addInterface config =>
    apply Watches.leaves
    dsimp only [Operation.run, addInterface]
    split <;> rfl
  | setInterfaceScheduler index scheduler =>
    apply Watches.leaves
    dsimp only [Operation.run, setInterfaceScheduler]
    split <;> rfl
  | interfaceEnqueue index face packet destination =>
    exact .leaves (r.interfaceEnqueue_sends index face packet destination).nonces
  | interfaceClearToSend index => exact .leaves (r.interfaceClearToSend_sends index).nonces
  | transmitAll => exact .leaves r.transmitAll_sends.nonces
  | getFace interface peer => exact .leaves (r.getFace_sends interface peer).nonces
  | changeFace id change => exact .leaves rfl
  | removeFace id => exact .leaves (r.nonces_removeFaces [id])
  | faceEnqueue id packet => exact .leaves (r.faceEnqueue_sends id packet).nonces
  | faceDequeue id => exact .leaves (r.faceDequeue_sends id).nonces
  | faceClearToSend id => exact .leaves (r.faceClearToSend_sends id).nonces
  | addRoute name face =>
    apply Watches.leaves
    dsimp only [Operation.run, addRoute]
    split <;> rfl
  | addTap name tap => exact .leaves rfl
  | removeRoute name face =>
    apply Watches.leaves
    dsimp only [Operation.run, removeRoute]
    split <;> rfl
  | receive decode interface peer bytes => exact r.receive_watches decode interface peer bytes
  | dispatch id packet => exact r.dispatch_watches id packet
  | checkNonce packet => exact absurd rfl (hop packet)
  | handleInterest id interest => exact r.handleInterest_watches id interest
  | expressInterest interest => exact r.expressInterest_watches interest
  | handleContent id content => exact .leaves (r.nonces_handleContent id content)
  | interestPropagate h => exact .leaves (r.interestPropagate_keeps h).nonces
  | interestBroadcast h => exact .leaves (r.interestBroadcast_keeps h).nonces
  | addToCache content => exact .leaves rfl
  | addContent content => exact .leaves (r.nonces_addContent content)
  | removeCached path =>
    apply Watches.leaves
    dsimp only [Operation.run, removeCached]
    split <;> rfl
  | servePending h => exact .leaves (r.nonces_servePending h)
  | doAgeing => exact .leaves r.nonces_doAgeing

lemma nonces_run (r : Relay σ κ) (op : Operation σ κ) :
    (op.run r).nonces =
      (op.checked? r).elim r.nonces fun packet => (r.checkNonce packet).2.nonces := by
  by_cases hop : ∃ packet, op = .checkNonce packet
  · obtain ⟨packet, rfl⟩ := hop
    rfl
  · have hwatches := r.watches_run fun packet hsame => hop ⟨packet, hsame⟩
    generalize op.checked? r = checked at hwatches
    cases hwatches with
    | leaves hnonces => exact hnonces
    | checks hchecks => exact hchecks.nonces

lemma reportsDuplicate_iff {r : Relay σ κ} {op : Operation σ κ} {packet : Packet}
    (hchecked : op.checked? r = some packet) :
    op.reportsDuplicate r = true ↔ r.SeenBefore packet := by
  by_cases hop : ∃ other, op = .checkNonce other
  · obtain ⟨other, rfl⟩ := hop
    obtain rfl : other = packet := Option.some.inj hchecked
    exact r.fst_checkNonce_iff other
  · have hwatches := r.watches_run fun other hsame => hop ⟨other, hsame⟩
    have hcounts : op.reportsDuplicate r =
        ((op.run r).counters.duplicatesDropped != r.counters.duplicatesDropped) := by
      unfold Operation.reportsDuplicate
      split
      · rename_i other
        exact absurd ⟨other, rfl⟩ hop
      · rfl
    rw [hchecked] at hwatches
    cases hwatches with
    | checks hchecks => rw [hcounts, bne_iff_ne, hchecks.counts]

/-- What an operation records comes before what was recorded earlier. -/
lemma remembers_run {r : Relay σ κ} {capacity : Nat} {recorded : List Bytes}
    (hcheck : r.config.nonceCheck = .history capacity)
    (hr : r.nonces.Remembers capacity recorded) (op : Operation σ κ) :
    (op.run r).nonces.Remembers capacity ((op.records? r).toList ++ recorded) := by
  rw [nonces_run]
  unfold Operation.records?
  cases hchecked : op.checked? r with
  | none =>
    rw [Option.bind_none, ite_self]
    exact hr
  | some packet =>
    rw [Option.elim_some, Option.bind_some, nonces_checkNonce, hcheck]
    cases hnonce : packet.nonce with
    | none =>
      rw [ite_self]
      exact hr
    | some nonce =>
      have hreports : op.reportsDuplicate r = true ↔ nonce ∈ r.nonces.seen := by
        rw [reportsDuplicate_iff hchecked]
        simp [SeenBefore, hnonce, hcheck]
      by_cases hmem : nonce ∈ r.nonces.seen
      · rw [if_pos (hreports.mpr hmem)]
        exact hr.findOrAppend_of_mem hmem
      · rw [if_neg fun hdup => hmem (hreports.mp hdup)]
        exact hr.findOrAppend_of_not_mem hmem

lemma remembers_runAll {r : Relay σ κ} (hl : r.Linked) {capacity : Nat} {recorded : List Bytes}
    (hcheck : r.config.nonceCheck = .history capacity)
    (hr : r.nonces.Remembers capacity recorded) (ops : List (Operation σ κ)) :
    (Operation.runAll ops r).nonces.Remembers capacity
      (Operation.recordings ops r ++ recorded) := by
  induction ops generalizing r recorded with
  | nil => exact hr
  | cons op ops ih =>
    have heffect := effect_run hl op
    have hnext := ih (hl.effect heffect) (by rw [heffect.setup.1, hcheck])
      (remembers_run hcheck hr op)
    rw [Operation.recordings, List.append_assoc]
    exact hnext

/-- The history holds the nonces that were recorded last, and checks go by it. -/
structure GoesByHistory (r : Relay σ κ) (capacity : Nat) (recorded : List Bytes) : Prop where
  seen : r.nonces.seen = recorded.take capacity
  nodup : r.nonces.seen.Nodup
  length_le : r.nonces.seen.length ≤ capacity
  reports : ∀ (op : Operation σ κ) (packet : Packet) (nonce : Bytes),
    op.checked? r = some packet → packet.nonce = some nonce →
      (op.reportsDuplicate r = true ↔ nonce ∈ recorded.take capacity)
  /-- Nothing is found in a history for none. -/
  unseen : capacity = 0 → ∀ (op : Operation σ κ) (packet : Packet),
    op.checked? r = some packet → op.reportsDuplicate r = false
  /-- A nonce is found until as many as the history holds were recorded after it. -/
  recent : ∀ (op : Operation σ κ) (packet : Packet) (nonce : Bytes) (later earlier : List Bytes),
    op.checked? r = some packet → packet.nonce = some nonce →
      recorded = later ++ nonce :: earlier → later.length < capacity →
      op.reportsDuplicate r = true

lemma goesByHistory_of_remembers {r : Relay σ κ} {capacity : Nat} {recorded : List Bytes}
    (hcheck : r.config.nonceCheck = .history capacity)
    (hr : r.nonces.Remembers capacity recorded) : r.GoesByHistory capacity recorded := by
  have hreports : ∀ (op : Operation σ κ) (packet : Packet) (nonce : Bytes),
      op.checked? r = some packet → packet.nonce = some nonce →
        (op.reportsDuplicate r = true ↔ nonce ∈ recorded.take capacity) := by
    intro op packet nonce hchecked hnonce
    rw [reportsDuplicate_iff hchecked, ← hr.seen]
    simp [SeenBefore, hnonce, hcheck]
  refine ⟨hr.seen, hr.nodup, ?_, hreports, ?_, ?_⟩
  · rw [hr.seen]
    exact List.length_take_le capacity recorded
  · rintro rfl op packet hchecked
    rw [← Bool.not_eq_true]
    intro hdup
    obtain ⟨nonce, hnonce, -⟩ := (reportsDuplicate_iff hchecked).mp hdup
    have hmem := (hreports op packet nonce hchecked hnonce).mp hdup
    cases hmem
  · rintro op packet nonce later earlier hchecked hnonce rfl hshort
    apply (hreports op packet nonce hchecked hnonce).mpr
    obtain ⟨rest, hrest⟩ := Nat.exists_eq_add_of_lt hshort
    rw [hrest, Nat.add_assoc, List.take_length_add_append, List.take_succ_cons]
    simp

/-- Where a duplicate is counted, an interest was checked. -/
lemma handleInterest_of_duplicate {r : Relay σ κ} {id : FaceId} {interest : Packet}
    (hdup : (Operation.handleInterest id interest).reportsDuplicate r = true) :
    (r.handleInterest id interest).2 = (r.interestReceived id).dropDuplicate := by
  have hcounted : (r.handleInterest id interest).2.counters.duplicatesDropped ≠
      r.counters.duplicatesDropped := bne_iff_ne.mp hdup
  rcases r.handleInterest_cases id interest with ⟨-, hsame⟩ | ⟨face, -, -, htaken⟩
  · rw [hsame] at hcounted
    exact absurd rfl hcounted
  · rw [htaken] at hcounted ⊢
    have hchecks := (r.interestReceived id).takeInterest_checks face interest
    exact takeInterest_of_seen (hchecks.counts.mp hcounted) face

lemma expressInterest_of_duplicate {r : Relay σ κ} {interest : Packet}
    (hdup : (Operation.expressInterest interest).reportsDuplicate r = true) :
    (r.expressInterest interest).2 = r.dropDuplicate := by
  have hcounted : (r.expressInterest interest).2.counters.duplicatesDropped ≠
      r.counters.duplicatesDropped := bne_iff_ne.mp hdup
  cases hkind : interest.isInterest with
  | false =>
    rw [r.expressInterest_of_content hkind] at hcounted
    exact absurd rfl hcounted
  | true =>
    exact expressInterest_of_seen hkind ((r.expressInterest_checks hkind).counts.mp hcounted)

end

end Relay

/-- Loops are told by their nonces. In a run of a new relay with a history, an operation that checks
a nonce reports a duplicate exactly if the nonce is among the ones recorded last, as many as the
history holds; without one, exactly if a pending interest has it. An interest without a nonce, as
all those of the family that has none, is never a duplicate. And when an interest is dropped as a
duplicate, nothing changes but the time its face was used and the counters. -/
theorem checks_report_recorded_nonces {σ κ : Type} [Scheduler σ] [CacheStrategy κ]
    {config : Config} {clock : Timestamp} {digest : Bytes → Digest} {r : Relay σ κ}
    (hnew : Relay.create config clock digest = .ok r) (ops : List (Operation σ κ)) :
    (∀ capacity, config.nonceCheck = .history capacity →
      (Operation.runAll ops r).GoesByHistory capacity (Operation.recordings ops r)) ∧
    (config.nonceCheck = .pendingTable →
      ∀ (op : Operation σ κ) (packet : Packet) (nonce : Bytes),
        op.checked? (Operation.runAll ops r) = some packet → packet.nonce = some nonce →
        (op.reportsDuplicate (Operation.runAll ops r) = true ↔
          ∃ e ∈ (Operation.runAll ops r).pending.toList, e.packet.nonce = some nonce)) ∧
    (∀ (op : Operation σ κ) (packet : Packet),
      op.checked? (Operation.runAll ops r) = some packet →
      packet.nonce = none ∨ packet.suite = .ccntlv →
      op.reportsDuplicate (Operation.runAll ops r) = false) ∧
    (∀ (m : Relay σ κ) (id : FaceId) (interest : Packet),
      (Operation.handleInterest id interest).reportsDuplicate m = true →
      (m.handleInterest id interest).2 = { m with
        faces := m.faces.modify id fun f => { f with lastUsed := f.lastUsed.latest m.clock }
        counters := { m.counters with
          interestsReceived := m.counters.interestsReceived + 1
          duplicatesDropped := m.counters.duplicatesDropped + 1 } }) ∧
    ∀ (m : Relay σ κ) (interest : Packet),
      (Operation.expressInterest interest).reportsDuplicate m = true →
      (m.expressInterest interest).2 = { m with
        counters := { m.counters with
          duplicatesDropped := m.counters.duplicatesDropped + 1 } } := by
  have hr : Reachable r := .create config clock digest hnew
  have hinitial : r.config = config ∧
      ∀ capacity, config.nonceCheck = .history capacity → r.nonces.Remembers capacity [] := by
    unfold Relay.create at hnew
    split at hnew
    · cases hnew
    · cases hnew
      refine ⟨rfl, fun capacity hcheck => ⟨?_, List.take_nil.symm, List.nodup_nil⟩⟩
      dsimp only
      rw [hcheck]
  have hconfig : (Operation.runAll ops r).config = config :=
    (Relay.config_runAll hr.linked ops).trans hinitial.1
  refine ⟨?_, ?_, ?_, ?_, ?_⟩
  · intro capacity hcheck
    have hremembers := Relay.remembers_runAll hr.linked (by rw [hinitial.1, hcheck])
      (hinitial.2 capacity hcheck) ops
    rw [List.append_nil] at hremembers
    exact Relay.goesByHistory_of_remembers (by rw [hconfig, hcheck]) hremembers
  · intro hcheck op packet nonce hchecked hnonce
    rw [Relay.reportsDuplicate_iff hchecked]
    simp [Relay.SeenBefore, hnonce, hconfig, hcheck]
  · intro op packet hchecked hwithout
    have hnone : packet.nonce = none := hwithout.elim id Packet.nonce_of_ccntlv
    rw [← Bool.not_eq_true, Relay.reportsDuplicate_iff hchecked]
    rintro ⟨nonce, hnonce, -⟩
    rw [hnone] at hnonce
    cases hnonce
  · exact fun m id interest hdup => Relay.handleInterest_of_duplicate hdup
  · exact fun m interest hdup => Relay.expressInterest_of_duplicate hdup

namespace Sample

/-- Nothing has happened yet, and nonces are checked this way. -/
def checking (check : NonceCheck) (capacity : Nat) : Relay Allowance CachePolicy :=
  { created with config := { config with nonceCheck := check }, nonces := { capacity } }

/-- An interest with a nonce of one byte. -/
def marked (nonce : UInt8) : Packet :=
  interest (some [nonce])

end Sample

/-- With a history for one nonce, an interest is a duplicate of the one before, but not of the one
before that. Without a history it is one as long as a peer waits for the same. Without a nonce it is
none. -/
theorem repeated_nonces_are_reported :
    (Operation.expressInterest (Sample.marked 7)).reportsDuplicate
        (Operation.runAll [.checkNonce (Sample.marked 7)] (Sample.checking (.history 1) 1)) = true ∧
      (Operation.expressInterest (Sample.marked 7)).reportsDuplicate
        (Operation.runAll [.checkNonce (Sample.marked 7), .checkNonce (Sample.marked 8)]
          (Sample.checking (.history 1) 1)) = false ∧
      (Operation.expressInterest (Sample.marked 7)).reportsDuplicate
        (Operation.runAll [Sample.meets 2, .handleInterest ⟨1⟩ (Sample.marked 7)]
          (Sample.checking .pendingTable 0)) = true ∧
      (Operation.checkNonce (Sample.interest none)).reportsDuplicate
        (Sample.checking (.history 1) 1) = false := by
  have hhistory : Relay.create { Sample.config with nonceCheck := .history 1 } ⟨0⟩ Sample.digest =
      .ok (Sample.checking (.history 1) 1) := rfl
  have htable : Relay.create { Sample.config with nonceCheck := .pendingTable } ⟨0⟩ Sample.digest =
      .ok (Sample.checking .pendingTable 0) := rfl
  obtain ⟨hfirst, -⟩ := checks_report_recorded_nonces hhistory [.checkNonce (Sample.marked 7)]
  obtain ⟨hsecond, -⟩ := checks_report_recorded_nonces hhistory
    [.checkNonce (Sample.marked 7), .checkNonce (Sample.marked 8)]
  obtain ⟨-, hpending, -⟩ := checks_report_recorded_nonces htable
    [Sample.meets 2, .handleInterest ⟨1⟩ (Sample.marked 7)]
  obtain ⟨-, -, hwithout, -⟩ := checks_report_recorded_nonces hhistory []
  refine ⟨?_, ?_, ?_, ?_⟩
  · exact ((hfirst 1 rfl).reports _ _ _ rfl rfl).mpr (by decide)
  · rw [← Bool.not_eq_true, (hsecond 1 rfl).reports _ _ _ rfl rfl]
    decide
  · exact (hpending rfl _ _ _ rfl rfl).mpr ⟨_, List.mem_singleton_self _, rfl⟩
  · exact hwithout _ _ rfl (.inl rfl)

end NamedRelay
