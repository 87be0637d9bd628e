import NamedRelay.Proofs.Capacity

/-!
# What becomes of an interest

An interest that comes in on a face is dropped as a duplicate, answered by the first cached entry
that may answer it, or recorded with the face as a waiter. It is one of the three, and which one it
is can be read off the relay beforehand.
-/

namespace NamedRelay

namespace PendingTable

lemma findSame?_eq_none_iff (t : PendingTable) (interest : Packet) :
    t.findSame? interest = none ↔ ∀ e ∈ t.toList, e.packet.request ≠ interest.request := by
  unfold findSame?
  rw [SlotTable.find?_eq_none]
  simp only [← Bool.not_eq_true, Packet.isSameInterest_iff, ne_eq]

/-- The other entries are for other requests. -/
lemma Sound.request_ne {t : PendingTable} {limit : UInt32} (h : t.Sound limit)
    {before after : List PendingInterest} {e : PendingInterest}
    (hlist : t.toList = before ++ e :: after) :
    ∀ other ∈ before ++ after, other.packet.request ≠ e.packet.request := by
  have hrequests := h.nodup
  rw [hlist, List.map_append, List.map_cons, List.nodup_middle, List.nodup_cons,
    ← List.map_append] at hrequests
  intro other hother heq
  exact hrequests.1 (heq ▸ List.mem_map_of_mem hother)

end PendingTable

namespace Relay

variable {σ κ : Type}

/-- The nonce of the interest was seen before, by the configured check. -/
def SeenBefore (r : Relay σ κ) (interest : Packet) : Prop :=
  ∃ nonce, interest.nonce = some nonce ∧
    match r.config.nonceCheck with
    | .history _ => nonce ∈ r.nonces.seen
    | .pendingTable => ∃ e ∈ r.pending.toList, e.packet.nonce = some nonce

/-- The cached entry satisfies the interest, and is not stale if the interest insists on that. -/
def MayAnswer (r : Relay σ κ) (interest : Packet) (c : CachedContent) : Prop :=
  interest.isSatisfiedBy c.packet r.digest = true ∧
    ¬(interest.mustBeFresh = true ∧ c.flags.stale = true)

/-- The relay with the interest noted as received and its nonce checked. -/
def interestChecked (r : Relay σ κ) (id : FaceId) (interest : Packet) : Relay σ κ :=
  ((r.interestReceived id).checkNonce interest).2

/-- The interest is dropped as a duplicate: all tables and queues are left as they are, and nothing
is sent. -/
structure DropsInterest (r : Relay σ κ) (interest : Packet) (r' : Relay σ κ) : Prop where
  seen : r.SeenBefore interest
  pending : r'.pending = r.pending
  table : r'.table = r.table
  store : r'.store = r.store
  nonces : r'.nonces = r.nonces
  interfaces : r'.interfaces = r.interfaces
  queues : r'.faces.faces.map (fun f => (f.id, f.queue)) =
    r.faces.faces.map fun f => (f.id, f.queue)
  log : r'.log = r.log

/-- The first cached entry that may answer the interest is handed to the face once, and nothing else
is handed to anybody. A peer's face is handed it by its queue. The application's face is handed it
by the callback, so it gets nothing where there is none. The entry notes that it was served in
either case, and the pending table is left as it is. -/
structure AnswersInterest (r : Relay σ κ) (f : Face σ) (interest : Packet) (r' : Relay σ κ) :
    Prop where
  unseen : ¬r.SeenBefore interest
  entry : ∃ before c after, r.store.entries.toList = before ++ c :: after ∧
    (∀ earlier ∈ before, ¬r.MayAnswer interest earlier) ∧ r.MayAnswer interest c ∧
    r'.store.entries.toList = before ++ { c with
      served := addSaturating32 c.served 1, lastUsed := c.lastUsed.latest r.clock } :: after ∧
    (r'.log.drop r.log.length).filterMap Event.handing? = r.answerTo f c.packet
  pending : r'.pending = r.pending

/-- The interest is recorded: the table has one entry for its request, with the face among those
who wait, and is the old table otherwise. The interest of that entry is sent once if the entry is
new or the face forwards all, and not at all otherwise. -/
structure RecordsInterest [Scheduler σ] (r : Relay σ κ) (f : Face σ) (interest : Packet)
    (r' : Relay σ κ) : Prop where
  unseen : ¬r.SeenBefore interest
  unanswered : ∀ c ∈ r.store.entries.toList, ¬r.MayAnswer interest c
  entry : ∃ (isNew : Bool) (h : Handle) (before : List PendingInterest) (e : PendingInterest)
      (after : List PendingInterest),
    r'.pending.toList = before ++ e :: after ∧ r'.pending.get? h = some e ∧
    e.packet.request = interest.request ∧ f.id ∈ e.waiting ∧
    (∀ other ∈ before ++ after, other.packet.request ≠ interest.request) ∧
    (if isNew then
      r.pending.toList = before ++ after ∧
        e = .fromFace interest f.id (r.lifetimeOf interest) r.clock
    else ∃ old, r.pending.toList = before ++ old :: after ∧ e = old.addWaiter f.id r.clock) ∧
    r' = let m : Relay σ κ := { r.interestChecked f.id interest with pending := r'.pending }
      if isNew || f.flags.forwardAll then m.interestPropagate h else m

section

variable {r r' : Relay σ κ} {f : Face σ} {interest : Packet}

lemma AnswersInterest.not_drops (h : r.AnswersInterest f interest r') :
    ¬r.DropsInterest interest r' :=
  fun hdrops => h.unseen hdrops.seen

lemma RecordsInterest.not_drops [Scheduler σ] (h : r.RecordsInterest f interest r') :
    ¬r.DropsInterest interest r' :=
  fun hdrops => h.unseen hdrops.seen

lemma AnswersInterest.not_records [Scheduler σ] (h : r.AnswersInterest f interest r') :
    ¬r.RecordsInterest f interest r' := by
  intro hrecords
  obtain ⟨before, c, after, hlist, -, hmay, -⟩ := h.entry
  have hmem : c ∈ r.store.entries.toList := by simp [hlist]
  exact hrecords.unanswered c hmem hmay

end

/-! ## Nonces and cached answers -/

lemma fst_checkNonce_iff (r : Relay σ κ) (interest : Packet) :
    (r.checkNonce interest).1 = true ↔ r.SeenBefore interest := by
  unfold checkNonce SeenBefore
  cases interest.nonce with
  | none => simp
  | some nonce =>
    cases r.config.nonceCheck with
    | history capacity =>
      simp only [NonceHistory.findOrAppend, Option.some.injEq, exists_eq_left']
      split
      · rename_i hseen
        simp [hseen]
      · rename_i hseen
        split
        · simp [hseen]
        · split
          · simp [hseen]
          · simp [hseen]
    | pendingTable => simp [PendingTable.hasNonce]

/-- A nonce that was seen before is not remembered once more. -/
lemma snd_checkNonce_of_seen {r : Relay σ κ} {interest : Packet} (hseen : r.SeenBefore interest) :
    (r.checkNonce interest).2 = r := by
  obtain ⟨nonce, hnonce, hmem⟩ := hseen
  unfold checkNonce
  rw [hnonce]
  cases hcheck : r.config.nonceCheck with
  | history capacity =>
    rw [hcheck] at hmem
    simp [NonceHistory.findOrAppend, hmem]
  | pendingTable => rfl

/-- What a search of the store asks of an entry. -/
lemma mayAnswer_iff (r : Relay σ κ) (interest : Packet) (c : CachedContent) :
    (!(interest.mustBeFresh && c.flags.stale) && interest.isSatisfiedBy c.packet r.digest) = true ↔
      r.MayAnswer interest c := by
  unfold MayAnswer
  rw [Bool.and_eq_true, Bool.not_eq_true', ← Bool.not_eq_true, Bool.and_eq_true]
  exact and_comm

/-- The first entry that may answer is found, in a store whose slots all have handles. -/
lemma split_of_lookupCached {r : Relay σ κ} {interest : Packet} {h : Handle}
    (hsize : r.store.entries.slots.length ≤ UInt32.size)
    (hfound : r.lookupCached interest = some h) :
    ∃ before c after, r.store.get? h = some c ∧ r.MayAnswer interest c ∧
      (∀ earlier ∈ before, ¬r.MayAnswer interest earlier) ∧
      r.store.entries.toList = before ++ c :: after ∧
      ∀ change, (r.store.modify h change).entries.toList = before ++ change c :: after := by
  obtain ⟨before, c, after, hget, hmay, hearlier, hlist, hmodify⟩ :=
    SlotTable.split_of_find? hsize hfound
  refine ⟨before, c, after, hget, (r.mayAnswer_iff interest c).mp hmay, ?_, hlist, hmodify⟩
  intro earlier hmem hanswers
  have hnot := hearlier earlier hmem
  rw [(r.mayAnswer_iff interest earlier).mpr hanswers] at hnot
  cases hnot

lemma lookupCached_eq_none_iff (r : Relay σ κ) (interest : Packet) :
    r.lookupCached interest = none ↔
      ∀ c ∈ r.store.entries.toList, ¬r.MayAnswer interest c := by
  unfold lookupCached
  rw [SlotTable.find?_eq_none]
  simp only [← Bool.not_eq_true, mayAnswer_iff]

/-! ## The three outcomes -/

lemma interestChecked_acts (r : Relay σ κ) (id : FaceId) (interest : Packet) :
    r.Acts (r.interestChecked id interest) [] :=
  (r.interestReceived_acts id).trans ((r.interestReceived id).checkNonce_acts interest)

lemma store_interestChecked (r : Relay σ κ) (id : FaceId) (interest : Packet) :
    (r.interestChecked id interest).store = r.store :=
  (r.interestReceived id).store_checkNonce interest

lemma queues_interestReceived (r : Relay σ κ) (id : FaceId) :
    (r.interestReceived id).faces.faces.map (fun f => (f.id, f.queue)) =
      r.faces.faces.map fun f => (f.id, f.queue) := by
  unfold interestReceived tally touchFace modifyFace FaceRegistry.modify
  rw [List.map_map]
  congr 1
  funext f
  dsimp only [Function.comp_apply]
  split
  · rfl
  · rfl

variable [Scheduler σ]

/-- An interest is taken if there is such a face. -/
lemma isOk_handleInterest (r : Relay σ κ) (id : FaceId) (interest : Packet) :
    (r.handleInterest id interest).1.isOk = (interest.isInterest && r.isLive id) := by
  unfold handleInterest isLive
  cases interest.isInterest with
  | false => rfl
  | true =>
    cases r.faces.get? id with
    | none => rfl
    | some f =>
      dsimp only
      split
      · simp at *
      · split
        · rfl
        · split <;> rfl

/-- What an interest that is taken leaves. -/
lemma snd_handleInterest {r : Relay σ κ} {id : FaceId} {f : Face σ}
    (hf : r.faces.get? id = some f) {interest : Packet} (hkind : interest.isInterest = true) :
    (r.handleInterest id interest).2 = (r.interestReceived f.id).takeInterest f interest := by
  obtain rfl := FaceRegistry.id_of_get? hf
  rcases r.handleInterest_cases f.id interest with ⟨hrefused, -⟩ | ⟨face, -, hface, htaken⟩
  · rw [hkind, isLive_of_get? hf] at hrefused
    cases hrefused
  · rw [hf] at hface
    cases hface
    exact htaken

lemma dropsInterest_of_seen {r : Relay σ κ} {interest : Packet} (hseen : r.SeenBefore interest)
    (f : Face σ) :
    r.DropsInterest interest ((r.interestReceived f.id).takeInterest f interest) := by
  have hdup : ((r.interestReceived f.id).checkNonce interest).1 = true :=
    (fst_checkNonce_iff _ _).mpr hseen
  have hsame : ((r.interestReceived f.id).checkNonce interest).2 = r.interestReceived f.id :=
    snd_checkNonce_of_seen hseen
  rw [takeInterest_eq]
  dsimp only
  rw [if_pos hdup, hsame]
  exact ⟨hseen, rfl, rfl, rfl, rfl, rfl, r.queues_interestReceived f.id, rfl⟩

lemma takeInterest_of_unseen {r : Relay σ κ} {interest : Packet} (hunseen : ¬r.SeenBefore interest)
    (f : Face σ) :
    (r.interestReceived f.id).takeInterest f interest =
      match r.lookupCached interest with
      | some h => (r.interestChecked f.id interest).answerFromCache f h
      | none => (r.interestChecked f.id interest).recordInterest f interest := by
  have hnew : ¬((r.interestReceived f.id).checkNonce interest).1 = true :=
    fun hdup => hunseen ((fst_checkNonce_iff (r.interestReceived f.id) interest).mp hdup)
  rw [takeInterest_eq]
  dsimp only
  rw [if_neg hnew]
  rfl

lemma answersInterest_of_cached {r : Relay σ κ} {interest : Packet}
    (hunseen : ¬r.SeenBefore interest) {f : Face σ} (hlive : r.isLive f.id = true)
    (hsize : r.store.entries.slots.length ≤ UInt32.size) {h : Handle}
    (hfound : r.lookupCached interest = some h) :
    r.AnswersInterest f interest ((r.interestReceived f.id).takeInterest f interest) := by
  obtain ⟨before, c, after, hget, hmay, hearlier, hlist, hmodify⟩ :=
    split_of_lookupCached hsize hfound
  have hreceived := r.interestChecked_acts f.id interest
  have hstore := r.store_interestChecked f.id interest
  have hacts := hreceived.trans (answerFromCache_acts (hreceived.isLive hlive) h)
  rw [takeInterest_of_unseen hunseen, hfound]
  refine ⟨hunseen, ⟨before, c, after, hlist, hearlier, hmay, ?_, ?_⟩, ?_⟩
  · dsimp only
    rw [store_answerFromCache, hstore, hmodify, hreceived.clock]
    rfl
  · rw [hstore, hget] at hacts
    have hanswer : (r.interestChecked f.id interest).answerTo f c.packet =
        r.answerTo f c.packet := by
      unfold answerTo
      rw [hreceived.delivers]
    rw [← hanswer]
    exact hacts.handings_eq
  · exact (pending_answerFromCache _ f h).trans hreceived.pending

lemma recordInterest_eq (r : Relay σ κ) (f : Face σ) (interest : Packet) :
    r.recordInterest f interest =
      let m : Relay σ κ := { r with pending := r.pendingWith f.id interest }
      match r.pending.findSame? interest with
      | some h => if f.flags.forwardAll then m.interestPropagate h else m
      | none => m.interestPropagate (r.pending.handleAt r.pending.slots.length) := by
  unfold recordInterest pendingWith
  cases r.pending.findSame? interest <;> rfl

omit [Scheduler σ] in
/-- The interest joins the one entry for its request. -/
lemma split_pendingWith_of_found {r : Relay σ κ} (hsound : r.PendingSound)
    (hsize : r.pending.slots.length ≤ UInt32.size) {interest : Packet} {h : Handle}
    (hfound : r.pending.findSame? interest = some h) (id : FaceId) :
    ∃ before old after, r.pending.toList = before ++ old :: after ∧
      (r.pendingWith id interest).toList = before ++ old.addWaiter id r.clock :: after ∧
      (r.pendingWith id interest).get? h = some (old.addWaiter id r.clock) ∧
      old.packet.request = interest.request ∧
      ∀ other ∈ before ++ after, other.packet.request ≠ interest.request := by
  obtain ⟨before, old, after, hget, hsame, -, hlist, hmodify⟩ :=
    SlotTable.split_of_find? hsize hfound
  have hrequest : old.packet.request = interest.request := (Packet.isSameInterest_iff _ _).mp hsame
  have hwith : r.pendingWith id interest =
      r.pending.modify h fun e => e.addWaiter id r.clock := by
    unfold pendingWith
    rw [hfound]
  have hothers := hsound.request_ne hlist
  rw [hrequest] at hothers
  refine ⟨before, old, after, hlist, ?_, ?_, hrequest, hothers⟩
  · rw [hwith, hmodify]
  · rw [hwith, SlotTable.get?_modify_self, hget]
    rfl

lemma recordsInterest_of_unanswered {r : Relay σ κ} {interest : Packet}
    (hunseen : ¬r.SeenBefore interest) {f : Face σ} (hsound : r.PendingSound)
    (hsize : r.pending.slots.length < UInt32.size) (hmiss : r.lookupCached interest = none) :
    r.RecordsInterest f interest ((r.interestReceived f.id).takeInterest f interest) := by
  have hreceived := r.interestChecked_acts f.id interest
  have htable : (r.interestChecked f.id interest).pendingWith f.id interest =
      r.pendingWith f.id interest := by
    unfold pendingWith lifetimeOf
    rw [hreceived.pending, hreceived.clock, hreceived.config]
  have hpending : ((r.interestReceived f.id).takeInterest f interest).pending =
      r.pendingWith f.id interest := by
    rw [takeInterest_of_unseen hunseen, hmiss]
    exact (pending_recordInterest _ f interest).trans htable
  refine ⟨hunseen, (r.lookupCached_eq_none_iff interest).mp hmiss, ?_⟩
  rw [hpending, takeInterest_of_unseen hunseen, hmiss]
  dsimp only
  rw [recordInterest_eq, htable, hreceived.pending]
  dsimp only
  cases hfound : r.pending.findSame? interest with
  | some h =>
    obtain ⟨before, old, after, hlist, hwith, hget, hrequest, hothers⟩ :=
      split_pendingWith_of_found hsound (Nat.le_of_lt hsize) hfound f.id
    refine ⟨false, h, before, _, after, hwith, hget, ?_, ?_, hothers, ⟨old, hlist, rfl⟩, ?_⟩
    · rw [PendingInterest.addWaiter_eq]
      exact hrequest
    · exact PendingInterest.mem_waiting_addWaiter.mpr (.inr rfl)
    · rw [Bool.false_or]
  | none =>
    let e : PendingInterest := .fromFace interest f.id (r.lifetimeOf interest) r.clock
    have hwith : r.pendingWith f.id interest = (r.pending.insert e).2 := by
      unfold pendingWith
      rw [hfound]
    have hothers : ∀ other ∈ r.pending.toList ++ [], other.packet.request ≠ interest.request := by
      rw [List.append_nil]
      exact (r.pending.findSame?_eq_none_iff interest).mp hfound
    rw [hwith]
    refine ⟨true, (r.pending.insert e).1, r.pending.toList, e, [], SlotTable.toList_insert _ e,
      SlotTable.get?_insert_self hsize e, rfl, List.mem_singleton_self _, hothers, ?_, rfl⟩
    exact ⟨(List.append_nil _).symm, rfl⟩

end Relay

/-- Every interest is accounted for. One that comes in on a face that is there is taken, and then it
is a duplicate and is dropped, or a cached entry answers it, or it is recorded; no two of these. An
answer is handed over once, by the queue of a peer's face or by the callback of the application, and
not at all to an application that has set no callback. The handle of an entry leads to it as long as
there is one for each slot. -/
theorem interest_is_dropped_answered_or_recorded {σ κ : Type} [Scheduler σ] [CacheStrategy κ]
    {r : Relay σ κ} (h : Reachable r) (hstore : r.store.entries.slots.length ≤ UInt32.size)
    (hpending : r.pending.slots.length < UInt32.size) {id : FaceId} {f : Face σ}
    (hf : r.faces.get? id = some f) {interest : Packet} (hkind : interest.isInterest = true) :
    (r.handleInterest id interest).1.isOk = true ∧
    (r.DropsInterest interest (r.handleInterest id interest).2 ∨
      r.AnswersInterest f interest (r.handleInterest id interest).2 ∨
      r.RecordsInterest f interest (r.handleInterest id interest).2) ∧
    ¬(r.DropsInterest interest (r.handleInterest id interest).2 ∧
      r.AnswersInterest f interest (r.handleInterest id interest).2) ∧
    ¬(r.DropsInterest interest (r.handleInterest id interest).2 ∧
      r.RecordsInterest f interest (r.handleInterest id interest).2) ∧
    ¬(r.AnswersInterest f interest (r.handleInterest id interest).2 ∧
      r.RecordsInterest f interest (r.handleInterest id interest).2) := by
  have hlive : r.isLive id = true := Relay.isLive_of_get? hf
  obtain rfl := FaceRegistry.id_of_get? hf
  refine ⟨by rw [Relay.isOk_handleInterest, hkind, hlive, Bool.and_self], ?_, ?_, ?_, ?_⟩
  · rw [Relay.snd_handleInterest hf hkind]
    by_cases hseen : r.SeenBefore interest
    · exact .inl (Relay.dropsInterest_of_seen hseen f)
    · cases hfound : r.lookupCached interest with
      | some hd => exact .inr (.inl (Relay.answersInterest_of_cached hseen hlive hstore hfound))
      | none =>
        exact .inr (.inr (Relay.recordsInterest_of_unanswered hseen h.pendingSound hpending hfound))
  · exact fun ⟨hdrops, hanswers⟩ => hanswers.not_drops hdrops
  · exact fun ⟨hdrops, hrecords⟩ => hrecords.not_drops hdrops
  · exact fun ⟨hanswers, hrecords⟩ => hanswers.not_records hrecords

/-- A peer asks for content that is in the store, and is answered from there. -/
theorem stocked_content_answers_peer :
    ∃ f, Sample.stocked.faces.get? ⟨1⟩ = some f ∧
      Sample.stocked.AnswersInterest f (Sample.interest none)
        (Sample.stocked.handleInterest ⟨1⟩ (Sample.interest none)).2 := by
  obtain ⟨f, hf⟩ : ∃ f, Sample.stocked.faces.get? ⟨1⟩ = some f :=
    Option.isSome_iff_exists.mp (by decide)
  obtain ⟨-, houtcome, -⟩ := interest_is_dropped_answered_or_recorded Sample.reachable_stocked
    (by decide) (by decide) hf (rfl : (Sample.interest none).isInterest = true)
  refine ⟨f, hf, ?_⟩
  rcases houtcome with hdrops | hanswers | hrecords
  · have hseen := (Relay.fst_checkNonce_iff _ _).mpr hdrops.seen
    exact absurd hseen (by decide)
  · exact hanswers
  · have hmiss := (Relay.lookupCached_eq_none_iff _ _).mpr hrecords.unanswered
    exact absurd hmiss (by decide)

namespace Sample

/-- The application has a face but no callback, and the store has `x`. -/
def unattended : Relay Allowance CachePolicy :=
  Operation.runAll [.getFace none none, .addToCache (content 5)] created

lemma reachable_unattended : Reachable unattended :=
  reachable_created.runAll _

end Sample

/-- The application asks for content that is in the store. The lookup finds it and counts it as
served, but there is no callback, so nobody is handed it. The interest is not dropped or recorded
either. -/
theorem application_may_be_handed_nothing :
    Reachable Sample.unattended ∧ ∃ f, Sample.unattended.faces.get? ⟨1⟩ = some f ∧
      let r' := (Sample.unattended.handleInterest ⟨1⟩ (Sample.interest none)).2
      let handed := (r'.log.drop Sample.unattended.log.length).filterMap Event.handing?
      Sample.unattended.AnswersInterest f (Sample.interest none) r' ∧ handed = [] ∧
      ¬(Sample.unattended.DropsInterest (Sample.interest none) r' ∨
        (Sample.unattended.AnswersInterest f (Sample.interest none) r' ∧ handed.length = 1) ∨
        Sample.unattended.RecordsInterest f (Sample.interest none) r') := by
  obtain ⟨f, hf⟩ : ∃ f, Sample.unattended.faces.get? ⟨1⟩ = some f :=
    Option.isSome_iff_exists.mp (by decide)
  refine ⟨Sample.reachable_unattended, f, hf, ?_⟩
  intro r' handed
  have hunseen : ¬Sample.unattended.SeenBefore (Sample.interest none) := by
    rw [← Relay.fst_checkNonce_iff]
    decide
  have hfound : Sample.unattended.lookupCached (Sample.interest none) = some ⟨0, 0⟩ := by decide
  have hlive : Sample.unattended.isLive f.id = true := by
    rw [FaceRegistry.id_of_get? hf]
    exact Relay.isLive_of_get? hf
  have htaken : r' =
      (Sample.unattended.interestReceived f.id).takeInterest f (Sample.interest none) :=
    Relay.snd_handleInterest hf rfl
  have hanswers : Sample.unattended.AnswersInterest f (Sample.interest none) r' :=
    htaken ▸ Relay.answersInterest_of_cached hunseen hlive (by decide) hfound
  have hnothing : handed = [] := by decide
  refine ⟨hanswers, hnothing, ?_⟩
  rintro (hdrops | ⟨-, honce⟩ | hrecords)
  · exact hanswers.not_drops hdrops
  · rw [hnothing] at honce
    cases honce
  · exact hanswers.not_records hrecords

end NamedRelay
