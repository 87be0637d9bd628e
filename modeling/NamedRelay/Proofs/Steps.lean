import NamedRelay.Proofs.Effects

/-!
# Steps of a relay

Each operation has one of five effects on a relay whose names all lead somewhere, and leaves a
relay whose names do. So it is along any run.
-/

namespace NamedRelay

/-- No packet is taken in, sent again or handed out. -/
def Operation.isQuiet {σ κ : Type} : Operation σ κ → Bool
  | faceEnqueue .. => false
  | receive .. => false
  | dispatch .. => false
  | handleInterest .. => false
  | expressInterest .. => false
  | handleContent .. => false
  | interestPropagate .. => false
  | interestBroadcast .. => false
  | addToCache .. => false
  | addContent .. => false
  | servePending .. => false
  | doAgeing => false
  | _ => true

namespace Relay

variable {σ κ : Type}

/-- Removes the faces one after the other. -/
def removeFaces (r : Relay σ κ) (ids : List FaceId) : Relay σ κ :=
  ids.foldl (fun r id => (r.removeFace id).2) r

lemma removeFaces_cons (r : Relay σ κ) (gone : FaceId) (ids : List FaceId) :
    r.removeFaces (gone :: ids) = (r.removeFace gone).2.removeFaces ids := rfl

/-- What a sweep leaves of the pending interests. -/
def aged (r : Relay σ κ) : Relay σ κ :=
  { r with pending := r.pending.retain (PendingInterest.age? r.config.maxRetransmits r.clock) }

/-- A sweep ages the pending interests, sends those that are left, and then removes faces. -/
def Ages (r r' : Relay σ κ) : Prop :=
  ∃ m ids handed, r.aged.KeepsFaces m ∧ m.removeFaces ids = r' ∧ r.Hands r' handed

/-- What a packet that comes in leads to. -/
inductive Takes (r : Relay σ κ) : Option Packet → Relay σ κ → Prop where
  | records {r' : Relay σ κ} : r.Records r' → r.Takes none r'
  | serves {content : Packet} {r' : Relay σ κ} : r.Serves content r' → r.Takes (some content) r'

lemma Takes.after {r m r' : Relay σ κ} {served : Option Packet} (h : r.Acts m [])
    (ht : m.Takes served r') : r.Takes served r' := by
  cases ht with
  | records hr => exact .records (hr.after h)
  | serves hs => exact .serves (hs.after h)

/-- What is set up around the relay moves nothing. -/
def Settles (r r' : Relay σ κ) : Prop :=
  r.Extends r' ∧ r.Hands r' []

lemma Settles.refl (r : Relay σ κ) : r.Settles r :=
  ⟨Extends.refl r, Hands.refl r⟩

/-- What an operation does to the tables that name faces. -/
inductive Effect [CacheStrategy κ] (r : Relay σ κ) (op : Operation σ κ) : Relay σ κ → Prop where
  | takes {r' : Relay σ κ} : r.Takes (op.served? r) r' → r.Effect op r'
  | settles {r' : Relay σ κ} : op.served? r = none → r.Settles r' → r.Effect op r'
  | removes {id : FaceId} : op.served? r = none → r.isLive id = true →
      r.Effect op (r.withoutFace id)
  | ages {r' : Relay σ κ} : op = .doAgeing → r.Ages r' → r.Effect op r'

/-! ## Packets coming in -/

section

variable [Scheduler σ] [CacheStrategy κ]

omit [Scheduler σ] [CacheStrategy κ] in
/-- It is noted that content came in on a face. -/
def contentReceived (r : Relay σ κ) (id : FaceId) : Relay σ κ :=
  (r.touchFace id r.clock).tally fun c => { c with contentsReceived := c.contentsReceived + 1 }

omit [Scheduler σ] [CacheStrategy κ] in
lemma contentReceived_acts (r : Relay σ κ) (id : FaceId) : r.Acts (r.contentReceived id) [] :=
  r.received_acts id _ (fun _ => rfl) (fun _ => rfl)

/-- Content is served, or the copy of it that is cached. -/
def answerContent (r : Relay σ κ) (content : Packet) : Relay σ κ :=
  match r.store.findExact? content.name with
  | none => r.acceptContent none content
  | some h =>
    if (r.store.get? h).any fun copy => copy.flags.stale then r.acceptContent (some h) content
    else (r.servePending h).2

lemma handleContent_of_live {r : Relay σ κ} {id : FaceId} {content : Packet}
    (hkind : content.isInterest = false) (hlive : r.isLive id = true) :
    r.handleContent id content = (.ok (), (r.contentReceived id).answerContent content) := by
  obtain ⟨f, hface⟩ := Option.isSome_iff_exists.mp hlive
  unfold handleContent
  rw [hkind, hface]
  change (match (r.contentReceived id).store.findExact? content.name with
    | none => (.ok (), (r.contentReceived id).acceptContent none content)
    | some h =>
      if ((r.contentReceived id).store.get? h).any fun copy => copy.flags.stale then
        (.ok (), (r.contentReceived id).acceptContent (some h) content)
      else (.ok (), ((r.contentReceived id).servePending h).2) : Except Error Unit × Relay σ κ) = _
  unfold answerContent
  cases (r.contentReceived id).store.findExact? content.name with
  | none => rfl
  | some h => exact (apply_ite (Prod.mk (Except.ok ())) _ _ _).symm

/-- Content is refused, or answered on a face that is there. -/
lemma handleContent_cases (r : Relay σ κ) (id : FaceId) (content : Packet) :
    ((content.isInterest || !r.isLive id) = true ∧ (r.handleContent id content).2 = r) ∨
      (content.isInterest = false ∧ r.isLive id = true ∧
        (r.handleContent id content).2 = (r.contentReceived id).answerContent content) := by
  cases hkind : content.isInterest with
  | true => exact .inl ⟨rfl, by simp [handleContent, hkind]⟩
  | false =>
    cases hlive : r.isLive id with
    | false =>
      have hface : r.faces.get? id = none := by simpa [isLive] using hlive
      exact .inl ⟨rfl, by simp [handleContent, hkind, hface]⟩
    | true => exact .inr ⟨rfl, rfl, by rw [handleContent_of_live hkind hlive]⟩

omit [CacheStrategy κ] in
lemma servePending_takes (r : Relay σ κ) (h : Handle) :
    r.Takes ((r.store.get? h).map CachedContent.packet) (r.servePending h).2 := by
  cases hget : r.store.get? h with
  | none =>
    rw [r.servePending_of_none hget]
    exact .records (Records.of_acts (Acts.refl r))
  | some copy => exact .serves (r.servePending_serves hget)

lemma answerContent_takes (r : Relay σ κ) (content : Packet) :
    r.Takes (r.answering content) (r.answerContent content) := by
  unfold answering answerContent
  cases r.store.findExact? content.name with
  | none => exact .serves (r.acceptContent_serves none content)
  | some h =>
    dsimp only
    split
    · exact .serves (r.acceptContent_serves (some h) content)
    · exact r.servePending_takes h

lemma handleContent_takes (r : Relay σ κ) (id : FaceId) (content : Packet) :
    r.Takes (r.servedFor? id content) (r.handleContent id content).2 := by
  unfold servedFor?
  rcases r.handleContent_cases id content with ⟨hrefused, hsame⟩ | ⟨hkind, hlive, hanswered⟩
  · rw [hrefused, hsame]
    exact .records (Records.of_acts (Acts.refl r))
  · rw [hkind, hlive, hanswered]
    exact Takes.after (r.contentReceived_acts id) (answerContent_takes _ content)

lemma dispatch_takes {r : Relay σ κ} (hl : r.Linked) (id : FaceId) (packet : Packet) :
    r.Takes (r.servedFor? id packet) (r.dispatch id packet).2 := by
  unfold dispatch
  split
  · rename_i hkind
    have hnone : r.servedFor? id packet = none := by
      simp [servedFor?, Packet.isInterest, hkind]
    rw [hnone]
    exact .records (handleInterest_records hl id packet)
  · exact r.handleContent_takes id packet

lemma receive_takes {r : Relay σ κ} (hl : r.Linked) (decode : Bytes → Except Error Packet)
    (interface : Nat) (peer : Address) (bytes : Bytes) :
    r.Takes ((Operation.receive decode interface peer bytes).served? r)
      (r.receive decode interface peer bytes).2 := by
  unfold receive Operation.served?
  dsimp only
  split
  · exact .records (Records.of_acts (Acts.refl r))
  · cases decode bytes with
    | error e => exact .records (Records.of_acts (Acts.refl r))
    | ok packet =>
      have hface := (r.getFace_sends (some interface) (some peer)).acts
      rcases hm : r.getFace (some interface) (some peer) with ⟨e | id, m⟩
      · rw [hm] at hface
        exact .records (Records.of_acts hface)
      · rw [hm] at hface
        exact Takes.after hface (dispatch_takes (hl.of_keeps hface.toKeepsFaces) id packet)

lemma addContent_takes (r : Relay σ κ) (content : Packet) :
    r.Takes ((Operation.addContent content : Operation σ κ).served? r)
      (r.addContent content).2 := by
  have hadded := r.addToCache_acts content
  unfold addContent Operation.served?
  dsimp only
  rcases hm : r.addToCache content with ⟨e | h, m⟩
  · rw [hm] at hadded
    exact .records (Records.of_acts hadded)
  · rw [hm] at hadded
    exact Takes.after hadded (m.servePending_takes h)

end

/-! ## Sweeps -/

section

variable [Scheduler σ]

omit [Scheduler σ] in
lemma mem_aged {r : Relay σ κ} {e' : PendingInterest} :
    e' ∈ r.aged.pending.toList ↔
      ∃ e ∈ r.pending.toList, r.isExpired e = false ∧ { e with retries := e.retries + 1 } = e' := by
  unfold aged isExpired
  simp only [SlotTable.toList_retain, List.mem_filterMap, PendingInterest.age?_eq_some]

omit [Scheduler σ] in
lemma Linked.aged {r : Relay σ κ} (hl : r.Linked) : r.aged.Linked := by
  apply hl.narrow
  intro e' he'
  obtain ⟨e, he, -, rfl⟩ := mem_aged.mp he'
  exact ⟨e, he, rfl, rfl⟩

lemma propagateAll_acts {r : Relay σ κ} (hl : r.Linked) (entries : List PendingInterest) :
    ∃ handed, r.Acts (entries.foldl propagate r) handed := by
  induction entries generalizing r with
  | nil => exact ⟨[], Acts.refl r⟩
  | cons e entries ih =>
    obtain ⟨first, hfirst⟩ := propagate_acts hl e
    obtain ⟨rest, hrest⟩ := ih (hl.of_keeps hfirst.toKeepsFaces)
    exact ⟨first ++ rest, hfirst.trans hrest⟩

omit [Scheduler σ] in
lemma removeFace_hands (r : Relay σ κ) (id : FaceId) : r.Hands (r.removeFace id).2 [] := by
  unfold removeFace
  split
  · exact Hands.refl r
  · exact { Hands.refl r with }

omit [Scheduler σ] in
lemma removeFaces_hands (r : Relay σ κ) (ids : List FaceId) :
    r.Hands (r.removeFaces ids) [] := by
  induction ids generalizing r with
  | nil => exact Hands.refl r
  | cons id ids ih => exact (r.removeFace_hands id).trans (ih _)

lemma agePending_acts {r : Relay σ κ} (hl : r.Linked) :
    ∃ handed, r.aged.Acts r.agePending handed := by
  let expired := (r.pending.toList.filter r.isExpired).length
  have hcounted := r.aged.tally_sends
    (fun c => { c with interestTimeouts := c.interestTimeouts + UInt64.ofNat expired })
    (fun _ => rfl) (fun _ => rfl)
  obtain ⟨handed, hacts⟩ := propagateAll_acts (hl.aged.of_keeps hcounted.toKeepsFaces)
    (r.pending.toList.filter fun e => !r.isExpired e)
  exact ⟨handed, hcounted.acts.trans hacts⟩

omit [Scheduler σ] in
lemma ageFaces_eq (r : Relay σ κ) : r.ageFaces = r.removeFaces
    ((r.faces.faces.filter fun f => f.isExpired r.config.faceTimeout r.clock).map Face.id) := by
  unfold ageFaces removeFaces
  rw [List.foldl_map]

lemma doAgeing_ages {r : Relay σ κ} (hl : r.Linked) : r.Ages r.doAgeing := by
  have hstore : r.Acts r.ageStore [] := Acts.of_store r _ r.strategy
  obtain ⟨handed, hacts⟩ := agePending_acts (hl.of_keeps hstore.toKeepsFaces)
  have haged : r.aged.KeepsFaces r.ageStore.aged := { KeepsFaces.refl r.aged with }
  have hhands : r.Hands r.ageStore.agePending handed :=
    hstore.toHands.trans ⟨hacts.log, hacts.interests, hacts.contents⟩
  have hfaces := r.ageStore.agePending.removeFaces_hands
    ((r.ageStore.agePending.faces.faces.filter fun f =>
      f.isExpired r.ageStore.agePending.config.faceTimeout r.ageStore.agePending.clock).map Face.id)
  unfold doAgeing
  rw [ageFaces_eq]
  exact ⟨_, _, _, haged.trans hacts.toKeepsFaces, rfl, hhands.trans hfaces⟩

end

/-! ## All operations -/

lemma addInterface_settles (r : Relay σ κ) (config : InterfaceConfig) :
    r.Settles (r.addInterface config).2 := by
  unfold addInterface
  split
  · refine ⟨{ Extends.refl r with interfaces := ?_, reached := ?_ }, { Hands.refl r with }⟩
    · simp
    · exact fun f hf _ hi => .inr ⟨f, hf, hi⟩
  · exact Settles.refl r

lemma setInterfaceScheduler_settles (r : Relay σ κ) (index : Nat) (scheduler : σ) :
    r.Settles (r.setInterfaceScheduler index scheduler).2 := by
  unfold setInterfaceScheduler
  split
  · refine ⟨{ Extends.refl r with interfaces := ?_, reached := ?_ }, { Hands.refl r with }⟩
    · simp
    · exact fun f hf _ hi => .inr ⟨f, hf, hi⟩
  · exact Settles.refl r

/-- A route may only lead to a face that is there. -/
lemma addRoute_settles (r : Relay σ κ) (name : Name) (face : FaceId) :
    r.Settles (r.addRoute name face).2 := by
  unfold addRoute
  split
  · rename_i hlive
    refine ⟨{ Extends.refl r with routes := ?_ }, { Hands.refl r with }⟩
    intro id hid
    rcases ForwardingTable.names_of_add hid with hold | rfl
    · exact .inl hold
    · exact .inr hlive
  · exact Settles.refl r

lemma addTap_settles (r : Relay σ κ) (name : Name) (tap : String) :
    r.Settles (r.addTap name tap) := by
  refine ⟨{ Extends.refl r with routes := ?_ }, { Hands.refl r with }⟩
  exact fun _ hid => .inl (ForwardingTable.names_of_addTap hid)

lemma removeRoute_settles (r : Relay σ κ) (name : Option Name) (face : Option FaceId) :
    r.Settles (r.removeRoute name face).2 := by
  unfold removeRoute
  split
  · rename_i t ht
    refine ⟨{ Extends.refl r with routes := ?_ }, { Hands.refl r with }⟩
    exact fun _ hid => .inl (ForwardingTable.names_of_remove ht hid)
  · exact Settles.refl r

lemma changeFace_keeps_place (change : FaceChange σ) (f : Face σ) :
    (change.apply f).id = f.id ∧ (change.apply f).interface = f.interface := by
  cases change with
  | flags _ => exact ⟨rfl, rfl⟩
  | touch _ => exact ⟨rfl, rfl⟩
  | scheduler _ => exact ⟨rfl, rfl⟩
  | enqueue packet =>
    have hkey := f.key_enqueue packet
    exact ⟨Face.id_eq_of_key_eq hkey, Face.interface_eq_of_key_eq hkey⟩
  | dequeue =>
    have hkey := f.key_dequeue
    exact ⟨Face.id_eq_of_key_eq hkey, Face.interface_eq_of_key_eq hkey⟩

lemma changeFace_settles (r : Relay σ κ) (id : FaceId) (change : FaceChange σ) :
    r.Settles (r.modifyFace id change.apply) := by
  refine ⟨{ Extends.refl r with live := ?_, reached := ?_ }, { Hands.refl r with }⟩
  · intro j hj
    have hget := r.faces.get?_modify
      (fun f hf => (changeFace_keeps_place change f).1.trans hf : ∀ f, f.id = id → _) j
    unfold isLive modifyFace
    rw [hget, Option.isSome_map]
    exact hj
  · intro f' hf' index hi
    obtain ⟨f, hf, rfl⟩ := List.mem_map.mp hf'
    refine .inr ⟨f, hf, ?_⟩
    split at hi
    · rw [(changeFace_keeps_place change f).2] at hi
      exact hi
    · exact hi

variable [CacheStrategy κ]

lemma Effect.of_acts {r r' : Relay σ κ} {op : Operation σ κ} (hs : op.served? r = none)
    {handed : List Handing} (h : r.Acts r' handed) : r.Effect op r' := by
  apply Effect.takes
  rw [hs]
  exact .records (Records.of_acts h)

lemma Effect.of_records {r r' : Relay σ κ} {op : Operation σ κ} (hs : op.served? r = none)
    (h : r.Records r') : r.Effect op r' := by
  apply Effect.takes
  rw [hs]
  exact .records h

variable [Scheduler σ]

omit [CacheStrategy κ] [Scheduler σ] in
lemma Acts.settles {r r' : Relay σ κ} (h : r.Acts r' []) : r.Settles r' :=
  ⟨h.toKeepsFaces.extends, h.toHands⟩

/-- A quiet operation moves nothing, unless it removes a face. -/
lemma settles_run_of_quiet (r : Relay σ κ) {op : Operation σ κ} (hquiet : op.isQuiet = true)
    (hstay : ∀ id, op ≠ .removeFace id) : r.Settles (op.run r) := by
  cases op with
  | setClock ms => exact ⟨{ Extends.refl r with }, { Hands.refl r with }⟩
  | advance ms => exact ⟨{ Extends.refl r with }, { Hands.refl r with }⟩
  | setStrategy strategy => exact ⟨{ Extends.refl r with }, { Hands.refl r with }⟩
  | setSchedulerFor schedulerFor => exact ⟨{ Extends.refl r with }, { Hands.refl r with }⟩
  | setDelivers => exact ⟨{ Extends.refl r with }, { Hands.refl r with }⟩
  | addInterface config => exact r.addInterface_settles config
  | setInterfaceScheduler index scheduler => exact r.setInterfaceScheduler_settles index scheduler
  | interfaceEnqueue index face packet destination =>
    exact (r.interfaceEnqueue_sends index face packet destination).acts.settles
  | interfaceClearToSend index => exact (r.interfaceClearToSend_sends index).acts.settles
  | transmitAll => exact r.transmitAll_sends.acts.settles
  | getFace interface peer => exact (r.getFace_sends interface peer).acts.settles
  | changeFace id change => exact r.changeFace_settles id change
  | removeFace id => exact absurd rfl (hstay id)
  | faceDequeue id => exact (r.faceDequeue_sends id).acts.settles
  | faceClearToSend id => exact (r.faceClearToSend_sends id).acts.settles
  | addRoute name face => exact r.addRoute_settles name face
  | addTap name tap => exact r.addTap_settles name tap
  | removeRoute name face => exact r.removeRoute_settles name face
  | checkNonce packet => exact (r.checkNonce_acts packet).settles
  | removeCached path => exact (r.removeCached_acts path).settles
  | _ => cases hquiet

lemma hands_run_of_quiet (r : Relay σ κ) {op : Operation σ κ} (hquiet : op.isQuiet = true) :
    r.Hands (op.run r) [] := by
  cases op with
  | removeFace id => exact r.removeFace_hands id
  | _ => exact (r.settles_run_of_quiet hquiet nofun).2

/-- Each operation has one of the five effects. -/
theorem effect_run {r : Relay σ κ} (hl : r.Linked) (op : Operation σ κ) :
    r.Effect op (op.run r) := by
  cases op with
  | removeFace id =>
    change r.Effect _ (r.removeFace id).2
    by_cases hlive : r.isLive id = true
    · rw [removeFace_of_live hlive]
      exact .removes rfl hlive
    · rw [removeFace_of_not_live hlive]
      exact .of_acts rfl (Acts.refl r)
  | faceEnqueue id packet => exact .of_acts rfl (r.faceEnqueue_sends id packet).acts
  | receive decode interface peer bytes =>
    exact .takes (receive_takes hl decode interface peer bytes)
  | dispatch id packet => exact .takes (dispatch_takes hl id packet)
  | handleInterest id interest => exact .of_records rfl (handleInterest_records hl id interest)
  | expressInterest interest => exact .of_records rfl (expressInterest_records hl interest)
  | handleContent id content => exact .takes (r.handleContent_takes id content)
  | interestPropagate h =>
    obtain ⟨handed, hacts⟩ := interestPropagate_acts hl h
    exact .of_acts rfl hacts
  | interestBroadcast h =>
    obtain ⟨handed, hacts⟩ := r.interestBroadcast_acts h
    exact .of_acts rfl hacts
  | addToCache content => exact .of_acts rfl (r.addToCache_acts content)
  | addContent content => exact .takes (r.addContent_takes content)
  | servePending h => exact .takes (r.servePending_takes h)
  | doAgeing => exact .ages rfl (doAgeing_ages hl)
  | _ => exact .settles rfl (r.settles_run_of_quiet rfl nofun)

/-! ## Links along a run -/

section

omit [CacheStrategy κ] [Scheduler σ]

lemma Linked.records {r r' : Relay σ κ} (hl : r.Linked) (h : r.Records r') : r'.Linked := by
  obtain ⟨m, t, handed, hm, hg, hk, -⟩ := h
  exact ((hl.of_keeps hm).grows hg).of_keeps hk

lemma Linked.serves {r r' : Relay σ κ} {content : Packet} (hl : r.Linked)
    (h : r.Serves content r') : r'.Linked := by
  obtain ⟨m, hm, hk, -⟩ := h
  exact ((hl.of_keeps hm).withoutSatisfied content).of_keeps hk

lemma Linked.takes {r r' : Relay σ κ} {served : Option Packet} (hl : r.Linked)
    (h : r.Takes served r') : r'.Linked := by
  cases h with
  | records hr => exact hl.records hr
  | serves hs => exact hl.serves hs

lemma Takes.hands {r r' : Relay σ κ} {served : Option Packet} (h : r.Takes served r') :
    ∃ handed, r.Hands r' handed := by
  cases h with
  | records hr =>
    obtain ⟨_, _, handed, _, _, _, hh⟩ := hr
    exact ⟨handed, hh⟩
  | serves hs =>
    obtain ⟨_, _, _, hh⟩ := hs
    exact ⟨_, hh⟩

lemma Linked.removeFaces {r : Relay σ κ} (hl : r.Linked) (ids : List FaceId) :
    (r.removeFaces ids).Linked := by
  induction ids generalizing r with
  | nil => exact hl
  | cons id ids ih => exact ih (hl.removeFace id)

lemma Linked.ages {r r' : Relay σ κ} (hl : r.Linked) (h : r.Ages r') : r'.Linked := by
  obtain ⟨m, ids, handed, hm, rfl, -⟩ := h
  exact (hl.aged.of_keeps hm).removeFaces ids

end

omit [Scheduler σ] in
lemma Linked.effect {r r' : Relay σ κ} {op : Operation σ κ} (hl : r.Linked)
    (h : r.Effect op r') : r'.Linked := by
  cases h with
  | takes ht => exact hl.takes ht
  | settles _ hs => exact hl.of_extends hs.1
  | removes _ _ => exact hl.withoutFace _
  | ages _ ha => exact hl.ages ha

omit [Scheduler σ] in
lemma Effect.hands {r r' : Relay σ κ} {op : Operation σ κ} (h : r.Effect op r') :
    ∃ handed, r.Hands r' handed := by
  cases h with
  | takes ht => exact ht.hands
  | settles _ hs => exact ⟨_, hs.2⟩
  | removes _ _ => exact ⟨_, { Hands.refl r with }⟩
  | ages _ ha =>
    obtain ⟨_, _, handed, _, _, hh⟩ := ha
    exact ⟨handed, hh⟩

end Relay

variable {σ κ : Type} [Scheduler σ] [CacheStrategy κ]

lemma Reachable.linked {r : Relay σ κ} (h : Reachable r) : r.Linked := by
  induction h with
  | create config clock digest hnew =>
    unfold Relay.create at hnew
    split at hnew
    · cases hnew
    · cases hnew
      exact ⟨by rintro _ ⟨_, ⟨⟩, _⟩, by rintro _ ⟨⟩, by rintro _ ⟨⟩, by rintro _ ⟨⟩⟩
  | run op _ ih => exact ih.effect (Relay.effect_run ih op)

end NamedRelay
