import NamedRelay.Proofs.Coherence
import NamedRelay.Proofs.LiveFaces
import NamedRelay.Proofs.ServingPass

/-!
# Fresh content for those who insist on it

Where the packet of an answer is taken from. An interest that comes in and insists on fresh content
gets no stale copy, and content that comes in is not answered by one. Serving a cached entry by its
handle asks nobody whether the entry is stale.
-/

namespace NamedRelay

/-- If this is an answer, it carries the packet. -/
def Handing.Answers (packet : Option Packet) : Handing → Prop
  | face _ .reply wire => packet.map Packet.wire = some wire
  | face _ _ _ => True
  | application _ content => packet = some content

/-- If this is an interest, it is the wire of one of the packets. -/
def Handing.Asks (asked : Packet → Prop) : Handing → Prop
  | face _ .interest wire => ∃ packet, asked packet ∧ packet.wire = wire
  | _ => True

namespace Relay

variable {σ κ : Type}

def AllPending (r : Relay σ κ) (asked : Packet → Prop) : Prop :=
  ∀ e ∈ r.pending.toList, asked e.packet

lemma AllPending.narrows {asked : Packet → Prop} {r r' : Relay σ κ} (hp : r.AllPending asked)
    (h : r.Narrows r') : r'.AllPending asked := by
  intro e' he'
  obtain ⟨e, he, hpacket⟩ := h.pending e' he'
  exact hpacket ▸ hp e he

/-- All interests handed out are among those asked for, all answers carry the packet, and without a
packet there are none. -/
def Yields (r r' : Relay σ κ) (asked : Packet → Prop) (answer : Option Packet) : Prop :=
  ∃ handed, r.Hands r' handed ∧ ∀ h ∈ handed, h.Asks asked ∧ h.Answers answer

variable {asked : Packet → Prop} {answer : Option Packet}

namespace Yields

lemma of_hands {r r' : Relay σ κ} (h : r.Hands r' []) : r.Yields r' asked answer :=
  ⟨[], h, List.forall_mem_nil _⟩

lemma refl (r : Relay σ κ) : r.Yields r asked answer :=
  of_hands (Hands.refl r)

lemma trans {r r' r'' : Relay σ κ} (h : r.Yields r' asked answer)
    (h' : r'.Yields r'' asked answer) : r.Yields r'' asked answer := by
  obtain ⟨handed, hh, ha⟩ := h
  obtain ⟨handed', hh', ha'⟩ := h'
  refine ⟨handed ++ handed', hh.trans hh', ?_⟩
  intro x hx
  rcases List.mem_append.mp hx with hx | hx
  · exact ha x hx
  · exact ha' x hx

lemma of_withPending {r r' : Relay σ κ} {t : PendingTable}
    (h : ({ r with pending := t } : Relay σ κ).Yields r' asked answer) :
    r.Yields r' asked answer := by
  obtain ⟨handed, hh, ha⟩ := h
  exact ⟨handed, hh.of_withPending, ha⟩

end Yields

lemma answers_of_mem_answers {r : Relay σ κ} {content : Packet} {x : Handing}
    (hx : x ∈ r.answers content) : x.Answers (some content) := by
  rcases eq_of_mem_answers hx with ⟨id, rfl⟩ | ⟨id, rfl⟩
  · rfl
  · rfl

lemma answers_of_mem_answerTo {r : Relay σ κ} {f : Face σ} {content : Packet} {x : Handing}
    (hx : x ∈ r.answerTo f content) : x.Answers (some content) := by
  rcases eq_of_mem_answerTo hx with rfl | rfl
  · rfl
  · rfl

lemma Serves.yields {r r' : Relay σ κ} {content : Packet} (h : r.Serves content r') :
    r.Yields r' asked (some content) := by
  obtain ⟨m, -, -, hh⟩ := h
  refine ⟨_, hh, fun x hx => ⟨?_, answers_of_mem_answers hx⟩⟩
  rcases eq_of_mem_answers hx with ⟨id, rfl⟩ | ⟨id, rfl⟩
  · trivial
  · trivial

/-! ## Sending interests -/

section

variable [Scheduler σ]

lemma propagate_yields {r : Relay σ κ} (hl : r.Linked) {e : PendingInterest}
    (he : asked e.packet) : r.Yields (r.propagate e) asked answer := by
  obtain ⟨others, hsends, hothers, -⟩ := r.propagate_sends e (hl.targets e)
  refine ⟨_, hsends.toHands, ?_⟩
  intro x hx
  rcases List.mem_append.mp hx with hx | hx
  · obtain ⟨id, -, rfl⟩ := List.mem_map.mp hx
    exact ⟨⟨e.packet, he, rfl⟩, trivial⟩
  · obtain ⟨id, rfl⟩ := hothers x hx
    exact ⟨⟨e.packet, he, rfl⟩, trivial⟩

lemma interestPropagate_yields {r : Relay σ κ} (hl : r.Linked) (hp : r.AllPending asked)
    (h : Handle) : r.Yields (r.interestPropagate h) asked answer := by
  unfold interestPropagate
  split
  · rename_i e hget
    exact propagate_yields hl (hp e (SlotTable.mem_of_get? hget))
  · exact .refl r

lemma interestBroadcast_yields {r : Relay σ κ} (hp : r.AllPending asked) (h : Handle) :
    r.Yields (r.interestBroadcast h) asked answer := by
  unfold interestBroadcast
  split
  · rename_i e hget
    obtain ⟨handed, hsends, hothers⟩ := r.broadcast_sends e.packet.wire e.packet.suite
    refine ⟨handed, hsends.toHands, ?_⟩
    intro x hx
    obtain ⟨id, rfl⟩ := hothers x hx
    exact ⟨⟨e.packet, hp e (SlotTable.mem_of_get? hget), rfl⟩, trivial⟩
  · exact .refl r

lemma propagateAll_yields {r : Relay σ κ} (hl : r.Linked) {entries : List PendingInterest}
    (hentries : ∀ e ∈ entries, asked e.packet) :
    r.Yields (entries.foldl propagate r) asked answer := by
  induction entries generalizing r with
  | nil => exact .refl r
  | cons e entries ih =>
    obtain ⟨he, hrest⟩ := List.forall_mem_cons.mp hentries
    exact (propagate_yields hl he).trans (ih (hl.of_keeps (r.propagate_keeps e).toKeepsFaces) hrest)

lemma doAgeing_yields {r : Relay σ κ} (hl : r.Linked) (hp : r.AllPending asked) :
    r.Yields r.doAgeing asked answer := by
  have hswept : r.Hands r.swept [] := .of_log (List.append_nil r.log).symm rfl rfl rfl
  have hresent : ∀ e ∈ r.resent, asked e.packet := fun e he => hp e (List.mem_filter.mp he).1
  have hsent : r.Yields r.ageStore.agePending asked answer :=
    (Yields.of_hands hswept).trans (propagateAll_yields hl.swept hresent)
  unfold doAgeing
  rw [ageFaces_eq]
  exact hsent.trans (.of_hands (removeFaces_hands _ _))

lemma openPending_yields {r : Relay σ κ} (hl : r.Linked) (hp : r.AllPending asked)
    {e : PendingInterest} (hg : r.Grows (r.pending.insert e).2) (he : asked e.packet) :
    r.Yields (r.openPending e) asked answer := by
  have hopened : ({ r with pending := (r.pending.insert e).2 } : Relay σ κ).AllPending asked := by
    intro e' he'
    rcases SlotTable.mem_insert.mp he' with hold | rfl
    · exact hp e' hold
    · exact he
  exact .of_withPending (interestPropagate_yields (hl.grows hg) hopened (r.pending.insert e).1)

lemma recordInterest_yields {r : Relay σ κ} (hl : r.Linked) (hp : r.AllPending asked)
    {face : Face σ} (hlive : r.isLive face.id = true) {interest : Packet} (hi : asked interest) :
    r.Yields (r.recordInterest face interest) asked answer := by
  unfold recordInterest
  split
  · rename_i h _
    have hg : r.Grows (r.pending.modify h fun e => e.addWaiter face.id r.clock) := .joined h hlive
    have hjoined := hp.narrows (r.addWaiter_narrows h face.id)
    dsimp only
    split
    · exact .of_withPending (interestPropagate_yields (hl.grows hg) hjoined h)
    · exact .of_withPending (.refl _)
  · rename_i hnew
    exact openPending_yields hl hp (.opened hnew hlive) hi

lemma recordOwn_yields {r : Relay σ κ} (hl : r.Linked) (hp : r.AllPending asked)
    {interest : Packet} (hi : asked interest) :
    r.Yields (r.recordOwn interest) asked answer := by
  unfold recordOwn
  split
  · exact .of_withPending (.refl _)
  · rename_i hnew
    exact openPending_yields hl hp (.openedOwn hnew) hi

end

/-! ## Where answers are taken from -/

/-- The cached entry that answers an interest, unless the interest is dropped as a duplicate. -/
def hit? (r : Relay σ κ) (interest : Packet) : Option CachedContent :=
  if (r.checkNonce interest).1 then none else (r.lookupCached interest).bind r.store.get?

/-- The cached entry that answers when a packet comes in on a face: for content, the copy of its
name that is not stale. -/
def sourceFor? (r : Relay σ κ) (id : FaceId) (packet : Packet) : Option CachedContent :=
  if !r.isLive id then none
  else if packet.isInterest then r.hit? packet
  else ((r.store.findExact? packet.name).bind r.store.get?).filter fun c => !c.flags.stale

end Relay

namespace Operation

variable {σ κ : Type}

/-- The cached entry that an operation answers from. -/
def source? [CacheStrategy κ] : Operation σ κ → Relay σ κ → Option CachedContent
  | receive decode interface peer bytes, r =>
    if maxPacketBytes < bytes.length then none
    else match decode bytes, r.getFace (some interface) (some peer) with
      | .ok packet, (.ok id, r) => r.sourceFor? id packet
      | _, _ => none
  | dispatch id packet, r => r.sourceFor? id packet
  | handleInterest id interest, r =>
    if interest.isInterest then r.sourceFor? id interest else none
  | expressInterest interest, r => if interest.isInterest then r.hit? interest else none
  | handleContent id content, r => if content.isInterest then none else r.sourceFor? id content
  | addContent content, r =>
    match r.addToCache content with
    | (.ok h, r) => r.store.get? h
    | (.error _, _) => none
  | servePending h, r => r.store.get? h
  | _, _ => none

/-- The packet that an operation answers with: of a cached entry, or else the content served. -/
def answer? [CacheStrategy κ] (op : Operation σ κ) (r : Relay σ κ) : Option Packet :=
  ((op.source? r).map CachedContent.packet).or (op.served? r)

end Operation

namespace Relay

variable {σ κ : Type}

/-- Only an interest that does not insist is answered from a stale entry. -/
lemma not_mustBeFresh_of_hit? {r : Relay σ κ}
    (hsize : r.store.entries.slots.length ≤ UInt32.size) {interest : Packet} {c : CachedContent}
    (hit : r.hit? interest = some c) (hstale : c.flags.stale = true) :
    interest.mustBeFresh = false := by
  unfold hit? at hit
  split at hit
  · cases hit
  · obtain ⟨h, hlookup, hget⟩ := Option.bind_eq_some_iff.mp hit
    obtain ⟨c', hget', hp⟩ := SlotTable.get?_of_find? hsize hlookup
    obtain rfl : c' = c := Option.some.inj (hget'.symm.trans hget)
    simp only [hstale, Bool.and_true, Bool.and_eq_true, Bool.not_eq_true'] at hp
    exact hp.1

lemma not_mustBeFresh_of_sourceFor? {r : Relay σ κ}
    (hsize : r.store.entries.slots.length ≤ UInt32.size) {id : FaceId} {packet : Packet}
    {c : CachedContent} (hc : r.sourceFor? id packet = some c) (hstale : c.flags.stale = true) :
    packet.isInterest = true ∧ packet.mustBeFresh = false := by
  unfold sourceFor? at hc
  split at hc
  · cases hc
  · split at hc
    · rename_i hkind
      exact ⟨hkind, not_mustBeFresh_of_hit? hsize hc hstale⟩
    · simp [Option.filter_eq_some_iff, hstale] at hc

lemma mem_of_hit? {r : Relay σ κ} {interest : Packet} {c : CachedContent}
    (hit : r.hit? interest = some c) : c ∈ r.store.entries.toList := by
  unfold hit? at hit
  split at hit
  · cases hit
  · obtain ⟨h, -, hget⟩ := Option.bind_eq_some_iff.mp hit
    exact SlotTable.mem_of_get? hget

lemma mem_of_sourceFor? {r : Relay σ κ} {id : FaceId} {packet : Packet} {c : CachedContent}
    (hc : r.sourceFor? id packet = some c) : c ∈ r.store.entries.toList := by
  unfold sourceFor? at hc
  split at hc
  · cases hc
  · split at hc
    · exact mem_of_hit? hc
    · obtain ⟨hfound, -⟩ := Option.filter_eq_some_iff.mp hc
      obtain ⟨h, -, hget⟩ := Option.bind_eq_some_iff.mp hfound
      exact SlotTable.mem_of_get? hget

/-! ## Answers of each operation -/

section

variable [Scheduler σ] {asked : Packet → Prop}

lemma takeInterest_yields {r : Relay σ κ} (hl : r.Linked) (hp : r.AllPending asked)
    {face : Face σ} (hlive : r.isLive face.id = true) {interest : Packet} (hi : asked interest) :
    r.Yields (r.takeInterest face interest) asked
      ((r.hit? interest).map CachedContent.packet) := by
  have hchecked := r.checkNonce_acts interest
  have hp' := hp.narrows (r.checkNonce_narrows interest)
  have hlive' := hchecked.isLive hlive
  refine (Yields.of_hands hchecked.toHands).trans ?_
  rw [takeInterest_eq]
  unfold hit?
  dsimp only
  rw [← r.store_checkNonce interest]
  cases (r.checkNonce interest).1 with
  | true => exact .of_hands (dropDuplicate_acts _).toHands
  | false =>
    cases r.lookupCached interest with
    | none => exact recordInterest_yields (hl.of_keeps hchecked.toKeepsFaces) hp' hlive' hi
    | some h =>
      refine ⟨_, (answerFromCache_acts hlive' h).toHands, ?_⟩
      rw [if_neg Bool.false_ne_true, Option.bind_some]
      cases (r.checkNonce interest).2.store.get? h with
      | none => exact List.forall_mem_nil _
      | some c =>
        refine fun x hx => ⟨?_, answers_of_mem_answerTo hx⟩
        rcases eq_of_mem_answerTo hx with rfl | rfl
        · trivial
        · trivial

lemma handleInterest_yields {r : Relay σ κ} (hl : r.Linked) (hp : r.AllPending asked) (id : FaceId)
    {interest : Packet} (hi : interest.isInterest = true → asked interest) :
    r.Yields (r.handleInterest id interest).2 asked
      ((if interest.isInterest then r.sourceFor? id interest else none).map
        CachedContent.packet) := by
  rcases r.handleInterest_cases id interest with ⟨-, hsame⟩ | ⟨face, hkind, hface, htaken⟩
  · rw [hsame]
    exact .refl r
  · have hlive : r.isLive id = true := isLive_of_get? hface
    obtain rfl := FaceRegistry.id_of_get? hface
    have hreceived := r.interestReceived_acts face.id
    have hp' : (r.interestReceived face.id).AllPending asked := hp
    have hhit : (r.interestReceived face.id).hit? interest = r.hit? interest := by
      unfold hit?
      rw [checkNonce_interestReceived]
      rfl
    have hanswered := takeInterest_yields (hl.of_keeps hreceived.toKeepsFaces) hp'
      (hreceived.isLive hlive) (hi hkind)
    rw [hhit] at hanswered
    unfold sourceFor?
    rw [htaken, hlive, hkind]
    exact (Yields.of_hands hreceived.toHands).trans hanswered

lemma expressInterest_yields {r : Relay σ κ} (hl : r.Linked) (hp : r.AllPending asked)
    {interest : Packet} (hi : interest.isInterest = true → asked interest) :
    r.Yields (r.expressInterest interest).2 asked
      ((if interest.isInterest then r.hit? interest else none).map CachedContent.packet) := by
  cases hkind : interest.isInterest with
  | false =>
    rw [r.expressInterest_of_content hkind]
    exact .refl r
  | true =>
    have hchecked := r.checkNonce_acts interest
    have hp' := hp.narrows (r.checkNonce_narrows interest)
    refine (Yields.of_hands hchecked.toHands).trans ?_
    rw [if_pos rfl, r.expressInterest_eq hkind]
    unfold hit?
    dsimp only
    rw [← r.store_checkNonce interest]
    cases (r.checkNonce interest).1 with
    | true => exact .of_hands (dropDuplicate_acts _).toHands
    | false =>
      cases r.lookupCached interest with
      | none => exact recordOwn_yields (hl.of_keeps hchecked.toKeepsFaces) hp' (hi hkind)
      | some h =>
        refine ⟨_, (answerOwn_acts _ h).toHands, ?_⟩
        rw [if_neg Bool.false_ne_true, Option.bind_some]
        cases (r.checkNonce interest).2.store.get? h with
        | none => exact List.forall_mem_nil _
        | some c =>
          intro x hx
          rw [Option.elim_some] at hx
          split at hx
          · rw [List.mem_singleton.mp hx]
            exact ⟨trivial, rfl⟩
          · cases hx

lemma servePending_yields (r : Relay σ κ) (h : Handle) :
    r.Yields (r.servePending h).2 asked ((r.store.get? h).map CachedContent.packet) := by
  cases hget : r.store.get? h with
  | none =>
    rw [r.servePending_of_none hget]
    exact .refl r
  | some c => exact (r.servePending_serves hget).yields

variable [CacheStrategy κ]

lemma answerContent_yields (r : Relay σ κ) (content : Packet) :
    r.Yields (r.answerContent content) asked (r.answering content) := by
  unfold answering answerContent
  cases r.store.findExact? content.name with
  | none => exact (r.acceptContent_serves none content).yields
  | some h =>
    dsimp only
    split
    · exact (r.acceptContent_serves (some h) content).yields
    · exact r.servePending_yields h

lemma handleContent_yields (r : Relay σ κ) (id : FaceId) (content : Packet) :
    r.Yields (r.handleContent id content).2 asked (r.servedFor? id content) := by
  rcases r.handleContent_cases id content with ⟨-, hsame⟩ | ⟨hkind, hlive, hanswered⟩
  · rw [hsame]
    exact .refl r
  · unfold servedFor?
    rw [hanswered, hlive, hkind]
    exact (Yields.of_hands (r.contentReceived_acts id).toHands).trans
      (answerContent_yields _ content)

omit [Scheduler σ] [CacheStrategy κ] in
/-- The packet of the cached entry that answers content in its place is the one served. -/
lemma servedFor?_of_sourceFor? {r : Relay σ κ} {id : FaceId} {content : Packet}
    (hkind : content.isInterest = false) {c : CachedContent}
    (hc : r.sourceFor? id content = some c) : r.servedFor? id content = some c.packet := by
  unfold sourceFor? at hc
  unfold servedFor? answering
  cases hlive : r.isLive id with
  | false => simp [hlive] at hc
  | true =>
    simp only [hlive, hkind, Bool.not_true, Bool.false_eq_true, ite_false,
      Option.filter_eq_some_iff, Option.bind_eq_some_iff] at hc
    obtain ⟨⟨h, hfind, hget⟩, hfresh⟩ := hc
    have hstale : c.flags.stale = false := by simpa using hfresh
    simp [hkind, hfind, hget, hstale]

/-- The packet that answers when one comes in on a face. -/
def answerFor? (r : Relay σ κ) (id : FaceId) (packet : Packet) : Option Packet :=
  ((r.sourceFor? id packet).map CachedContent.packet).or (r.servedFor? id packet)

omit [Scheduler σ] [CacheStrategy κ] in
lemma answerFor?_of_interest {r : Relay σ κ} {id : FaceId} {packet : Packet}
    (hkind : packet.isInterest = true) :
    r.answerFor? id packet = (r.sourceFor? id packet).map CachedContent.packet := by
  simp [answerFor?, servedFor?, hkind]

omit [Scheduler σ] [CacheStrategy κ] in
lemma answerFor?_of_content {r : Relay σ κ} {id : FaceId} {packet : Packet}
    (hkind : packet.isInterest = false) : r.answerFor? id packet = r.servedFor? id packet := by
  unfold answerFor?
  cases hc : r.sourceFor? id packet with
  | none => rfl
  | some c => rw [servedFor?_of_sourceFor? hkind hc, Option.map_some, Option.some_or]

lemma dispatch_yields {r : Relay σ κ} (hl : r.Linked) (hp : r.AllPending asked) (id : FaceId)
    {packet : Packet} (hi : packet.isInterest = true → asked packet) :
    r.Yields (r.dispatch id packet).2 asked (r.answerFor? id packet) := by
  unfold dispatch
  split
  · rename_i hkind
    have hinterest : packet.isInterest = true := by simp [Packet.isInterest, hkind]
    have hanswered := handleInterest_yields hl hp id hi
    rw [if_pos hinterest] at hanswered
    rwa [answerFor?_of_interest hinterest]
  · rename_i hkind
    have hcontent : packet.isInterest = false := by simp [Packet.isInterest, hkind]
    rw [answerFor?_of_content hcontent]
    exact r.handleContent_yields id packet

lemma receive_yields {r : Relay σ κ} (hl : r.Linked) (hp : r.AllPending asked)
    {decode : Bytes → Except Error Packet} (interface : Nat) (peer : Address) {bytes : Bytes}
    (hi : ∀ packet, decode bytes = .ok packet → packet.isInterest = true → asked packet) :
    r.Yields (r.receive decode interface peer bytes).2 asked
      ((Operation.receive decode interface peer bytes).answer? r) := by
  unfold receive Operation.answer? Operation.source? Operation.served?
  dsimp only
  split
  · exact .refl r
  · cases hdecode : decode bytes with
    | error e => exact .refl r
    | ok packet =>
      have hface := r.getFace_sends (some interface) (some peer)
      rcases hm : r.getFace (some interface) (some peer) with ⟨e | id, m⟩
      · rw [hm] at hface
        exact .of_hands hface.toHands
      · rw [hm] at hface
        exact (Yields.of_hands hface.toHands).trans
          (dispatch_yields (hl.of_keeps hface.toKeepsFaces) (hp.narrows (.of_keeps hface.toKeeps))
            id (hi packet hdecode))

lemma addContent_yields (r : Relay σ κ) (content : Packet) :
    r.Yields (r.addContent content).2 asked
      ((Operation.addContent content : Operation σ κ).answer? r) := by
  have hadded := r.addToCache_acts content
  unfold addContent Operation.answer? Operation.source? Operation.served?
  dsimp only
  rcases hm : r.addToCache content with ⟨e | h, m⟩
  · rw [hm] at hadded
    exact .of_hands hadded.toHands
  · rw [hm] at hadded
    simp only [Option.or_self]
    exact (Yields.of_hands hadded.toHands).trans (m.servePending_yields h)

omit [Scheduler σ] in
lemma answer?_handleInterest (r : Relay σ κ) (id : FaceId) (interest : Packet) :
    (Operation.handleInterest id interest).answer? r =
      (if interest.isInterest then r.sourceFor? id interest else none).map
        CachedContent.packet := by
  simp [Operation.answer?, Operation.source?, Operation.served?]

omit [Scheduler σ] in
lemma answer?_expressInterest (r : Relay σ κ) (interest : Packet) :
    (Operation.expressInterest interest).answer? r =
      (if interest.isInterest then r.hit? interest else none).map CachedContent.packet := by
  simp [Operation.answer?, Operation.source?, Operation.served?]

omit [Scheduler σ] in
lemma answer?_handleContent (r : Relay σ κ) (id : FaceId) (content : Packet) :
    (Operation.handleContent id content).answer? r = r.servedFor? id content := by
  cases hkind : content.isInterest with
  | true => simp [Operation.answer?, Operation.source?, Operation.served?, servedFor?, hkind]
  | false =>
    rw [← answerFor?_of_content hkind]
    simp [Operation.answer?, Operation.source?, Operation.served?, answerFor?, hkind]

omit [Scheduler σ] in
lemma answer?_servePending (r : Relay σ κ) (h : Handle) :
    (Operation.servePending h).answer? r = (r.store.get? h).map CachedContent.packet := by
  simp [Operation.answer?, Operation.source?, Operation.served?]

/-- Whatever an operation hands out in answer carries the packet of the entry it answers from, or
the content it serves. The interests it sends are such as are pending or come in. -/
lemma run_yields {r : Relay σ κ} (hl : r.Linked) (hp : r.AllPending asked) {op : Operation σ κ}
    (hi : ∀ packet, op.asks? = some packet → packet.isInterest = true → asked packet) :
    r.Yields (op.run r) asked (op.answer? r) := by
  cases op with
  | faceEnqueue id packet =>
    refine ⟨_, (r.faceEnqueue_sends id packet).toHands, ?_⟩
    intro x hx
    split at hx
    · rw [List.mem_singleton.mp hx]
      exact ⟨trivial, trivial⟩
    · cases hx
  | receive decode interface peer bytes =>
    refine receive_yields hl hp interface peer fun packet hdecode hkind => ?_
    exact hi packet (by simp [Operation.asks?, hdecode, Except.toOption, hkind]) hkind
  | dispatch id packet =>
    refine dispatch_yields hl hp id fun hkind => ?_
    exact hi packet (by simp [Operation.asks?, hkind]) hkind
  | handleInterest id interest =>
    rw [answer?_handleInterest]
    exact handleInterest_yields hl hp id (hi interest rfl)
  | expressInterest interest =>
    rw [answer?_expressInterest]
    exact expressInterest_yields hl hp (hi interest rfl)
  | handleContent id content =>
    rw [answer?_handleContent]
    exact r.handleContent_yields id content
  | interestPropagate h => exact interestPropagate_yields hl hp h
  | interestBroadcast h => exact interestBroadcast_yields hp h
  | addToCache content => exact .of_hands (r.addToCache_acts content).toHands
  | addContent content => exact r.addContent_yields content
  | servePending h =>
    rw [answer?_servePending]
    exact r.servePending_yields h
  | doAgeing => exact doAgeing_yields hl hp
  | _ => exact .of_hands (r.hands_run_of_quiet rfl)

lemma run_yields_any {r : Relay σ κ} (hl : r.Linked) (op : Operation σ κ) :
    r.Yields (op.run r) (fun _ => True) (op.answer? r) :=
  run_yields hl (fun _ _ => trivial) fun _ _ _ => trivial

end

end Relay

namespace Operation

variable {σ κ : Type} [CacheStrategy κ] {r : Relay σ κ}

lemma source?_addContent (hκ : CacheStrategy.OnlyRemoves κ)
    (hsize : r.store.entries.slots.length < UInt32.size) {content : Packet} {c : CachedContent}
    (hc : (addContent content : Operation σ κ).source? r = some c) :
    c = { packet := content, lastUsed := r.clock } := by
  simp only [source?] at hc
  rcases Relay.addToCache_cases hκ hsize content with ⟨h, hadded, hentry⟩ | ⟨⟨e, hadded⟩, -⟩
  · rw [hadded] at hc
    exact Option.some.inj (hc.symm.trans hentry)
  · rw [hadded] at hc
    cases hc

/-- What answers a packet that comes in from a peer is what answers it on the face of the peer. -/
lemma source?_receive {decode : Bytes → Except Error Packet} {interface : Nat}
    {peer : Address} {bytes : Bytes} {c : CachedContent}
    (hc : (receive decode interface peer bytes : Operation σ κ).source? r = some c) :
    ∃ packet id m, decode bytes = .ok packet ∧
      r.getFace (some interface) (some peer) = (.ok id, m) ∧
      m.sourceFor? id packet = some c := by
  simp only [source?] at hc
  split at hc
  · cases hc
  · split at hc
    · rename_i packet id m hdecode hface
      exact ⟨packet, id, m, hdecode, hface, hc⟩
    · cases hc

/-- What an operation answers from is cached, unless it is only being added. -/
lemma mem_of_source? (hκ : CacheStrategy.OnlyRemoves κ)
    (hsize : r.store.entries.slots.length < UInt32.size) {op : Operation σ κ} {c : CachedContent}
    (hc : op.source? r = some c) :
    c ∈ r.store.entries.toList ∨ op = .addContent c.packet ∧ c.flags.stale = false := by
  cases op with
  | receive decode interface peer bytes =>
    obtain ⟨packet, id, m, -, hface, hsource⟩ := source?_receive hc
    have hstore := (r.getFace_sends (some interface) (some peer)).store
    rw [hface] at hstore
    exact .inl (hstore ▸ Relay.mem_of_sourceFor? hsource)
  | dispatch id packet => exact .inl (Relay.mem_of_sourceFor? hc)
  | handleInterest id interest =>
    simp only [source?, Option.ite_none_right_eq_some] at hc
    exact .inl (Relay.mem_of_sourceFor? hc.2)
  | expressInterest interest =>
    simp only [source?, Option.ite_none_right_eq_some] at hc
    exact .inl (Relay.mem_of_hit? hc.2)
  | handleContent id content =>
    simp only [source?, Option.ite_none_left_eq_some] at hc
    exact .inl (Relay.mem_of_sourceFor? hc.2)
  | addContent content =>
    obtain rfl := source?_addContent hκ hsize hc
    exact .inr ⟨rfl, rfl⟩
  | servePending h => exact .inl (SlotTable.mem_of_get? hc)
  | _ => cases hc

/-- Only an interest that does not insist is answered from a stale entry, unless the entry is
served by its handle. -/
lemma of_stale_source? (hκ : CacheStrategy.OnlyRemoves κ)
    (hsize : r.store.entries.slots.length < UInt32.size) {op : Operation σ κ} {c : CachedContent}
    (hc : op.source? r = some c) (hstale : c.flags.stale = true) :
    (∃ interest, op.asks? = some interest ∧ interest.mustBeFresh = false) ∨
      ∃ h, op = .servePending h := by
  have hle := Nat.le_of_lt hsize
  cases op with
  | receive decode interface peer bytes =>
    obtain ⟨packet, id, m, hdecode, hface, hsource⟩ := source?_receive hc
    have hstore := (r.getFace_sends (some interface) (some peer)).store
    rw [hface] at hstore
    obtain ⟨hkind, hfresh⟩ := Relay.not_mustBeFresh_of_sourceFor? (hstore ▸ hle) hsource hstale
    refine .inl ⟨packet, ?_, hfresh⟩
    simp [asks?, hdecode, Except.toOption, hkind]
  | dispatch id packet =>
    obtain ⟨hkind, hfresh⟩ := Relay.not_mustBeFresh_of_sourceFor? hle hc hstale
    refine .inl ⟨packet, ?_, hfresh⟩
    simp [asks?, hkind]
  | handleInterest id interest =>
    simp only [source?, Option.ite_none_right_eq_some] at hc
    obtain ⟨-, hfresh⟩ := Relay.not_mustBeFresh_of_sourceFor? hle hc.2 hstale
    exact .inl ⟨interest, rfl, hfresh⟩
  | expressInterest interest =>
    simp only [source?, Option.ite_none_right_eq_some] at hc
    exact .inl ⟨interest, rfl, Relay.not_mustBeFresh_of_hit? hle hc.2 hstale⟩
  | handleContent id content =>
    simp only [source?, Option.ite_none_left_eq_some] at hc
    obtain ⟨hinterest, -⟩ := Relay.not_mustBeFresh_of_sourceFor? hle hc.2 hstale
    exact absurd hinterest hc.1
  | addContent content =>
    obtain rfl := source?_addContent hκ hsize hc
    cases hstale
  | servePending h => exact .inr ⟨h, rfl⟩
  | _ => cases hc

lemma answers_handings [Scheduler σ] (hl : r.Linked) (op : Operation σ κ) :
    ∀ x ∈ op.handings r, x.Answers (op.answer? r) := by
  obtain ⟨handed, hh, ha⟩ := Relay.run_yields_any hl op
  have hhandings : op.handings r = handed := hh.handings_eq
  rw [hhandings]
  exact fun x hx => (ha x hx).2

end Operation

/-- Answers and fresh content. What an operation of a reachable relay hands out in answer is the
packet of the entry it answers from, which is cached or being added, or the content it serves. From
a stale entry it answers only an interest that comes in and does not insist on fresh content, with
one exception: a cached entry that is served by its handle answers everyone whose interest it
satisfies, stale or not and whether they insist or not. -/
theorem stale_entries_answer_by_handle {σ κ : Type} [Scheduler σ] [CacheStrategy κ]
    (hκ : CacheStrategy.OnlyRemoves κ) {r : Relay σ κ} (h : Reachable r)
    (hsize : r.store.entries.slots.length < UInt32.size) :
    (∀ op : Operation σ κ, ∀ x ∈ op.handings r, x.Answers (op.answer? r)) ∧
    (∀ (op : Operation σ κ) (c : CachedContent), op.source? r = some c →
      (c ∈ r.store.entries.toList ∨ op = .addContent c.packet ∧ c.flags.stale = false) ∧
      (c.flags.stale = true →
        (∃ interest, op.asks? = some interest ∧ interest.mustBeFresh = false) ∨
          ∃ hd, op = .servePending hd)) ∧
    ∀ (hd : Handle) (c : CachedContent), r.store.get? hd = some c →
      (Operation.servePending hd).source? r = some c ∧
        (Operation.servePending hd).AnswersOnce r c.packet := by
  have hl := h.linked
  refine ⟨Operation.answers_handings hl, ?_, ?_⟩
  · intro op c hc
    exact ⟨Operation.mem_of_source? hκ hsize hc, Operation.of_stale_source? hκ hsize hc⟩
  · intro hd c hget
    refine ⟨hget, Operation.answersOnce hl ?_⟩
    change (r.store.get? hd).map CachedContent.packet = some c.packet
    rw [hget, Option.map_some]

/-- A peer that insists on fresh content is handed a stale copy that is served by its handle. -/
theorem insisting_peer_is_handed_stale_copy :
    Sample.aged.store.get? ⟨0, 0⟩ = some Sample.staleCopy ∧
      Sample.staleCopy.flags.stale = true ∧ Sample.insisting ∈ Sample.aged.pending.toList ∧
      Sample.insisting.packet.mustBeFresh = true ∧ ⟨1⟩ ∈ Sample.insisting.waiting ∧
      ∃ f, Sample.aged.faces.get? ⟨1⟩ = some f ∧
        ((Operation.servePending ⟨0, 0⟩).handings Sample.aged).filter (Handing.goesTo ⟨1⟩) =
          Sample.aged.answerTo f Sample.staleCopy.packet := by
  have hcopy : Sample.aged.store.get? ⟨0, 0⟩ = some Sample.staleCopy := by decide
  have hasks : ⟨1⟩ ∈ Sample.aged.askers Sample.staleCopy.packet := by decide
  obtain ⟨-, -, hserved⟩ :=
    stale_entries_answer_by_handle CachePolicy.onlyRemoves Sample.reachable_aged (by decide)
  obtain ⟨-, honce⟩ := hserved ⟨0, 0⟩ Sample.staleCopy hcopy
  exact ⟨hcopy, rfl, by decide, rfl, by decide, honce.askers ⟨1⟩ hasks⟩

/-- An interest that insists on fresh content may be answered from a stale entry. -/
theorem insisting_interest_may_get_stale_copy :
    Reachable Sample.aged ∧ Sample.insisting ∈ Sample.aged.pending.toList ∧
      Sample.insisting.packet.mustBeFresh = true ∧ Sample.insisting.waiting = [⟨1⟩] ∧
      Sample.aged.store.get? ⟨0, 0⟩ = some Sample.staleCopy ∧
      Sample.staleCopy.flags.stale = true ∧
      (Operation.servePending ⟨0, 0⟩).source? Sample.aged = some Sample.staleCopy ∧
      (Operation.servePending ⟨0, 0⟩).handings Sample.aged =
        [.face ⟨1⟩ .reply Sample.staleCopy.packet.wire] :=
  ⟨Sample.reachable_aged, by decide, rfl, by decide, by decide, rfl, by decide, by decide⟩

end NamedRelay
