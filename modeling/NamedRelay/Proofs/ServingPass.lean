import Mathlib.Data.List.Dedup
import NamedRelay.Proofs.Arrival
import NamedRelay.Proofs.ContentStore
import NamedRelay.Proofs.SendingFrame

/-!
# A serving pass, counted

Content that is served answers everyone who asked for it, once. The number of replies that a pass
reports is the number of faces that wait for the content, with one more for each entry that the
relay's own application wants.
-/

namespace NamedRelay

namespace Recipients

/-- The faces that get the content. -/
def faces (s : Recipients) : List FaceId :=
  s.network ++ s.deliveries.filterMap id

lemma includes_iff_mem_faces (s : Recipients) (id : FaceId) :
    s.includes id = true ↔ id ∈ s.faces := by
  simp [includes, faces]

lemma length_faces (s : Recipients) :
    s.network.length + s.deliveries.length = s.faces.length + s.deliveries.count none := by
  have hsplit : s.deliveries.length = (s.deliveries.filterMap id).length +
      s.deliveries.count none := by
    induction s.deliveries with
    | nil => rfl
    | cons d ds ih =>
      cases d with
      | none => simp [ih]; omega
      | some id => simp [ih]; omega
  unfold faces
  rw [List.length_append]
  omega

lemma Fair.nodup_faces {σ : Type} {g : FaceRegistry σ} {s : Recipients} (h : s.Fair g) :
    s.faces.Nodup := by
  unfold faces
  rw [List.nodup_append]
  refine ⟨List.nodup_iff_count_le_one.mpr h.network_once, ?_, ?_⟩
  · rw [List.nodup_iff_count_le_one]
    intro id
    rw [List.count_filterMap]
    exact h.deliveries_once id
  · -- A face is local or not, so it is on one side only.
    rintro id hn _ hd rfl
    have hd' : some id ∈ s.deliveries := by simpa using hd
    obtain ⟨f, hf, hnetwork⟩ := h.network id hn
    obtain ⟨f', hf', hlocal⟩ := h.deliveries id hd'
    rw [hf] at hf'
    cases hf'
    rw [hnetwork] at hlocal
    cases hlocal

end Recipients

namespace Relay

variable {σ κ : Type}

/-! ## Who asked -/

/-- The faces that wait for the content, each once. -/
def askers (r : Relay σ κ) (content : Packet) : List FaceId :=
  ((r.pending.toList.filter (r.satisfies content)).flatMap PendingInterest.waiting).dedup

/-- The number of entries for the content that the relay's own application wants. -/
def ownRequests (r : Relay σ κ) (content : Packet) : Nat :=
  r.pending.toList.countP fun e => r.satisfies content e && e.isLocal

def replies (r : Relay σ κ) (content : Packet) : Nat :=
  (r.askers content).length + r.ownRequests content

lemma mem_askers {r : Relay σ κ} {content : Packet} {id : FaceId} :
    id ∈ r.askers content ↔
      ∃ e ∈ r.pending.toList, r.satisfies content e = true ∧ id ∈ e.waiting := by
  simp [askers, and_assoc]

lemma includes_iff_mem_askers {r : Relay σ κ} (hl : r.Linked) (content : Packet) (id : FaceId) :
    (r.recipients content).includes id = true ↔ id ∈ r.askers content := by
  rw [includes_recipients, mem_askers]
  constructor
  · rintro ⟨⟨e, he, hsat, w, hw, rfl⟩, -⟩
    exact ⟨e, he, hsat, List.mem_map_of_mem hw⟩
  · rintro ⟨e, he, hsat, hid⟩
    obtain ⟨w, hw, hface⟩ := List.mem_map.mp hid
    exact ⟨⟨e, he, hsat, w, hw, hface⟩, hl.waiting e he id hid⟩

/-- The recipients are the faces that asked and the requests of the relay's own application. -/
lemma length_recipients {r : Relay σ κ} (hl : r.Linked) (content : Packet) :
    (r.recipients content).network.length + (r.recipients content).deliveries.length =
      r.replies content := by
  have hperm : (r.recipients content).faces.Perm (r.askers content) := by
    have hfaces := (r.fair_recipients content).nodup_faces
    have haskers : (r.askers content).Nodup := List.nodup_dedup _
    rw [List.perm_ext_iff_of_nodup hfaces haskers]
    intro id
    rw [← Recipients.includes_iff_mem_faces, includes_iff_mem_askers hl]
  rw [Recipients.length_faces, hperm.length_eq, count_none_recipients]
  rfl

lemma count_recipients {r : Relay σ κ} (hl : r.Linked) (content : Packet) :
    (r.recipients content).count = UInt32.ofNat (r.replies content) := by
  unfold Recipients.count
  rw [length_recipients hl]

lemma ownRequest_recipients (r : Relay σ κ) (content : Packet) :
    (r.recipients content).ownRequest = decide (0 < r.ownRequests content) := by
  unfold Recipients.ownRequest ownRequests
  rw [← count_none_recipients, Bool.eq_iff_iff, List.contains_iff_mem, decide_eq_true_eq,
    List.count_pos_iff]

/-- Someone wants every entry, so no reply means that no entry is satisfied. -/
lemma replies_eq_zero_iff {r : Relay σ κ} (hs : r.PendingSound) (content : Packet) :
    r.replies content = 0 ↔ ∀ e ∈ r.pending.toList, r.satisfies content e = false := by
  unfold replies
  rw [Nat.add_eq_zero_iff, List.length_eq_zero_iff]
  constructor
  · rintro ⟨hfaces, hown⟩ e he
    by_contra hsat
    rw [Bool.not_eq_false] at hsat
    have hwaiting : e.waiting = [] := by
      rw [List.eq_nil_iff_forall_not_mem]
      intro id hid
      have hasker : id ∈ r.askers content := mem_askers.mpr ⟨e, he, hsat, hid⟩
      rw [hfaces] at hasker
      cases hasker
    have hlocal := (hs.entries e he).wanted hwaiting
    have hnone := List.countP_eq_zero.mp hown e he
    simp [hsat, hlocal] at hnone
  · intro hnone
    constructor
    · rw [List.eq_nil_iff_forall_not_mem]
      intro id hid
      obtain ⟨e, he, hsat, -⟩ := mem_askers.mp hid
      rw [hnone e he] at hsat
      cases hsat
    · refine List.countP_eq_zero.mpr ?_
      intro e he
      simp [hnone e he]

/-! ## What is handed out -/

lemma Serves.toList_pending {r r' : Relay σ κ} {content : Packet} (h : r.Serves content r') :
    r'.pending.toList = r.pending.toList.filter fun e => !r.satisfies content e := by
  obtain ⟨m, hm, hk, -⟩ := h
  rw [hk.pending, toList_withoutSatisfied, hm.pending]
  unfold satisfies
  rw [hm.digest]

end Relay

/-- Whatever is put on the queue of the face, or given to the application in its name. -/
def Handing.goesTo (id : FaceId) : Handing → Bool
  | face other _ _ => other == id
  | application other _ => other == some id

namespace Relay

variable {σ κ : Type}

lemma filter_answers_goesTo (r : Relay σ κ) (content : Packet) (id : FaceId) :
    (r.answers content).filter (Handing.goesTo id) =
      (r.answers content).filter fun h => h.repliesTo? == some id := by
  apply List.filter_congr
  intro h hh
  rcases eq_of_mem_answers hh with ⟨j, rfl⟩ | ⟨j, rfl⟩
  · rfl
  · rfl

lemma answers_to_others {r : Relay σ κ} {content : Packet} {id : FaceId}
    (hout : ¬(r.recipients content).includes id = true) :
    (r.answers content).filter (fun h => h.repliesTo? == some id) = [] := by
  simp only [Recipients.includes, Bool.or_eq_true, List.contains_iff_mem, not_or] at hout
  rw [filter_answers, List.count_eq_zero.mpr hout.1, List.count_eq_zero.mpr hout.2]
  simp

end Relay

namespace Operation

variable {σ κ : Type} [Scheduler σ] [CacheStrategy κ]

/-- The operation takes exactly the satisfied entries out of the pending table, and hands the
content once to each face that asked, once for each entry that the relay's own application wants,
and to nobody else. -/
structure AnswersOnce (op : Operation σ κ) (r : Relay σ κ) (content : Packet) : Prop where
  entries : (op.run r).pending.toList = r.pending.toList.filter fun e => !r.satisfies content e
  askers : ∀ id ∈ r.askers content, ∃ f, r.faces.get? id = some f ∧
    (op.handings r).filter (Handing.goesTo id) = r.answerTo f content
  others : ∀ id ∉ r.askers content, (op.handings r).filter (Handing.goesTo id) = []
  own : (op.handings r).filter Handing.isOwn =
    if r.delivers then List.replicate (r.ownRequests content) (.application none content) else []

lemma answersOnce {r : Relay σ κ} (hl : r.Linked) {op : Operation σ κ} {content : Packet}
    (hserved : op.served? r = some content) : op.AnswersOnce r content := by
  have hserves := (Relay.effect_run hl op).serves hserved
  obtain ⟨m, hm, -, hh⟩ := id hserves
  have hgoes : ∀ id, (op.handings r).filter (Handing.goesTo id) =
      (op.handings r).filter fun h => h.repliesTo? == some id := by
    intro id
    unfold handings
    rw [hh.handings_eq, m.filter_answers_goesTo]
  refine ⟨hserves.toList_pending, ?_, ?_, ?_⟩
  · intro id hid
    obtain ⟨e, he, hsat, hwaits⟩ := Relay.mem_askers.mp hid
    rw [hgoes]
    exact hands_face hl he hwaits ⟨hserved, hsat⟩
  · intro id hid
    have hout : ¬(m.recipients content).includes id = true := by
      intro hin
      obtain ⟨⟨e, he, hsat, w, hw, rfl⟩, -⟩ := (m.includes_recipients content id).mp hin
      unfold Relay.satisfies at hsat
      rw [hm.digest] at hsat
      exact hid (Relay.mem_askers.mpr
        ⟨e, hm.pending ▸ he, hsat, List.mem_map_of_mem hw⟩)
    rw [hgoes]
    unfold handings
    rw [hh.handings_eq, Relay.answers_to_others hout]
  · exact hands_application hl hserved

end Operation

/-! ## What is counted -/

lemma Counters.unsolicitedDropped_eq {c c' : Counters} (h : c.intake = c'.intake) :
    c.unsolicitedDropped = c'.unsolicitedDropped := by
  change c.intake.unsolicitedDropped = c'.intake.unsolicitedDropped
  rw [h]

namespace Relay

variable {σ κ : Type}

section

variable [Scheduler σ]

lemma offer_intake (r : Relay σ κ) (purpose : Purpose) (id : FaceId) (packet : Bytes) :
    (r.offer purpose id packet).2.counters.intake = r.counters.intake :=
  congrArg Rest.intake (r.rest_offer purpose id packet)

lemma forwardContent_intake (r : Relay σ κ) (wire : Bytes) (id : FaceId) :
    (r.forwardContent wire id).counters.intake = r.counters.intake :=
  offer_intake _ _ _ _

omit [Scheduler σ] in
lemma deliver_intake (r : Relay σ κ) (id : Option FaceId) (content : Packet) :
    (r.deliver id content).counters.intake = r.counters.intake := by
  unfold deliver
  split <;> rfl

omit [Scheduler σ] in
lemma foldl_intake {α : Type} {f : Relay σ κ → α → Relay σ κ}
    (hf : ∀ r x, (f r x).counters.intake = r.counters.intake) (xs : List α) (r : Relay σ κ) :
    (xs.foldl f r).counters.intake = r.counters.intake := by
  induction xs generalizing r with
  | nil => rfl
  | cons x xs ih => exact (ih (f r x)).trans (hf r x)

lemma servePacket_intake (r : Relay σ κ) (content : Packet) :
    (r.servePacket content).2.counters.intake = r.counters.intake := by
  unfold servePacket
  dsimp only
  rw [foldl_intake fun r id => r.deliver_intake id content,
    foldl_intake fun r id => r.forwardContent_intake content.wire id]
  rfl

end

/-- A cached entry with the replies of a pass counted. It stays for good if the relay's own
application asked. -/
def credited (r : Relay σ κ) (content : Packet) (entry : CachedContent) : CachedContent :=
  (entry.recordServed (UInt32.ofNat (r.replies content))).pinIf (0 < r.ownRequests content)

section

variable [Scheduler σ]

/-- The handle still leads to the entry, with the replies counted. -/
lemma store_servePending (r : Relay σ κ) {h : Handle} {copy : CachedContent}
    (hget : r.store.get? h = some copy) : (r.servePending h).2.store =
      r.store.modify h fun c => (c.recordServed (r.recipients copy.packet).count).pinIf
        (r.recipients copy.packet).ownRequest := by
  have hserved := (r.servePacket_sends copy.packet).store
  unfold servePending
  rw [hget]
  change (r.servePacket copy.packet).2.store.modify h _ = _
  rw [hserved]
  rfl

lemma get?_servePending {r : Relay σ κ} (hl : r.Linked) {h : Handle} {copy : CachedContent}
    (hcopy : r.store.get? h = some copy) :
    (r.servePending h).2.store.get? h = some (r.credited copy.packet copy) := by
  have hcredit : (copy.recordServed (r.recipients copy.packet).count).pinIf
      (r.recipients copy.packet).ownRequest = r.credited copy.packet copy := by
    rw [count_recipients hl, ownRequest_recipients]
    rfl
  rw [r.store_servePending hcopy, ContentStore.get?_modify_self, hcopy, Option.map_some]
  exact congrArg some hcredit

lemma fst_servePending {r : Relay σ κ} (hl : r.Linked) {h : Handle} {copy : CachedContent}
    (hcopy : r.store.get? h = some copy) (hfew : r.replies copy.packet < UInt32.size) :
    (r.servePending h).1 = r.replies copy.packet := by
  have hcount : (r.servePending h).1 = (r.recipients copy.packet).count.toNat := by
    unfold servePending
    rw [hcopy]
    rfl
  rw [hcount, count_recipients hl, UInt32.toNat_ofNat']
  exact Nat.mod_eq_of_lt hfew

lemma servePending_intake (r : Relay σ κ) (h : Handle) :
    (r.servePending h).2.counters.intake = r.counters.intake := by
  unfold servePending
  split
  · rfl
  · exact r.servePacket_intake _

variable [CacheStrategy κ]

omit [Scheduler σ] in
/-- Whether the strategy admits content, and the strategy when it was asked. -/
def admission (r : Relay σ κ) (content : Packet) : Bool × Option κ :=
  match r.strategy with
  | none => (true, none)
  | some k =>
    ((CacheStrategy.admits k r.store content).1, some (CacheStrategy.admits k r.store content).2)

omit [Scheduler σ] in
lemma askAdmission_eq (r : Relay σ κ) (content : Packet) :
    (r.askAdmission content).1 = (r.admission content).1 ∧
      (r.askAdmission content).2.strategy = (r.admission content).2 ∧
      (r.askAdmission content).2.store = r.store ∧
      (r.askAdmission content).2.clock = r.clock ∧
      (r.askAdmission content).2.counters = r.counters := by
  unfold askAdmission admission
  cases hstrategy : r.strategy with
  | none => exact ⟨rfl, hstrategy, rfl, rfl, rfl⟩
  | some k => exact ⟨rfl, rfl, rfl, rfl, rfl⟩

omit [Scheduler σ] [CacheStrategy κ] in
lemma ofNat_eq_zero_iff {n : Nat} (hn : n < UInt32.size) : UInt32.ofNat n = 0 ↔ n = 0 := by
  rw [← UInt32.toNat_inj, UInt32.toNat_ofNat', Nat.mod_eq_of_lt hn]
  rfl

omit [Scheduler σ] [CacheStrategy κ] in
/-- A pass of fewer than `2 ^ 32` replies counts none only if there is none. -/
lemma count_eq_zero_iff {r : Relay σ κ} (hl : r.Linked) {content : Packet}
    (hfew : r.replies content < UInt32.size) :
    (r.recipients content).count = 0 ↔ r.replies content = 0 := by
  rw [count_recipients hl]
  exact ofNat_eq_zero_iff hfew

lemma admission_servePacket (r : Relay σ κ) (content : Packet) :
    (r.servePacket content).2.admission content = r.admission content := by
  have hserved := (r.servePacket_sends content).toKeeps
  have hstrategy : (r.servePacket content).2.strategy = r.strategy := hserved.strategy
  have hstore : (r.servePacket content).2.store = r.store := hserved.store
  unfold admission
  rw [hstrategy, hstore]

omit [Scheduler σ] in
lemma store_cacheServed (r : Relay σ κ) (staleCopy : Option Handle) (content : Packet)
    (served : Recipients) : (r.cacheServed staleCopy content served).store =
      match staleCopy with
      | some h => r.store.modify h fun c =>
          ((c.refresh content r.clock).recordServed served.count).pinIf served.ownRequest
      | none => (r.store.add
          ((({ packet := content, lastUsed := r.clock } : CachedContent).recordServed
            served.count).pinIf served.ownRequest) r.strategy).store := by
  cases staleCopy <;> rfl

omit [Scheduler σ] in
lemma counters_cacheServed (r : Relay σ κ) (staleCopy : Option Handle) (content : Packet)
    (served : Recipients) : (r.cacheServed staleCopy content served).counters = r.counters := by
  cases staleCopy <;> rfl

/-- Content that was served is cached if a 32-bit word counts any replies and it is admitted. -/
def caches (r : Relay σ κ) (content : Packet) : Bool :=
  UInt32.ofNat (r.replies content) != 0 && (r.admission content).1

/-- Content that is cached has its replies counted. -/
lemma store_acceptContent {r : Relay σ κ} (hl : r.Linked) (content : Packet)
    (staleCopy : Option Handle) :
    (r.acceptContent staleCopy content).store =
      if r.caches content then
        match staleCopy with
        | some h => r.store.modify h fun c => r.credited content (c.refresh content r.clock)
        | none => (r.store.add (r.credited content { packet := content, lastUsed := r.clock })
            (r.admission content).2).store
      else r.store := by
  have hserved := (r.servePacket_sends content).toKeeps
  have hstore : (r.servePacket content).2.store = r.store := hserved.store
  have hclock : (r.servePacket content).2.clock = r.clock := hserved.clock
  obtain ⟨hadmitted, hstrategy, hasked, hnow, -⟩ :=
    (r.servePacket content).2.askAdmission_eq content
  rw [admission_servePacket] at hadmitted hstrategy
  rw [acceptContent_eq]
  unfold caches
  dsimp only
  rw [hadmitted, count_recipients hl]
  by_cases hzero : UInt32.ofNat (r.replies content) = 0
  · rw [if_pos hzero, hzero]
    exact hstore
  · rw [if_neg hzero, bne_iff_ne.mpr hzero, Bool.true_and]
    cases hadmit : (r.admission content).1 with
    | false =>
      rw [if_neg Bool.false_ne_true, if_neg Bool.false_ne_true, hasked, hstore]
    | true =>
      rw [if_pos rfl, if_pos rfl, store_cacheServed, hasked, hstore, hnow, hclock, hstrategy,
        count_recipients hl, ownRequest_recipients]
      rfl

omit [Scheduler σ] in
/-- A pass of fewer than `2 ^ 32` replies caches the content if there are any and it is admitted. -/
lemma caches_eq_true_iff {r : Relay σ κ} {content : Packet}
    (hfew : r.replies content < UInt32.size) :
    r.caches content = true ↔ r.replies content ≠ 0 ∧ (r.admission content).1 = true := by
  unfold caches
  rw [Bool.and_eq_true, bne_iff_ne, ne_eq, ofNat_eq_zero_iff hfew]

omit [Scheduler σ] in
lemma not_cached {r : Relay σ κ} {content : Packet} (hfew : r.replies content < UInt32.size)
    (hnot : ¬r.caches content = true) :
    r.replies content = 0 ∨ (r.admission content).1 = false := by
  rw [caches_eq_true_iff hfew, not_and_or, not_not, Bool.not_eq_true] at hnot
  exact hnot

lemma unsolicited_acceptContent {r : Relay σ κ} (hl : r.Linked) {content : Packet}
    (hfew : r.replies content < UInt32.size) (staleCopy : Option Handle) :
    (r.acceptContent staleCopy content).counters.unsolicitedDropped =
      r.counters.unsolicitedDropped + if r.replies content = 0 then 1 else 0 := by
  have hintake : (r.servePacket content).2.counters.unsolicitedDropped =
      r.counters.unsolicitedDropped :=
    Counters.unsolicitedDropped_eq (r.servePacket_intake content)
  obtain ⟨-, -, -, -, hcounters⟩ := (r.servePacket content).2.askAdmission_eq content
  rw [acceptContent_eq]
  dsimp only
  by_cases hnone : r.replies content = 0
  · rw [if_pos ((count_eq_zero_iff hl hfew).mpr hnone), if_pos hnone]
    exact congrArg (· + 1) hintake
  · rw [if_neg (fun hzero => hnone ((count_eq_zero_iff hl hfew).mp hzero)), if_neg hnone]
    split
    · rw [counters_cacheServed, hcounters, hintake, UInt64.add_zero]
    · rw [hcounters, hintake, UInt64.add_zero]

/-- What becomes of the store when content comes in. A copy that is not stale answers, and the
replies are counted there. Otherwise content that was asked for and is admitted takes the place of
its stale copy or is added, with the replies counted. -/
inductive Books (r : Relay σ κ) (content : Packet) (store : ContentStore) : Prop where
  | answered {h : Handle} {copy : CachedContent} : r.store.get? h = some copy →
      r.freshCopy? content = some copy.packet →
      store.get? h = some (r.credited copy.packet copy) → r.Books content store
  | uncached : r.freshCopy? content = none →
      r.replies content = 0 ∨ (r.admission content).1 = false →
      store = r.store → r.Books content store
  | refreshed {h : Handle} {copy : CachedContent} : r.store.get? h = some copy →
      r.store.findExact? content.name = some h → copy.flags.stale = true →
      r.replies content ≠ 0 → (r.admission content).1 = true →
      store.get? h = some (r.credited content (copy.refresh content r.clock)) →
      r.Books content store
  | added : r.store.findExact? content.name = none → r.replies content ≠ 0 →
      (r.admission content).1 = true →
      store = (r.store.add (r.credited content { packet := content, lastUsed := r.clock })
        (r.admission content).2).store → r.Books content store

omit [Scheduler σ] in
/-- That content came in on a face is no matter to the store. -/
lemma Books.of_received {r : Relay σ κ} {id : FaceId} {content : Packet} {store : ContentStore}
    (h : (r.contentReceived id).Books content store) : r.Books content store := by
  cases h with
  | answered hcopy hfresh hget => exact .answered hcopy hfresh hget
  | uncached hnone hnot hstore => exact .uncached hnone hnot hstore
  | refreshed hcopy hfind hstale hasked hadmitted hget =>
    exact .refreshed hcopy hfind hstale hasked hadmitted hget
  | added hfind hasked hadmitted hstore => exact .added hfind hasked hadmitted hstore

lemma acceptContent_books_of_new {r : Relay σ κ} (hl : r.Linked) {content : Packet}
    (hfew : r.replies content < UInt32.size) (hfind : r.store.findExact? content.name = none) :
    r.Books content (r.acceptContent none content).store := by
  have hnocopy : r.freshCopy? content = none := by simp [freshCopy?, hfind]
  have hstore := store_acceptContent hl content none
  split at hstore
  · rename_i hcached
    obtain ⟨hasked, hadmitted⟩ := (caches_eq_true_iff hfew).mp hcached
    exact .added hfind hasked hadmitted hstore
  · rename_i hnot
    exact .uncached hnocopy (not_cached hfew hnot) hstore

lemma acceptContent_books_of_stale {r : Relay σ κ} (hl : r.Linked) {content : Packet}
    (hfew : r.replies content < UInt32.size) {h : Handle} {copy : CachedContent}
    (hfind : r.store.findExact? content.name = some h) (hcopy : r.store.get? h = some copy)
    (hstale : copy.flags.stale = true) :
    r.Books content (r.acceptContent (some h) content).store := by
  have hnocopy : r.freshCopy? content = none := by simp [freshCopy?, hfind, hcopy, hstale]
  have hstore := store_acceptContent hl content (some h)
  split at hstore
  · rename_i hcached
    obtain ⟨hasked, hadmitted⟩ := (caches_eq_true_iff hfew).mp hcached
    refine .refreshed hcopy hfind hstale hasked hadmitted ?_
    rw [hstore]
    dsimp only
    rw [ContentStore.get?_modify_self, hcopy, Option.map_some]
  · rename_i hnot
    exact .uncached hnocopy (not_cached hfew hnot) hstore

/-- A copy that is not stale is served, or the content is, with the handle of its stale copy if there
is one. -/
lemma answerContent_cases {r : Relay σ κ} {content answer : Packet}
    (hanswer : r.answering content = some answer) :
    (∃ h copy, r.store.findExact? content.name = some h ∧ r.store.get? h = some copy ∧
      copy.packet = answer ∧ r.freshCopy? content = some copy.packet ∧
      r.answerContent content = (r.servePending h).2) ∨
    content = answer ∧ r.freshCopy? content = none ∧
      (r.store.findExact? content.name = none ∧
          r.answerContent content = r.acceptContent none content ∨
        ∃ h copy, r.store.findExact? content.name = some h ∧ r.store.get? h = some copy ∧
          copy.flags.stale = true ∧
          r.answerContent content = r.acceptContent (some h) content) := by
  unfold answering at hanswer
  unfold answerContent freshCopy?
  cases hfind : r.store.findExact? content.name with
  | none =>
    rw [hfind] at hanswer
    exact .inr ⟨Option.some.inj hanswer, rfl, .inl ⟨rfl, rfl⟩⟩
  | some h =>
    rw [hfind] at hanswer
    dsimp only [Option.bind_some] at hanswer ⊢
    cases hcopy : r.store.get? h with
    | none =>
      rw [hcopy] at hanswer
      cases hanswer
    | some copy =>
      rw [hcopy, Option.any_some] at hanswer
      cases hstale : copy.flags.stale with
      | true =>
        rw [hstale] at hanswer
        exact .inr ⟨Option.some.inj hanswer, by simp [hstale],
          .inr ⟨h, copy, rfl, hcopy, hstale, by simp [hstale]⟩⟩
      | false =>
        rw [hstale] at hanswer
        exact .inl ⟨h, copy, rfl, hcopy, Option.some.inj hanswer, by simp [hstale], by simp [hstale]⟩

lemma answerContent_books {r : Relay σ κ} (hl : r.Linked) {content answer : Packet}
    (hanswer : r.answering content = some answer) (hfew : r.replies answer < UInt32.size) :
    r.Books content (r.answerContent content).store ∧
      (r.answerContent content).counters.unsolicitedDropped = r.counters.unsolicitedDropped +
        if r.freshCopy? content = none ∧ r.replies content = 0 then 1 else 0 := by
  rcases answerContent_cases hanswer with
    ⟨h, copy, -, hcopy, rfl, hfresh, hserved⟩ | ⟨rfl, hnocopy, haccepted⟩
  · have hintake : (r.servePending h).2.counters.unsolicitedDropped =
        r.counters.unsolicitedDropped :=
      Counters.unsolicitedDropped_eq (r.servePending_intake h)
    rw [hserved]
    refine ⟨.answered hcopy hfresh (get?_servePending hl hcopy), ?_⟩
    rw [hfresh]
    simpa using hintake
  · have hdropped : ∀ staleCopy,
        (r.acceptContent staleCopy content).counters.unsolicitedDropped =
          r.counters.unsolicitedDropped +
            if r.freshCopy? content = none ∧ r.replies content = 0 then 1 else 0 := by
      intro staleCopy
      rw [hnocopy]
      simpa using unsolicited_acceptContent hl hfew staleCopy
    rcases haccepted with ⟨hfind, haccepted⟩ | ⟨h, copy, hfind, hcopy, hstale, haccepted⟩
    · rw [haccepted]
      exact ⟨acceptContent_books_of_new hl hfew hfind, hdropped none⟩
    · rw [haccepted]
      exact ⟨acceptContent_books_of_stale hl hfew hfind hcopy hstale, hdropped (some h)⟩

end

end Relay

variable {σ κ : Type} [Scheduler σ] [CacheStrategy κ]

/-- A serving pass in any reachable relay. A cached entry that is served, and content that comes in,
takes exactly the entries it satisfies out of the pending table, and reaches each face that asked
once, each entry of the relay's own application once, and nobody else. As long as a 32-bit word
counts them, the replies that are reported and counted are the faces that asked and the entries of
the application; they are none exactly if no entry was satisfied, and only then content is dropped
as unsolicited. -/
theorem serving_pass_answers_everyone_once {r : Relay σ κ} (h : Reachable r) :
    (∀ content, r.replies content = 0 ↔
      ∀ e ∈ r.pending.toList, r.satisfies content e = false) ∧
    (∀ (hd : Handle) (copy : CachedContent), r.store.get? hd = some copy →
      (Operation.servePending hd).AnswersOnce r copy.packet ∧
      (r.replies copy.packet < UInt32.size →
        (r.servePending hd).1 = r.replies copy.packet ∧
        (r.servePending hd).2.store.get? hd = some (r.credited copy.packet copy))) ∧
    ∀ (id : FaceId) (content answer : Packet), r.isLive id = true → content.isInterest = false →
      r.answering content = some answer →
      (Operation.handleContent id content).AnswersOnce r answer ∧
      (r.replies answer < UInt32.size →
        r.Books content (r.handleContent id content).2.store ∧
        (r.handleContent id content).2.counters.unsolicitedDropped =
          r.counters.unsolicitedDropped +
            if r.freshCopy? content = none ∧ r.replies content = 0 then 1 else 0) := by
  have hl := h.linked
  refine ⟨Relay.replies_eq_zero_iff h.pendingSound, ?_, ?_⟩
  · intro hd copy hcopy
    refine ⟨Operation.answersOnce hl ?_, ?_⟩
    · change (r.store.get? hd).map CachedContent.packet = some copy.packet
      rw [hcopy, Option.map_some]
    · intro hfew
      exact ⟨Relay.fst_servePending hl hcopy hfew, Relay.get?_servePending hl hcopy⟩
  · intro id content answer hlive hkind hanswer
    refine ⟨Operation.answersOnce hl ?_, ?_⟩
    · change r.servedFor? id content = some answer
      unfold Relay.servedFor?
      rw [hkind, hlive]
      exact hanswer
    · intro hfew
      have hreceived := r.contentReceived_acts id
      obtain ⟨hbooks, hcounter⟩ :=
        Relay.answerContent_books (hl.of_keeps hreceived.toKeepsFaces) hanswer hfew
      rw [Relay.handleContent_of_live hkind hlive]
      exact ⟨hbooks.of_received, hcounter⟩

/-- A copy in the store answers two peers that wait, and so does content that comes in. -/
theorem two_peers_are_answered_once :
    Sample.stocked.replies (Sample.content 5) = 2 ∧
      (Operation.servePending ⟨0, 0⟩).AnswersOnce Sample.stocked (Sample.content 5) ∧
      (Sample.stocked.servePending ⟨0, 0⟩).1 = 2 ∧
      (Operation.handleContent ⟨3⟩ (Sample.content 5)).AnswersOnce Sample.asked
        (Sample.content 5) ∧
      Sample.asked.Books (Sample.content 5)
        (Sample.asked.handleContent ⟨3⟩ (Sample.content 5)).2.store := by
  obtain ⟨-, hpending, -⟩ := serving_pass_answers_everyone_once Sample.reachable_stocked
  obtain ⟨-, -, harriving⟩ := serving_pass_answers_everyone_once Sample.reachable_asked
  have hcopy : Sample.stocked.store.get? ⟨0, 0⟩ =
      some { packet := Sample.content 5, lastUsed := ⟨0⟩ } := by decide
  have hanswer : Sample.asked.answering (Sample.content 5) = some (Sample.content 5) := by decide
  have hstocked : Sample.stocked.replies (Sample.content 5) = 2 := by decide
  have hasked : Sample.asked.replies (Sample.content 5) < UInt32.size := by decide
  obtain ⟨hserved, hcounted⟩ := hpending ⟨0, 0⟩ _ hcopy
  obtain ⟨hreplied, -⟩ := hcounted (by rw [hstocked]; decide)
  obtain ⟨harrived, hbooked⟩ :=
    harriving ⟨3⟩ (Sample.content 5) (Sample.content 5) (by decide) rfl hanswer
  exact ⟨hstocked, hserved, hreplied.trans hstocked, harrived, (hbooked hasked).1⟩

end NamedRelay
