import NamedRelay.Proofs.Freshness
import NamedRelay.Proofs.OwnRoutes

/-!
# Families do not mix

Names are compared by components, which two families may share. So every table asks for the family
as well. What an operation does with a packet leaves the entries of all other families alone, the
pending and the cached ones; only to make room for new content may a cached one go. And the routes
of another family have no part in where an interest is sent.
-/

namespace NamedRelay

namespace SlotTable

variable {α : Type} {family : α → Suite} {s : Suite} {t : SlotTable α}

/-- The entries of the other families. -/
def others (family : α → Suite) (s : Suite) (t : SlotTable α) : List α :=
  t.toList.filter fun a => family a != s

lemma others_insert {a : α} (ha : family a = s) :
    (t.insert a).2.others family s = t.others family s := by
  unfold others
  rw [toList_insert, List.filter_append]
  simp [ha]

lemma others_modify {h : Handle} {a : α} (hget : t.get? h = some a) (ha : family a = s)
    {change : α → α} (hchange : family (change a) = s) :
    (t.modify h change).others family s = t.others family s := by
  obtain ⟨before, after, hlist, hmodify⟩ := split_of_get? hget
  unfold others
  rw [hmodify, hlist]
  simp [ha, hchange]

/-- It does not matter to the other families that entries of one go. -/
lemma others_of_filter {t' : SlotTable α} {keeps : α → Bool}
    (hlist : t'.toList = t.toList.filter keeps) (hgone : ∀ a, keeps a = false → family a = s) :
    t'.others family s = t.others family s := by
  unfold others
  rw [hlist, List.filter_filter]
  apply List.filter_congr
  intro a _
  cases hkeeps : keeps a with
  | true => rw [Bool.and_true]
  | false => simp [hgone a hkeeps]

end SlotTable

namespace Relay

variable {σ κ : Type}

/-! ## Searches stay in the family -/

lemma family_of_satisfies {r : Relay σ κ} {content : Packet} {e : PendingInterest}
    (hsat : r.satisfies content e = true) : e.family = content.suite :=
  ((Packet.isSatisfiedBy_iff _ _ _).mp hsat).1

lemma family_of_mayAnswer {r : Relay σ κ} {interest : Packet} {c : CachedContent}
    (hmay : r.MayAnswer interest c) : c.family = interest.suite :=
  ((Packet.isSatisfiedBy_iff _ _ _).mp hmay.1).1.symm

lemma family_of_lookupCached {r : Relay σ κ} (hsize : r.store.entries.slots.length ≤ UInt32.size)
    {interest : Packet} {h : Handle} (hfound : r.lookupCached interest = some h) :
    ∃ c, r.store.get? h = some c ∧ c.family = interest.suite := by
  obtain ⟨_, c, _, hget, hmay, -⟩ := split_of_lookupCached hsize hfound
  exact ⟨c, hget, family_of_mayAnswer hmay⟩

lemma family_of_findExact {r : Relay σ κ} (hsize : r.store.entries.slots.length ≤ UInt32.size)
    {name : Name} {h : Handle} (hfound : r.store.findExact? name = some h) :
    ∃ c, r.store.get? h = some c ∧ c.family = name.suite := by
  obtain ⟨c, hget, hsame⟩ := exists_copy_of_findExact? hsize hfound
  exact ⟨c, hget, congrArg Name.suite ((Name.isSame_iff _ _).mp hsame)⟩

/-! ## What is left alone -/

/-- The tables have a handle for each of their slots, and for one more. -/
structure Covered (r : Relay σ κ) : Prop where
  store : r.store.entries.slots.length < UInt32.size
  pending : r.pending.slots.length < UInt32.size

/-- The entries of the other families are left alone. Only under `Adding` may cached ones go, to
make room, if that is how the strategy makes it. -/
structure Spares [CacheStrategy κ] (r r' : Relay σ κ) (s : Suite) (Adding : Prop) : Prop where
  pending : r'.pending.others PendingInterest.family s = r.pending.others PendingInterest.family s
  cached : ¬Adding → r'.store.entries.others CachedContent.family s =
    r.store.entries.others CachedContent.family s
  kept : CacheStrategy.OnlyRemoves κ → (r'.store.entries.others CachedContent.family s).Sublist
    (r.store.entries.others CachedContent.family s)

namespace Spares

variable [CacheStrategy κ] {r m r' : Relay σ κ} {s : Suite} {Adding Adding' : Prop}

lemma weaken (h : r.Spares r' s Adding) (himp : Adding → Adding') : r.Spares r' s Adding' :=
  ⟨h.pending, fun hadding => h.cached (hadding ∘ himp), h.kept⟩

lemma of_eq (hpending : r'.pending.others PendingInterest.family s =
      r.pending.others PendingInterest.family s)
    (hcached : r'.store.entries.others CachedContent.family s =
      r.store.entries.others CachedContent.family s) : r.Spares r' s Adding :=
  ⟨hpending, fun _ => hcached, fun _ => by rw [hcached]⟩

lemma of_same (hpending : r'.pending = r.pending) (hstore : r'.store = r.store) :
    r.Spares r' s Adding :=
  of_eq (by rw [hpending]) (by rw [hstore])

lemma trans (h : r.Spares m s Adding) (h' : m.Spares r' s Adding) : r.Spares r' s Adding where
  pending := h'.pending.trans h.pending
  cached hadding := (h'.cached hadding).trans (h.cached hadding)
  kept hκ := (h'.kept hκ).trans (h.kept hκ)

end Spares

/-! ## Interests -/

lemma others_pendingWith {r : Relay σ κ} (hsize : r.pending.slots.length ≤ UInt32.size)
    (id : FaceId) (interest : Packet) :
    (r.pendingWith id interest).others PendingInterest.family interest.suite =
      r.pending.others PendingInterest.family interest.suite := by
  unfold pendingWith
  cases hfound : r.pending.findSame? interest with
  | some h =>
    obtain ⟨e, hget, hfamily⟩ := family_of_findSame hsize hfound
    apply SlotTable.others_modify hget hfamily
    exact (e.family_addWaiter id r.clock).trans hfamily
  | none => exact SlotTable.others_insert rfl

lemma others_creditHit {r : Relay σ κ} (hsize : r.store.entries.slots.length ≤ UInt32.size)
    {interest : Packet} {h : Handle} (hfound : r.lookupCached interest = some h)
    {change : CachedContent → CachedContent} (hchange : ∀ c, (change c).packet = c.packet) :
    (r.store.modify h change).entries.others CachedContent.family interest.suite =
      r.store.entries.others CachedContent.family interest.suite := by
  obtain ⟨c, hget, hfamily⟩ := family_of_lookupCached hsize hfound
  apply SlotTable.others_modify hget hfamily
  exact (congrArg Packet.suite (hchange c)).trans hfamily

section

variable [Scheduler σ] [CacheStrategy κ] {Adding : Prop}

lemma takeInterest_spares {r : Relay σ κ} (hr : r.Covered) (face : Face σ) (interest : Packet) :
    r.Spares (r.takeInterest face interest) interest.suite Adding := by
  have hpending : (r.takeInterest face interest).pending.others PendingInterest.family
      interest.suite = r.pending.others PendingInterest.family interest.suite := by
    rw [pending_takeInterest]
    split
    · exact others_pendingWith (Nat.le_of_lt hr.pending) face.id interest
    · rfl
  refine .of_eq hpending ?_
  have hstore := r.store_checkNonce interest
  rw [takeInterest_eq]
  dsimp only
  split
  · exact congrArg (fun t : ContentStore => t.entries.others _ _) hstore
  · split
    · rename_i h hfound
      rw [store_answerFromCache, hstore]
      exact others_creditHit (Nat.le_of_lt hr.store) hfound fun _ => rfl
    · have hrecorded : ((r.checkNonce interest).2.recordInterest face interest).store = r.store :=
        (congrArg Cache.store (cache_recordInterest _ face interest)).trans hstore
      rw [hrecorded]

lemma handleInterest_spares {r : Relay σ κ} (hr : r.Covered) (id : FaceId) (interest : Packet) :
    r.Spares (r.handleInterest id interest).2 interest.suite Adding := by
  rcases r.handleInterest_cases id interest with ⟨-, hsame⟩ | ⟨face, -, -, htaken⟩
  · rw [hsame]
    exact .of_same rfl rfl
  · rw [htaken]
    have hreceived : r.Spares (r.interestReceived id) interest.suite Adding := .of_same rfl rfl
    have hcovered : (r.interestReceived id).Covered := ⟨hr.store, hr.pending⟩
    exact hreceived.trans (takeInterest_spares hcovered face interest)

lemma expressInterest_spares {r : Relay σ κ} (hr : r.Covered) (interest : Packet) :
    r.Spares (r.expressInterest interest).2 interest.suite Adding := by
  cases hkind : interest.isInterest with
  | false =>
    rw [r.expressInterest_of_content hkind]
    exact .of_same rfl rfl
  | true =>
    have hstore := r.store_checkNonce interest
    have hpending := (r.checkNonce_acts interest).pending
    rw [r.expressInterest_eq hkind]
    dsimp only
    split
    · exact .of_same hpending hstore
    · split
      · rename_i h hfound
        refine .of_eq ?_ ?_
        · have hanswered := (answerOwn_acts (r.checkNonce interest).2 h).pending
          rw [hanswered, hpending]
        · have hanswered := congrArg Cache.store (cache_answerOwn (r.checkNonce interest).2 h)
          change ((r.checkNonce interest).2.answerOwn h).store = _ at hanswered
          rw [hanswered]
          change ((r.checkNonce interest).2.store.modify h _).entries.others _ _ = _
          rw [hstore]
          exact others_creditHit (Nat.le_of_lt hr.store) hfound fun _ => rfl
      · refine .of_eq ?_ ?_
        · rw [pending_recordOwn, hpending]
          cases hfound : r.pending.findSame? interest with
          | some h =>
            obtain ⟨e, hget, hfamily⟩ := family_of_findSame (Nat.le_of_lt hr.pending) hfound
            exact SlotTable.others_modify hget hfamily hfamily
          | none => exact SlotTable.others_insert rfl
        · have hrecorded : ((r.checkNonce interest).2.recordOwn interest).store = r.store :=
            (congrArg Cache.store (cache_recordOwn _ interest)).trans hstore
          rw [hrecorded]

/-! ## Content -/

omit [Scheduler σ] [CacheStrategy κ] in
lemma Serves.others_pending {r r' : Relay σ κ} {content : Packet} (h : r.Serves content r') :
    r'.pending.others PendingInterest.family content.suite =
      r.pending.others PendingInterest.family content.suite := by
  apply SlotTable.others_of_filter h.toList_pending
  intro e hkeeps
  exact family_of_satisfies (by simpa using hkeeps)

omit [CacheStrategy κ] in
lemma length_slots_servePending (r : Relay σ κ) (h : Handle) :
    (r.servePending h).2.store.entries.slots.length = r.store.entries.slots.length := by
  cases hget : r.store.get? h with
  | none => rw [r.servePending_of_none hget]
  | some copy =>
    rw [r.store_servePending hget]
    exact SlotTable.length_slots_modify _ _ _

lemma servePending_spares {r : Relay σ κ} {h : Handle} {copy : CachedContent}
    (hget : r.store.get? h = some copy) :
    r.Spares (r.servePending h).2 copy.family Adding := by
  refine .of_eq (r.servePending_serves hget).others_pending ?_
  rw [r.store_servePending hget]
  exact SlotTable.others_modify hget rfl rfl

omit [Scheduler σ] in
/-- New content takes no more than the places of others. -/
lemma others_add_sublist (hκ : CacheStrategy.OnlyRemoves κ) (s : ContentStore)
    (entry : CachedContent) (strategy : Option κ) :
    ((s.add entry strategy).store.entries.others CachedContent.family entry.family).Sublist
      (s.entries.others CachedContent.family entry.family) := by
  unfold SlotTable.others
  rcases s.add_cases hκ entry strategy with hstored | hrefused
  · obtain ⟨kept, hkept, hentries⟩ := hstored.entries
    rw [hentries, List.filter_append]
    simpa using hkept.filter _
  · exact hrefused.entries.filter _

/-- The content is cached, or the store stays as it was. -/
lemma acceptContent_spares {r : Relay σ κ} (hl : r.Linked)
    {staleCopy : Option Handle} {content : Packet}
    (hcopy : ∀ h, staleCopy = some h → ∃ copy, r.store.get? h = some copy ∧
      copy.family = content.suite) :
    r.Spares (r.acceptContent staleCopy content) content.suite (staleCopy = none) := by
  have hpending := (r.acceptContent_serves staleCopy content).others_pending
  have hstore := store_acceptContent hl content staleCopy
  split at hstore
  · cases staleCopy with
    | some h =>
      obtain ⟨copy, hget, hfamily⟩ := hcopy h rfl
      refine .of_eq hpending ?_
      rw [hstore]
      exact SlotTable.others_modify hget hfamily rfl
    | none =>
      refine ⟨hpending, fun hadding => absurd rfl hadding, fun hκ => ?_⟩
      rw [hstore]
      exact others_add_sublist hκ r.store
        (r.credited content { packet := content, lastUsed := r.clock }) (r.admission content).2
  · exact .of_eq hpending (by rw [hstore])

lemma answerContent_spares {r : Relay σ κ} (hl : r.Linked)
    (hr : r.Covered) (content : Packet) :
    r.Spares (r.answerContent content) content.suite
      (r.store.findExact? content.name = none) := by
  have hcopy : ∀ h, r.store.findExact? content.name = some h →
      ∃ copy, r.store.get? h = some copy ∧ copy.family = content.suite :=
    fun _ => family_of_findExact (Nat.le_of_lt hr.store)
  unfold answerContent
  cases hfound : r.store.findExact? content.name with
  | none =>
    rw [hfound] at hcopy
    exact acceptContent_spares hl hcopy
  | some h =>
    obtain ⟨copy, hget, hfamily⟩ := hcopy h hfound
    rw [hfound] at hcopy
    dsimp only
    split
    · exact acceptContent_spares hl hcopy
    · rw [← hfamily]
      exact servePending_spares hget

lemma handleContent_spares {r : Relay σ κ} (hl : r.Linked)
    (hr : r.Covered) (id : FaceId) (content : Packet) :
    r.Spares (r.handleContent id content).2 content.suite
      (r.store.findExact? content.name = none) := by
  rcases r.handleContent_cases id content with ⟨-, hsame⟩ | ⟨-, -, hanswered⟩
  · rw [hsame]
    exact .of_same rfl rfl
  · have hreceived := r.contentReceived_acts id
    rw [hanswered]
    have hcovered : (r.contentReceived id).Covered := ⟨hr.store, hr.pending⟩
    have hspares := answerContent_spares (hl.of_keeps hreceived.toKeepsFaces) hcovered content
    have hsame : r.Spares (r.contentReceived id) content.suite
        (r.store.findExact? content.name = none) := .of_same rfl rfl
    exact hsame.trans hspares

omit [Scheduler σ] in
/-- Content is refused if there is a copy of it, and then nothing goes. -/
lemma addToCache_spares (r : Relay σ κ) (content : Packet) :
    r.Spares (r.addToCache content).2 content.suite (r.store.findExact? content.name = none) where
  pending := rfl
  cached hcopy := by
    let entry : CachedContent := { packet := content, lastUsed := r.clock }
    have hadds := r.store.adds entry r.strategy
    change (r.store.add entry r.strategy).store.entries.others _ _ = _
    generalize r.store.add entry r.strategy = added at hadds ⊢
    cases hadds with
    | present _ => rfl
    | roomy hnew _ => exact absurd hnew hcopy
    | crowded hnew _ _ => exact absurd hnew hcopy
    | cleared hnew _ _ => exact absurd hnew hcopy
  kept hκ := others_add_sublist hκ r.store { packet := content, lastUsed := r.clock } r.strategy

omit [Scheduler σ] in
/-- Content that was added is found by the handle that was given out. -/
lemma get?_of_addToCache {r m : Relay σ κ} {content : Packet} {h : Handle}
    (hadded : r.addToCache content = (.ok h, m))
    (hsize : m.store.entries.slots.length ≤ UInt32.size) :
    m.store.get? h = some { packet := content, lastUsed := r.clock } := by
  let entry : CachedContent := { packet := content, lastUsed := r.clock }
  have hadds := r.store.adds entry r.strategy
  have hresult : (r.store.add entry r.strategy).result = .ok h := congrArg Prod.fst hadded
  have hstore : (r.store.add entry r.strategy).store = m.store :=
    congrArg (fun done => done.2.store) hadded
  have hfound : ∀ rest : ContentStore, (rest.insert entry).2.entries.slots.length ≤ UInt32.size →
      (rest.insert entry).2.get? (rest.insert entry).1 = some entry := by
    intro rest hslots
    apply SlotTable.get?_insert_self
    have hlength : (rest.insert entry).2.entries.slots.length = rest.entries.slots.length + 1 :=
      rest.entries.length_slots_insert entry
    omega
  rw [← hstore] at hsize ⊢
  generalize r.store.add entry r.strategy = added at hadds hresult hsize ⊢
  cases hadds with
  | present _ => cases hresult
  | roomy _ _ =>
    cases hresult
    exact hfound r.store hsize
  | crowded _ _ _ => cases hresult
  | cleared _ _ _ =>
    cases hresult
    exact hfound _ hsize

lemma get?_of_addContent {r m : Relay σ κ} {content : Packet} {h : Handle}
    (hadded : r.addToCache content = (.ok h, m)) (hafter : (r.addContent content).2.Covered) :
    m.store.get? h = some { packet := content, lastUsed := r.clock } := by
  apply get?_of_addToCache hadded
  have hsize := hafter.store
  unfold addContent at hsize
  rw [hadded] at hsize
  exact Nat.le_of_lt (m.length_slots_servePending h ▸ hsize)

lemma addContent_spares {r : Relay σ κ} {content : Packet}
    (hafter : (r.addContent content).2.Covered) :
    r.Spares (r.addContent content).2 content.suite
      (r.store.findExact? content.name = none) := by
  have hadded := r.addToCache_spares content
  rcases hm : r.addToCache content with ⟨e | h, m⟩
  · rw [hm] at hadded
    unfold addContent
    rw [hm]
    exact hadded
  · have hget := get?_of_addContent hm hafter
    rw [hm] at hadded
    unfold addContent
    rw [hm]
    exact hadded.trans (servePending_spares hget)

lemma dispatch_spares {r : Relay σ κ} (hl : r.Linked)
    (hr : r.Covered) (id : FaceId) (packet : Packet) :
    r.Spares (r.dispatch id packet).2 packet.suite
      (packet.isInterest = false ∧ r.store.findExact? packet.name = none) := by
  unfold dispatch
  cases hkind : packet.kind with
  | interest => exact handleInterest_spares hr id packet
  | content =>
    have hcontent : packet.isInterest = false := by simp [Packet.isInterest, hkind]
    exact (handleContent_spares hl hr id packet).weaken fun hnew => ⟨hcontent, hnew⟩

lemma receive_spares {r : Relay σ κ} (hl : r.Linked)
    (hr : r.Covered) {decode : Bytes → Except Error Packet} {packet : Packet} (bytes : Bytes)
    (hdecode : decode bytes = .ok packet) (interface : Nat) (peer : Address) :
    r.Spares (r.receive decode interface peer bytes).2 packet.suite
      (packet.isInterest = false ∧ r.store.findExact? packet.name = none) := by
  unfold receive
  split
  · exact .of_same rfl rfl
  · have hface := (r.getFace_sends (some interface) (some peer)).toKeeps
    rw [hdecode]
    dsimp only
    rcases hm : r.getFace (some interface) (some peer) with ⟨e | id, m⟩
    · rw [hm] at hface
      exact .of_same hface.pending hface.store
    · rw [hm] at hface
      have hcovered : m.Covered := by
        refine ⟨?_, ?_⟩
        · rw [hface.store]
          exact hr.store
        · rw [hface.pending]
          exact hr.pending
      have hspares := dispatch_spares (hl.of_keeps hface.toKeepsFaces) hcovered id packet
      rw [hface.store] at hspares
      exact (Spares.of_same hface.pending hface.store).trans hspares

end

end Relay

/-! ## Operations -/

namespace Operation

variable {σ κ : Type}

/-- The packet that an operation deals with. -/
def brings? : Operation σ κ → Relay σ κ → Option Packet
  | receive decode _ _ bytes, _ => (decode bytes).toOption
  | dispatch _ packet, _ => some packet
  | handleInterest _ interest, _ => some interest
  | expressInterest interest, _ => some interest
  | handleContent _ content, _ => some content
  | interestPropagate h, r => (r.pending.get? h).map PendingInterest.packet
  | interestBroadcast h, r => (r.pending.get? h).map PendingInterest.packet
  | addToCache content, _ => some content
  | addContent content, _ => some content
  | servePending h, r => (r.store.get? h).map CachedContent.packet
  | _, _ => none

variable [Scheduler σ] [CacheStrategy κ] {r : Relay σ κ}

omit [Scheduler σ] [CacheStrategy κ] in
lemma decode_of_brings? {decode : Bytes → Except Error Packet} {interface : Nat} {peer : Address}
    {bytes : Bytes} {packet : Packet}
    (hbrings : (receive decode interface peer bytes : Operation σ κ).brings? r = some packet) :
    decode bytes = .ok packet := by
  cases hdecode : decode bytes with
  | error e => simp [brings?, hdecode, Except.toOption] at hbrings
  | ok decoded => simpa [brings?, hdecode, Except.toOption] using hbrings

/-- The operation may take the content into the store. -/
def MayAdd (op : Operation σ κ) (r : Relay σ κ) (content : Packet) : Prop :=
  op.asks? = none ∧ r.store.findExact? content.name = none

lemma spares_run (hl : r.Linked) (hr : r.Covered) {op : Operation σ κ}
    (hafter : (op.run r).Covered) {packet : Packet} (hbrings : op.brings? r = some packet) :
    r.Spares (op.run r) packet.suite (op.MayAdd r packet) := by
  cases op with
  | receive decode interface peer bytes =>
    have hdecode := decode_of_brings? hbrings
    refine (Relay.receive_spares hl hr bytes hdecode interface peer).weaken ?_
    rintro ⟨hcontent, hnew⟩
    exact ⟨by simp [asks?, hdecode, Except.toOption, hcontent], hnew⟩
  | dispatch id brought =>
    obtain rfl := Option.some.inj hbrings
    refine (Relay.dispatch_spares hl hr id brought).weaken ?_
    rintro ⟨hcontent, hnew⟩
    exact ⟨by simp [asks?, hcontent], hnew⟩
  | handleInterest id interest =>
    obtain rfl := Option.some.inj hbrings
    exact Relay.handleInterest_spares hr id interest
  | expressInterest interest =>
    obtain rfl := Option.some.inj hbrings
    exact Relay.expressInterest_spares hr interest
  | handleContent id content =>
    obtain rfl := Option.some.inj hbrings
    exact (Relay.handleContent_spares hl hr id content).weaken fun hnew => ⟨rfl, hnew⟩
  | interestPropagate h =>
    have hkeeps := r.interestPropagate_keeps h
    exact .of_same hkeeps.pending hkeeps.store
  | interestBroadcast h =>
    have hkeeps := r.interestBroadcast_keeps h
    exact .of_same hkeeps.pending hkeeps.store
  | addToCache content =>
    obtain rfl := Option.some.inj hbrings
    exact (r.addToCache_spares content).weaken fun hnew => ⟨rfl, hnew⟩
  | addContent content =>
    obtain rfl := Option.some.inj hbrings
    exact (Relay.addContent_spares hafter).weaken fun hnew => ⟨rfl, hnew⟩
  | servePending h =>
    obtain ⟨copy, hget, rfl⟩ := Option.map_eq_some_iff.mp hbrings
    exact Relay.servePending_spares hget
  | _ => cases hbrings

end Operation

/-! ## Answers stay in the family -/

namespace Relay

variable {σ κ : Type}

lemma family_of_hit? {r : Relay σ κ} (hsize : r.store.entries.slots.length ≤ UInt32.size)
    {interest : Packet} {c : CachedContent} (hit : r.hit? interest = some c) :
    c.family = interest.suite := by
  unfold hit? at hit
  split at hit
  · cases hit
  · obtain ⟨h, hlookup, hget⟩ := Option.bind_eq_some_iff.mp hit
    obtain ⟨c', hget', hfamily⟩ := family_of_lookupCached hsize hlookup
    obtain rfl : c' = c := Option.some.inj (hget'.symm.trans hget)
    exact hfamily

/-- Content is answered by itself or by a copy of the same name. -/
lemma suite_of_answering {r : Relay σ κ} (hsize : r.store.entries.slots.length ≤ UInt32.size)
    {content answer : Packet} (h : r.answering content = some answer) :
    answer.suite = content.suite := by
  unfold answering at h
  cases hfound : r.store.findExact? content.name with
  | none =>
    rw [hfound] at h
    exact congrArg Packet.suite (Option.some.inj h).symm
  | some hd =>
    obtain ⟨copy, hget, hfamily⟩ := family_of_findExact hsize hfound
    simp only [hfound, hget, Option.any_some, Option.map_some] at h
    split at h
    · exact congrArg Packet.suite (Option.some.inj h).symm
    · rw [← Option.some.inj h]
      exact hfamily

lemma suite_of_servedFor? {r : Relay σ κ} (hsize : r.store.entries.slots.length ≤ UInt32.size)
    {id : FaceId} {content answer : Packet} (h : r.servedFor? id content = some answer) :
    answer.suite = content.suite := by
  unfold servedFor? at h
  split at h
  · cases h
  · exact suite_of_answering hsize h

lemma family_of_sourceFor? {r : Relay σ κ} (hsize : r.store.entries.slots.length ≤ UInt32.size)
    {id : FaceId} {packet : Packet} {c : CachedContent}
    (hc : r.sourceFor? id packet = some c) : c.family = packet.suite := by
  cases hkind : packet.isInterest with
  | true =>
    simp only [sourceFor?, hkind, if_true, Option.ite_none_left_eq_some] at hc
    exact family_of_hit? hsize hc.2
  | false => exact suite_of_servedFor? hsize (servedFor?_of_sourceFor? hkind hc)

lemma answerFor?_of_servedFor? {r : Relay σ κ} {id : FaceId} {packet answer : Packet}
    (h : r.servedFor? id packet = some answer) : r.answerFor? id packet = some answer := by
  cases hkind : packet.isInterest with
  | true => simp [servedFor?, hkind] at h
  | false => rw [answerFor?_of_content hkind, h]

lemma suite_of_answerFor? {r : Relay σ κ} (hsize : r.store.entries.slots.length ≤ UInt32.size)
    {id : FaceId} {packet answer : Packet} (h : r.answerFor? id packet = some answer) :
    answer.suite = packet.suite := by
  rcases Option.or_eq_some_iff.mp h with hsource | ⟨-, hserved⟩
  · obtain ⟨c, hc, rfl⟩ := Option.map_eq_some_iff.mp hsource
    exact family_of_sourceFor? hsize hc
  · exact suite_of_servedFor? hsize hserved

end Relay

namespace Operation

variable {σ κ : Type} [CacheStrategy κ] {r : Relay σ κ}

lemma suite_of_answer? [Scheduler σ] (hr : r.Covered) {op : Operation σ κ}
    (hafter : (op.run r).Covered) {packet answer : Packet} (hbrings : op.brings? r = some packet)
    (hanswer : op.answer? r = some answer) : answer.suite = packet.suite := by
  cases op with
  | receive decode interface peer bytes =>
    have hdecode := decode_of_brings? hbrings
    have hface := (r.getFace_sends (some interface) (some peer)).store
    unfold answer? source? served? at hanswer
    dsimp only at hanswer
    split at hanswer
    · cases hanswer
    · rw [hdecode] at hanswer
      rcases hm : r.getFace (some interface) (some peer) with ⟨e | id, m⟩
      · rw [hm] at hanswer
        cases hanswer
      · rw [hm] at hface hanswer
        exact Relay.suite_of_answerFor? (hface ▸ (Nat.le_of_lt hr.store)) hanswer
  | dispatch id brought =>
    obtain rfl := Option.some.inj hbrings
    exact Relay.suite_of_answerFor? (Nat.le_of_lt hr.store) hanswer
  | handleInterest id interest =>
    obtain rfl := Option.some.inj hbrings
    rw [Relay.answer?_handleInterest] at hanswer
    obtain ⟨c, hc, rfl⟩ := Option.map_eq_some_iff.mp hanswer
    exact Relay.family_of_sourceFor? (Nat.le_of_lt hr.store) (Option.ite_none_right_eq_some.mp hc).2
  | expressInterest interest =>
    obtain rfl := Option.some.inj hbrings
    rw [Relay.answer?_expressInterest] at hanswer
    obtain ⟨c, hc, rfl⟩ := Option.map_eq_some_iff.mp hanswer
    exact Relay.family_of_hit? (Nat.le_of_lt hr.store) (Option.ite_none_right_eq_some.mp hc).2
  | handleContent id content =>
    obtain rfl := Option.some.inj hbrings
    rw [Relay.answer?_handleContent] at hanswer
    exact Relay.suite_of_servedFor? (Nat.le_of_lt hr.store) hanswer
  | interestPropagate h => cases hanswer
  | interestBroadcast h => cases hanswer
  | addToCache content => cases hanswer
  | addContent content =>
    obtain rfl := Option.some.inj hbrings
    unfold answer? source? served? at hanswer
    dsimp only at hanswer
    rcases hm : r.addToCache content with ⟨e | h, m⟩
    · rw [hm] at hanswer
      cases hanswer
    · have hget := Relay.get?_of_addContent hm hafter
      rw [hm] at hanswer
      simp only [hget, Option.map_some, Option.some_or, Option.some.injEq] at hanswer
      rw [← hanswer]
  | servePending h =>
    rw [Relay.answer?_servePending] at hanswer
    exact congrArg Packet.suite (Option.some.inj (hanswer.symm.trans hbrings))
  | _ => cases hbrings

lemma answer?_of_served? {op : Operation σ κ} {content : Packet}
    (hserved : op.served? r = some content) : op.answer? r = some content := by
  cases op with
  | receive decode interface peer bytes =>
    unfold served? at hserved
    unfold answer? source? served?
    dsimp only at hserved ⊢
    split at hserved
    · cases hserved
    · rename_i hlength
      rw [if_neg hlength, if_neg hlength]
      cases hdecode : decode bytes with
      | error e =>
        rw [hdecode] at hserved
        cases hserved
      | ok packet =>
        rw [hdecode] at hserved
        rcases hm : r.getFace (some interface) (some peer) with ⟨e | id, m⟩
        · rw [hm] at hserved
          cases hserved
        · rw [hm] at hserved
          exact Relay.answerFor?_of_servedFor? hserved
  | dispatch id packet => exact Relay.answerFor?_of_servedFor? hserved
  | handleContent id content => rwa [Relay.answer?_handleContent]
  | addContent content =>
    unfold served? at hserved
    unfold answer? source? served?
    dsimp only at hserved ⊢
    rcases hm : r.addToCache content with ⟨e | h, m⟩
    · rw [hm] at hserved
      cases hserved
    · rw [hm] at hserved
      simp only [Option.or_self, hserved]
  | servePending h => rwa [Relay.answer?_servePending]
  | _ => cases hserved

/-- With other routes of other families, the same comes of a packet. -/
lemma run_withTable [Scheduler σ] (hr : r.Covered) {op : Operation σ κ} {packet : Packet}
    (hbrings : op.brings? r = some packet) {t : ForwardingTable}
    (hown : t.own packet.suite = r.table.own packet.suite) :
    op.run (r.withTable t) = (op.run r).withTable t := by
  cases op with
  | receive decode interface peer bytes =>
    exact Relay.receive_withTable hr.pending (decode_of_brings? hbrings) interface peer hown
  | dispatch id brought =>
    obtain rfl := Option.some.inj hbrings
    exact Relay.dispatch_withTable hr.pending id hown
  | handleInterest id interest =>
    obtain rfl := Option.some.inj hbrings
    exact Relay.handleInterest_withTable hr.pending id hown
  | expressInterest interest =>
    obtain rfl := Option.some.inj hbrings
    exact Relay.expressInterest_withTable hr.pending hown
  | handleContent id content => exact r.handleContent_withTable t id content
  | interestPropagate h =>
    apply Relay.interestPropagate_withTable
    intro e hget
    have hpacket : e.packet = packet := by simpa [brings?, hget] using hbrings
    rw [PendingInterest.family, hpacket]
    exact hown
  | interestBroadcast h => exact r.interestBroadcast_withTable t h
  | addToCache content => exact congrArg Prod.snd (r.addToCache_withTable t content)
  | addContent content => exact congrArg Prod.snd (r.addContent_withTable t content)
  | servePending h => exact congrArg Prod.snd (r.servePending_withTable t h)
  | _ => cases hbrings

/-- The operation deals with one family only. It leaves the entries of the others alone, and their
routes have no part in what it does. It answers with no packet of theirs, and the content it serves
goes to those alone who asked for content of this family. -/
structure KeepsToFamily [Scheduler σ] (op : Operation σ κ) (r : Relay σ κ) (packet : Packet) :
    Prop where
  spares : r.Spares (op.run r) packet.suite (op.MayAdd r packet)
  routes : ∀ t : ForwardingTable, t.own packet.suite = r.table.own packet.suite →
    op.run (r.withTable t) = (op.run r).withTable t
  source : ∀ c, op.source? r = some c → c.family = packet.suite
  answer : ∀ answer, op.answer? r = some answer → answer.suite = packet.suite
  answers : ∀ x ∈ op.handings r, x.Answers (op.answer? r)
  served : ∀ content, op.served? r = some content → op.AnswersOnce r content ∧
    ∀ e ∈ r.pending.toList, r.satisfies content e = true → e.family = packet.suite

lemma keepsToFamily [Scheduler σ] (hl : r.Linked) (hr : r.Covered) {op : Operation σ κ}
    (hafter : (op.run r).Covered) {packet : Packet} (hbrings : op.brings? r = some packet) :
    op.KeepsToFamily r packet where
  spares := spares_run hl hr hafter hbrings
  routes _ hown := run_withTable hr hbrings hown
  source c hc := by
    apply suite_of_answer? hr hafter hbrings
    simp [answer?, hc]
  answer _ hanswer := suite_of_answer? hr hafter hbrings hanswer
  answers := answers_handings hl op
  served content hserved := by
    refine ⟨answersOnce hl hserved, ?_⟩
    intro e _ hsat
    have hcontent := suite_of_answer? hr hafter hbrings (answer?_of_served? hserved)
    exact (Relay.family_of_satisfies hsat).trans hcontent

/-- The name whose routes an operation changes. -/
def changesRoute? : Operation σ κ → Option Name
  | addRoute name _ => some name
  | addTap name _ => some name
  | removeRoute name _ => name
  | _ => none

lemma others_run [Scheduler σ] {op : Operation σ κ} {name : Name}
    (hchanges : op.changesRoute? = some name) :
    (op.run r).table.others name.suite = r.table.others name.suite := by
  cases op with
  | addRoute name face =>
    obtain rfl := Option.some.inj hchanges
    exact r.others_addRoute name face
  | addTap name tap =>
    obtain rfl := Option.some.inj hchanges
    exact r.table.others_addTap name tap
  | removeRoute name face =>
    obtain rfl : name = some _ := hchanges
    exact r.others_removeRoute _ face
  | _ => cases hchanges

end Operation

lemma Relay.addToCache_eq_alreadyPresent_iff {σ κ : Type} [CacheStrategy κ] (r : Relay σ κ)
    (content : Packet) :
    (r.addToCache content).1 = .error (.alreadyPresent .content) ↔
      content.name ∈ r.store.names := by
  let entry : CachedContent := { packet := content, lastUsed := r.clock }
  have hadds := r.store.adds entry r.strategy
  change (r.store.add entry r.strategy).result = _ ↔ _
  rw [← not_iff_not, ← ContentStore.findExact?_eq_none_iff]
  change _ ↔ r.store.findExact? entry.name = none
  generalize r.store.add entry r.strategy = added at hadds ⊢
  cases hadds with
  | present hfound => simp [hfound]
  | roomy hnew _ => simp [hnew]
  | crowded hnew _ _ => simp [hnew]
  | cleared hnew _ _ => simp [hnew]

lemma Relay.addContent_eq_alreadyPresent_iff {σ κ : Type} [Scheduler σ] [CacheStrategy κ]
    (r : Relay σ κ) (content : Packet) :
    (r.addContent content).1 = .error (.alreadyPresent .content) ↔
      content.name ∈ r.store.names := by
  rw [← r.addToCache_eq_alreadyPresent_iff]
  unfold addContent
  rcases r.addToCache content with ⟨e | h, m⟩
  · simp
  · simp

end NamedRelay
