import NamedRelay.Proofs.Failure
import NamedRelay.Proofs.SendingFrame

/-!
# The routes of a packet's own family

Only the routes of its own family cover a name. So the routes of other families have no part in
where an interest is sent, and a relay with other such routes does the same with a packet.
Changing the routes of a name leaves those of other families alone.
-/

namespace NamedRelay

def PendingInterest.family (e : PendingInterest) : Suite :=
  e.packet.suite

lemma PendingInterest.family_addWaiter (e : PendingInterest) (id : FaceId) (now : Timestamp) :
    (e.addWaiter id now).family = e.family := by
  rw [addWaiter_eq]
  rfl

def CachedContent.family (c : CachedContent) : Suite :=
  c.packet.suite

def Route.family (route : Route) : Suite :=
  route.name.suite

namespace ForwardingTable

/-- The routes of one family. -/
def own (s : Suite) (t : ForwardingTable) : List Route :=
  t.routes.filter fun route => route.family == s

/-- The routes of the other families. -/
def others (s : Suite) (t : ForwardingTable) : List Route :=
  t.routes.filter fun route => route.family != s

/-- Only routes of a name's own family cover it. -/
lemma covering_eq (t : ForwardingTable) (name : Name) :
    t.covering name = (t.own name.suite).filter fun route => route.covers name := by
  unfold covering own
  rw [List.filter_filter]
  apply List.filter_congr
  intro route _
  unfold Route.covers Route.family
  cases route.name.suite == name.suite <;> simp

/-! ## Changing routes -/

lemma filter_modify_findIdx {α : Type} {p q : α → Bool} {change : α → α} (items : List α)
    (h : ∀ a, q a = true → p a = false ∧ p (change a) = false) :
    (items.modify (items.findIdx q) change).filter p = items.filter p := by
  induction items with
  | nil => rfl
  | cons a items ih =>
    rw [List.findIdx_cons]
    cases ha : q a with
    | true =>
      obtain ⟨hold, hnew⟩ := h a ha
      change (change a :: items).filter p = _
      rw [List.filter_cons_of_neg (by simp [hnew]), List.filter_cons_of_neg (by simp [hold])]
    | false =>
      change (a :: items.modify (items.findIdx q) change).filter p = _
      rw [List.filter_cons, List.filter_cons, ih]

lemma filter_eraseP {α : Type} {p q : α → Bool} (items : List α)
    (h : ∀ a, q a = true → p a = false) : (items.eraseP q).filter p = items.filter p := by
  induction items with
  | nil => rfl
  | cons a items ih =>
    cases ha : q a with
    | true => rw [List.eraseP_cons_of_pos ha, List.filter_cons_of_neg (by simp [h a ha])]
    | false =>
      rw [List.eraseP_cons_of_neg (by simp [ha]), List.filter_cons, List.filter_cons, ih]

lemma others_modify (t : ForwardingTable) (name : Name) {change : Route → Route}
    (hchange : ∀ route, (change route).name = route.name) :
    (t.modify name change).others name.suite = t.others name.suite := by
  apply filter_modify_findIdx
  intro route hsame
  obtain rfl := (Name.isSame_iff _ _).mp hsame
  simp [Route.family, hchange]

lemma others_add (t : ForwardingTable) (name : Name) (face : FaceId) :
    (t.add name face).2.others name.suite = t.others name.suite := by
  unfold add
  split
  · exact t.others_modify name fun _ => rfl
  · simp [others, Route.family]

lemma others_addTap (t : ForwardingTable) (name : Name) (tap : String) :
    (t.addTap name tap).others name.suite = t.others name.suite := by
  unfold addTap
  split
  · exact t.others_modify name fun _ => rfl
  · simp [others, Route.family]

lemma others_remove {t t' : ForwardingTable} {name : Name} {face : Option FaceId}
    (h : t.remove (some name) face = .ok t') : t'.others name.suite = t.others name.suite := by
  unfold remove at h
  split at h
  · cases h
    apply filter_eraseP
    intro route hselected
    simp only [selects, Option.all_some, Bool.and_eq_true] at hselected
    obtain rfl := (Name.isSame_iff _ _).mp hselected.1
    simp [Route.family]
  · cases h

end ForwardingTable

namespace Relay

variable {σ κ : Type}

lemma others_addRoute (r : Relay σ κ) (name : Name) (face : FaceId) :
    (r.addRoute name face).2.table.others name.suite = r.table.others name.suite := by
  unfold addRoute
  split
  · exact r.table.others_add name face
  · rfl

lemma others_removeRoute (r : Relay σ κ) (name : Name) (face : Option FaceId) :
    (r.removeRoute (some name) face).2.table.others name.suite = r.table.others name.suite := by
  unfold removeRoute
  split
  · rename_i table hremoved
    exact ForwardingTable.others_remove hremoved
  · rfl

/-! ## Routes of other families -/

lemma family_of_findSame {t : PendingTable} (hsize : t.slots.length ≤ UInt32.size)
    {interest : Packet} {h : Handle} (hfound : t.findSame? interest = some h) :
    ∃ e, t.get? h = some e ∧ e.family = interest.suite := by
  obtain ⟨e, hget, hsame⟩ := SlotTable.get?_of_find? hsize hfound
  exact ⟨e, hget, congrArg Request.suite ((Packet.isSameInterest_iff _ _).mp hsame)⟩

/-- The relay with other routes. -/
def withTable (r : Relay σ κ) (t : ForwardingTable) : Relay σ κ :=
  { r with table := t }

lemma withTable_eq (r : Relay σ κ) (t : ForwardingTable) :
    r.withTable t = r.withRest { r.rest with table := t } := rfl

@[simp] lemma store_withTable (r : Relay σ κ) (t : ForwardingTable) :
    (r.withTable t).store = r.store := rfl

@[simp] lemma pending_withTable (r : Relay σ κ) (t : ForwardingTable) :
    (r.withTable t).pending = r.pending := rfl

@[simp] lemma config_withTable (r : Relay σ κ) (t : ForwardingTable) :
    (r.withTable t).config = r.config := rfl

@[simp] lemma strategy_withTable (r : Relay σ κ) (t : ForwardingTable) :
    (r.withTable t).strategy = r.strategy := rfl

@[simp] lemma lookupCached_withTable (r : Relay σ κ) (t : ForwardingTable) (interest : Packet) :
    (r.withTable t).lookupCached interest = r.lookupCached interest := rfl

lemma routesFor_withTable {r : Relay σ κ} {t : ForwardingTable} {e : PendingInterest}
    (hown : t.own e.family = r.table.own e.family) :
    (r.withTable t).routesFor e = r.routesFor e := by
  have hcovering : t.covering e.packet.name = r.table.covering e.packet.name := by
    rw [ForwardingTable.covering_eq, ForwardingTable.covering_eq]
    exact congrArg (List.filter fun route => route.covers e.packet.name) hown
  unfold routesFor
  change (t.covering e.packet.name).filter _ = _
  rw [hcovering]
  rfl

/-- What looks at the rest not at all does not look at the routes. -/
lemma withTable_of_withRest {f : Relay σ κ → Relay σ κ}
    (hf : ∀ r t, f (r.withRest t) = (f r).withRest t) (r : Relay σ κ) (t : ForwardingTable) :
    f (r.withTable t) = (f r).withTable t := by
  have hrest : (f r).rest = r.rest := r.rest_eq_of_withRest (hf r r.rest)
  have hsame : (f r).withRest { r.rest with table := t } = (f r).withTable t := by
    rw [← hrest]
    rfl
  exact (hf r { r.rest with table := t }).trans hsame

section

variable [Scheduler σ]

/-- An interest is sent by the routes of its family alone. -/
lemma propagate_withTable {r : Relay σ κ} {t : ForwardingTable} {e : PendingInterest}
    (hown : t.own e.family = r.table.own e.family) :
    (r.withTable t).propagate e = (r.propagate e).withTable t := by
  have hroutes : (r.withRest { r.rest with table := t }).routesFor e = r.routesFor e :=
    routesFor_withTable hown
  have hsame : (r.propagate e).withRest { r.rest with table := t } =
      (r.propagate e).withTable t := by
    rw [← rest_propagate r e]
    rfl
  exact (propagate_withRest r { r.rest with table := t } hroutes).trans hsame

/-! ## Content -/

section

variable (r : Relay σ κ) (t : ForwardingTable)

lemma forwardContent_withTable (wire : Bytes) (id : FaceId) :
    (r.withTable t).forwardContent wire id = (r.forwardContent wire id).withTable t := by
  apply withTable_of_withRest (f := fun m => m.forwardContent wire id)
  intro m rest
  exact congrArg Prod.snd (offer_withRest
    (m.tally fun c => { c with contentsForwarded := c.contentsForwarded + 1 }) rest .reply id wire)

omit [Scheduler σ] in
lemma deliver_withTable (id : Option FaceId) (content : Packet) :
    (r.withTable t).deliver id content = (r.deliver id content).withTable t := by
  unfold deliver
  change (if r.delivers then _ else _) = _
  split <;> rfl

omit [Scheduler σ] in
lemma foldl_withTable {α : Type} {f : Relay σ κ → α → Relay σ κ}
    (hf : ∀ r a, f (r.withTable t) a = (f r a).withTable t) (items : List α) :
    items.foldl f (r.withTable t) = (items.foldl f r).withTable t :=
  List.foldl_hom (fun m : Relay σ κ => m.withTable t) hf

lemma servePacket_withTable (content : Packet) :
    (r.withTable t).servePacket content =
      ((r.servePacket content).1, (r.servePacket content).2.withTable t) := by
  have hforwarded := (r.withoutSatisfied content).foldl_withTable t
    (f := fun m id => m.forwardContent content.wire id)
    (fun m id => m.forwardContent_withTable t content.wire id) (r.recipients content).network
  have hdelivered := foldl_withTable ((r.recipients content).network.foldl
      (fun m id => m.forwardContent content.wire id) (r.withoutSatisfied content)) t
    (f := fun m id => m.deliver id content)
    (fun m id => m.deliver_withTable t id content) (r.recipients content).deliveries
  rw [← hforwarded] at hdelivered
  exact Prod.ext rfl hdelivered

lemma servePending_withTable (h : Handle) :
    (r.withTable t).servePending h =
      ((r.servePending h).1, (r.servePending h).2.withTable t) := by
  unfold servePending
  rw [store_withTable]
  cases r.store.get? h with
  | none => rfl
  | some entry =>
    dsimp only
    rw [servePacket_withTable]
    rfl

variable [CacheStrategy κ]

omit [Scheduler σ] in
lemma addToCache_withTable (content : Packet) :
    (r.withTable t).addToCache content =
      ((r.addToCache content).1, (r.addToCache content).2.withTable t) := rfl

lemma addContent_withTable (content : Packet) :
    (r.withTable t).addContent content =
      ((r.addContent content).1, (r.addContent content).2.withTable t) := by
  unfold addContent
  rw [addToCache_withTable]
  rcases r.addToCache content with ⟨e | h, m⟩
  · rfl
  · dsimp only
    rw [servePending_withTable]

omit [Scheduler σ] in
lemma askAdmission_withTable (content : Packet) :
    (r.withTable t).askAdmission content =
      ((r.askAdmission content).1, (r.askAdmission content).2.withTable t) := by
  unfold askAdmission
  rw [strategy_withTable]
  cases r.strategy <;> rfl

omit [Scheduler σ] in
lemma cacheServed_withTable (staleCopy : Option Handle) (content : Packet) (served : Recipients) :
    (r.withTable t).cacheServed staleCopy content served =
      (r.cacheServed staleCopy content served).withTable t := by
  cases staleCopy <;> rfl

lemma acceptContent_withTable (staleCopy : Option Handle) (content : Packet) :
    (r.withTable t).acceptContent staleCopy content =
      (r.acceptContent staleCopy content).withTable t := by
  unfold acceptContent
  rw [servePacket_withTable]
  rcases r.servePacket content with ⟨served, m⟩
  dsimp only
  split
  · rfl
  · rw [askAdmission_withTable]
    rcases m.askAdmission content with ⟨_ | _, m'⟩
    · rfl
    · exact m'.cacheServed_withTable t staleCopy content served

lemma answerContent_withTable (content : Packet) :
    (r.withTable t).answerContent content = (r.answerContent content).withTable t := by
  unfold answerContent
  rw [store_withTable]
  cases r.store.findExact? content.name with
  | none => exact r.acceptContent_withTable t none content
  | some h =>
    dsimp only
    split
    · exact r.acceptContent_withTable t (some h) content
    · exact congrArg Prod.snd (r.servePending_withTable t h)

lemma handleContent_withTable (id : FaceId) (content : Packet) :
    ((r.withTable t).handleContent id content).2 = (r.handleContent id content).2.withTable t := by
  rcases r.handleContent_cases id content with ⟨hrefused, hsame⟩ | ⟨hkind, hlive, hanswered⟩
  · rcases (r.withTable t).handleContent_cases id content with ⟨-, hsame'⟩ | ⟨hkind, hlive, -⟩
    · rw [hsame, hsame']
    · rw [hkind, show r.isLive id = true from hlive] at hrefused
      cases hrefused
  · rw [hanswered, handleContent_of_live (r := r.withTable t) hkind hlive]
    exact (r.contentReceived id).answerContent_withTable t content

end

/-! ## Interests -/

/-- It is noted that a cached entry answers the relay's own interest. -/
def claimHit (r : Relay σ κ) (h : Handle) : Relay σ κ :=
  { r.tally fun c => { c with cacheHits := c.cacheHits + 1 } with
    store := r.store.modify h fun e => ((e.recordServed 1).touch r.clock).pinIf true }

omit [Scheduler σ] in
lemma answerOwn_eq (r : Relay σ κ) (h : Handle) :
    r.answerOwn h = ((r.claimHit h).store.get? h).elim (r.claimHit h) fun entry =>
      (r.claimHit h).deliver none entry.packet := by
  unfold answerOwn
  dsimp only
  split
  · rename_i hnone
    rw [show (r.claimHit h).store.get? h = none from hnone]
    rfl
  · rename_i entry hget
    rw [show (r.claimHit h).store.get? h = some entry from hget]
    rfl

section

variable (r : Relay σ κ) (t : ForwardingTable)

omit [Scheduler σ] in
lemma checkNonce_withTable (packet : Packet) :
    (r.withTable t).checkNonce packet =
      ((r.checkNonce packet).1, (r.checkNonce packet).2.withTable t) := by
  unfold checkNonce
  cases packet.nonce with
  | none => rfl
  | some nonce =>
    dsimp only
    rw [config_withTable]
    cases r.config.nonceCheck <;> rfl

lemma answerFromCache_withTable (face : Face σ) (h : Handle) :
    (r.withTable t).answerFromCache face h = (r.answerFromCache face h).withTable t := by
  have hcredited : (r.withTable t).creditHit h = (r.creditHit h).withTable t := rfl
  rw [answerFromCache_eq, answerFromCache_eq, hcredited, store_withTable]
  cases (r.creditHit h).store.get? h with
  | none => rfl
  | some entry =>
    dsimp only
    split
    · exact (r.creditHit h).deliver_withTable t (some face.id) entry.packet
    · exact (r.creditHit h).forwardContent_withTable t entry.packet.wire face.id

omit [Scheduler σ] in
lemma answerOwn_withTable (h : Handle) :
    (r.withTable t).answerOwn h = (r.answerOwn h).withTable t := by
  have hclaimed : (r.withTable t).claimHit h = (r.claimHit h).withTable t := rfl
  rw [answerOwn_eq, answerOwn_eq, hclaimed, store_withTable]
  cases (r.claimHit h).store.get? h with
  | none => rfl
  | some entry => exact (r.claimHit h).deliver_withTable t none entry.packet

lemma interestBroadcast_withTable (h : Handle) :
    (r.withTable t).interestBroadcast h = (r.interestBroadcast h).withTable t := by
  unfold interestBroadcast
  rw [pending_withTable]
  cases r.pending.get? h with
  | none => rfl
  | some e =>
    exact withTable_of_withRest (f := fun m => m.broadcast e.packet.wire e.packet.suite)
      (fun m rest => m.broadcast_withRest rest e.packet.wire e.packet.suite) r t

end

variable {r : Relay σ κ} {t : ForwardingTable}

lemma interestPropagate_withTable {h : Handle}
    (hown : ∀ e, r.pending.get? h = some e → t.own e.family = r.table.own e.family) :
    (r.withTable t).interestPropagate h = (r.interestPropagate h).withTable t := by
  unfold interestPropagate
  rw [pending_withTable]
  cases hget : r.pending.get? h with
  | none => rfl
  | some e => exact propagate_withTable (hown e hget)

lemma openPending_withTable (hroom : r.pending.slots.length < UInt32.size) {e : PendingInterest}
    (hown : t.own e.family = r.table.own e.family) :
    (r.withTable t).openPending e = (r.openPending e).withTable t := by
  apply interestPropagate_withTable (r := { r with pending := (r.pending.insert e).2 })
  intro opened hget
  have hnew := SlotTable.get?_insert_self hroom e
  obtain rfl : e = opened := Option.some.inj (hnew.symm.trans hget)
  exact hown

lemma recordInterest_withTable (hroom : r.pending.slots.length < UInt32.size) (face : Face σ)
    {interest : Packet} (hown : t.own interest.suite = r.table.own interest.suite) :
    (r.withTable t).recordInterest face interest =
      (r.recordInterest face interest).withTable t := by
  unfold recordInterest
  rw [pending_withTable]
  cases hfound : r.pending.findSame? interest with
  | some h =>
    obtain ⟨e, hget, hfamily⟩ := family_of_findSame (Nat.le_of_lt hroom) hfound
    dsimp only
    split
    -- What is sent again is the interest of the entry that was joined, not the one that came in.
    · apply interestPropagate_withTable
        (r := { r with pending := r.pending.modify h fun e => e.addWaiter face.id r.clock })
      intro joined hjoined
      rw [SlotTable.get?_modify_self, hget] at hjoined
      have hsame : joined.family = interest.suite := by
        rw [← Option.some.inj hjoined]
        exact (e.family_addWaiter face.id r.clock).trans hfamily
      rw [hsame]
      exact hown
    · rfl
  | none => exact openPending_withTable hroom hown

lemma recordOwn_withTable (hroom : r.pending.slots.length < UInt32.size) {interest : Packet}
    (hown : t.own interest.suite = r.table.own interest.suite) :
    (r.withTable t).recordOwn interest = (r.recordOwn interest).withTable t := by
  unfold recordOwn
  rw [pending_withTable]
  cases r.pending.findSame? interest with
  | some h => rfl
  | none => exact openPending_withTable hroom hown

lemma takeInterest_withTable (hroom : r.pending.slots.length < UInt32.size) (face : Face σ)
    {interest : Packet} (hown : t.own interest.suite = r.table.own interest.suite) :
    (r.withTable t).takeInterest face interest =
      (r.takeInterest face interest).withTable t := by
  have hchecked := r.checkNonce_acts interest
  rw [← hchecked.pending] at hroom
  rw [← hchecked.table] at hown
  rw [takeInterest_eq, takeInterest_eq, checkNonce_withTable, lookupCached_withTable]
  dsimp only
  split
  · rfl
  · cases r.lookupCached interest with
    | some h => exact answerFromCache_withTable _ t face h
    | none => exact recordInterest_withTable hroom face hown

lemma handleInterest_withTable (hroom : r.pending.slots.length < UInt32.size) (id : FaceId)
    {interest : Packet} (hown : t.own interest.suite = r.table.own interest.suite) :
    ((r.withTable t).handleInterest id interest).2 =
      (r.handleInterest id interest).2.withTable t := by
  rcases r.handleInterest_cases id interest with ⟨hrefused, hsame⟩ | ⟨face, hkind, hface, htaken⟩
  · rcases (r.withTable t).handleInterest_cases id interest with
      ⟨-, hsame'⟩ | ⟨face, hkind, hface, -⟩
    · rw [hsame, hsame']
    · rw [hkind, isLive_of_get? (r := r) hface] at hrefused
      cases hrefused
  · rcases (r.withTable t).handleInterest_cases id interest with
      ⟨hrefused, -⟩ | ⟨face', -, hface', htaken'⟩
    · rw [hkind, show (r.withTable t).isLive id = r.isLive id from rfl, isLive_of_get? hface]
        at hrefused
      cases hrefused
    · obtain rfl : face' = face := Option.some.inj (hface'.symm.trans hface)
      rw [htaken, htaken']
      exact takeInterest_withTable (r := r.interestReceived id) hroom face' hown

lemma expressInterest_withTable (hroom : r.pending.slots.length < UInt32.size)
    {interest : Packet} (hown : t.own interest.suite = r.table.own interest.suite) :
    ((r.withTable t).expressInterest interest).2 =
      (r.expressInterest interest).2.withTable t := by
  cases hkind : interest.isInterest with
  | false => rw [expressInterest_of_content _ hkind, expressInterest_of_content _ hkind]
  | true =>
    have hchecked := r.checkNonce_acts interest
    rw [← hchecked.pending] at hroom
    rw [← hchecked.table] at hown
    rw [expressInterest_eq _ hkind, expressInterest_eq _ hkind, checkNonce_withTable,
      lookupCached_withTable]
    dsimp only
    split
    · rfl
    · cases r.lookupCached interest with
      | some h => exact answerOwn_withTable _ t h
      | none => exact recordOwn_withTable hroom hown

/-! ## Packets -/

omit [Scheduler σ] in
lemma getFace_withTable (r : Relay σ κ) (t : ForwardingTable) (interface : Option Nat)
    (peer : Option Address) :
    (r.withTable t).getFace interface peer =
      ((r.getFace interface peer).1, (r.getFace interface peer).2.withTable t) := by
  have hface : ((r.withTable t).getFace interface peer).1 = (r.getFace interface peer).1 := by
    rw [withTable_eq, getFace_withRest]
  have hleft := withTable_of_withRest (f := fun m => (m.getFace interface peer).2)
    (fun m rest => congrArg Prod.snd (m.getFace_withRest rest interface peer)) r t
  exact Prod.ext hface hleft

variable [CacheStrategy κ]

lemma dispatch_withTable (hroom : r.pending.slots.length < UInt32.size) (id : FaceId)
    {packet : Packet} (hown : t.own packet.suite = r.table.own packet.suite) :
    ((r.withTable t).dispatch id packet).2 = (r.dispatch id packet).2.withTable t := by
  unfold dispatch
  cases packet.kind with
  | interest => exact handleInterest_withTable hroom id hown
  | content => exact r.handleContent_withTable t id packet

lemma receive_withTable (hroom : r.pending.slots.length < UInt32.size)
    {decode : Bytes → Except Error Packet} {bytes : Bytes} {packet : Packet}
    (hdecode : decode bytes = .ok packet) (interface : Nat) (peer : Address)
    (hown : t.own packet.suite = r.table.own packet.suite) :
    ((r.withTable t).receive decode interface peer bytes).2 =
      (r.receive decode interface peer bytes).2.withTable t := by
  have hface := (r.getFace_sends (some interface) (some peer)).toKeeps
  unfold receive
  split
  · rfl
  · rw [hdecode, getFace_withTable]
    dsimp only
    rcases hm : r.getFace (some interface) (some peer) with ⟨e | id, m⟩
    · rfl
    · rw [hm] at hface
      rw [← hface.pending] at hroom
      rw [← hface.table] at hown
      exact dispatch_withTable hroom id hown

end

end Relay

end NamedRelay
