import NamedRelay.Proofs.CacheSteps
import NamedRelay.Proofs.Freshness

/-!
# Interests and content are kept apart

A packet that comes in is asked for its kind: no content becomes pending, and no interest is cached.
So what is sent along the routes is an interest, and answers are content. Only adding to the store
asks nothing: an interest that is added is cached as well, and answers like content from then on.
-/

namespace NamedRelay

def PendingTable.packets (t : PendingTable) : List Packet :=
  t.toList.map PendingInterest.packet

def ContentStore.packets (s : ContentStore) : List Packet :=
  s.entries.toList.map CachedContent.packet

namespace Relay

variable {σ κ : Type} {asked known : Packet → Prop}

/-- All packets that are pending are of one sort, and all that are cached of another. -/
structure Sorted (r : Relay σ κ) (asked known : Packet → Prop) : Prop where
  pending : r.AllPending asked
  cached : ∀ c ∈ r.store.entries.toList, known c.packet

lemma Sorted.narrows {r r' : Relay σ κ} (hr : r.Sorted asked known) (h : r.Narrows r') :
    r'.Sorted asked known where
  pending := hr.pending.narrows h
  cached c' hc' := by
    obtain ⟨c, hc, hpacket, -⟩ := h.cached c' hc'
    exact hpacket ▸ hr.cached c hc

/-- The packets stay sorted if those that enter the tables are. -/
lemma Sorted.fills {answers : Prop} {r r' : Relay σ κ} (hr : r.Sorted asked known)
    (h : Fills asked known answers r r') : r'.Sorted asked known := by
  induction h with
  | narrows h => exact hr.narrows h
  | records he _ =>
    refine ⟨?_, hr.cached⟩
    intro e' he'
    rcases SlotTable.mem_insert.mp he' with hold | rfl
    · exact hr.pending e' hold
    · exact he
  | caches hcontent _ hs _ =>
    refine ⟨hr.pending, ?_⟩
    intro c hc
    rcases hs c hc with hold | rfl
    · exact hr.cached c hold
    · exact hcontent
  | trans _ _ ihm ihr => exact ihr (ihm hr)

lemma Sorted.run [Scheduler σ] [CacheStrategy κ] (hκ : CacheStrategy.OnlyRemoves κ)
    {r : Relay σ κ} (hr : r.Sorted asked known) {op : Operation σ κ}
    (hop : op.Supplies asked known) : (op.run r).Sorted asked known :=
  hr.fills (r.fills_run hκ hop)

/-! ## Answers -/

lemma Sorted.of_sourceFor? {r : Relay σ κ} (hr : r.Sorted asked known) {id : FaceId}
    {packet : Packet} {c : CachedContent} (hc : r.sourceFor? id packet = some c) : known c.packet :=
  hr.cached c (mem_of_sourceFor? hc)

lemma Sorted.of_get? {r : Relay σ κ} (hr : r.Sorted asked known) {h : Handle} {answer : Packet}
    (hanswer : (r.store.get? h).map CachedContent.packet = some answer) : known answer := by
  obtain ⟨c, hget, rfl⟩ := Option.map_eq_some_iff.mp hanswer
  exact hr.cached c (SlotTable.mem_of_get? hget)

lemma Sorted.of_servedFor? {r : Relay σ κ} (hr : r.Sorted asked known) {id : FaceId}
    {packet answer : Packet} (hcontent : packet.isInterest = false → known packet)
    (hserved : r.servedFor? id packet = some answer) : known answer := by
  unfold servedFor? at hserved
  split at hserved
  · cases hserved
  · rename_i hguard
    obtain ⟨hkind, -⟩ : packet.isInterest = false ∧ r.isLive id = true := by simpa using hguard
    unfold answering at hserved
    split at hserved
    · exact Option.some.inj hserved ▸ hcontent hkind
    · split at hserved
      · exact Option.some.inj hserved ▸ hcontent hkind
      · exact hr.of_get? hserved

lemma Sorted.of_answerFor? {r : Relay σ κ} (hr : r.Sorted asked known) {id : FaceId}
    {packet answer : Packet} (hcontent : packet.isInterest = false → known packet)
    (hanswer : r.answerFor? id packet = some answer) : known answer := by
  rcases Option.or_eq_some_iff.mp hanswer with hsource | ⟨-, hserved⟩
  · obtain ⟨c, hc, rfl⟩ := Option.map_eq_some_iff.mp hsource
    exact hr.of_sourceFor? hc
  · exact hr.of_servedFor? hcontent hserved

end Relay

namespace Operation

variable {σ κ : Type} [CacheStrategy κ] {asked known : Packet → Prop} {op : Operation σ κ}
  {r : Relay σ κ}

/-- Answers are of the sort that is cached. -/
lemma Supplies.known_of_answer? (hop : op.Supplies asked known)
    (hκ : CacheStrategy.OnlyRemoves κ) (hr : r.Sorted asked known) {answer : Packet}
    (hanswer : op.answer? r = some answer) : known answer := by
  cases op with
  | receive decode interface peer bytes =>
    have hsends := r.getFace_sends (some interface) (some peer)
    have hface := hr.narrows (.of_keeps hsends.toKeeps)
    unfold answer? source? served? at hanswer
    dsimp only at hanswer
    split at hanswer
    · cases hanswer
    · rcases hdecode : decode bytes with e | packet
      · simp [hdecode] at hanswer
      · rcases hm : r.getFace (some interface) (some peer) with ⟨e | id, m⟩
        · simp [hdecode, hm] at hanswer
        · rw [hdecode, hm] at hanswer
          rw [hm] at hface
          exact hface.of_answerFor? (hop.content packet) hanswer
  | dispatch id packet => exact hr.of_answerFor? (hop.content packet) hanswer
  | handleInterest id interest =>
    rw [Relay.answer?_handleInterest] at hanswer
    obtain ⟨c, hc, rfl⟩ := Option.map_eq_some_iff.mp hanswer
    exact hr.of_sourceFor? (Option.ite_none_right_eq_some.mp hc).2
  | expressInterest interest =>
    rw [Relay.answer?_expressInterest] at hanswer
    obtain ⟨c, hc, rfl⟩ := Option.map_eq_some_iff.mp hanswer
    exact hr.cached c (Relay.mem_of_hit? (Option.ite_none_right_eq_some.mp hc).2)
  | handleContent id content =>
    rw [Relay.answer?_handleContent] at hanswer
    exact hr.of_servedFor? (hop.content content) hanswer
  | addContent content =>
    have hstored : Relay.Fills asked known False r (r.addToCache content).2 :=
      Relay.storeEntry_fills hκ (hop.added content rfl) False.elim
    have hadded := hr.fills hstored
    unfold answer? source? served? at hanswer
    dsimp only at hanswer
    rcases hm : r.addToCache content with ⟨e | h, m⟩
    · rw [hm] at hanswer
      cases hanswer
    · rw [hm] at hadded hanswer
      simp only [Option.or_self] at hanswer
      exact hadded.of_get? hanswer
  | servePending h =>
    rw [Relay.answer?_servePending] at hanswer
    exact hr.of_get? hanswer
  | _ => cases hanswer

end Operation

/-! ## Adding asks for no kind -/

lemma ContentStore.packets_insert (s : ContentStore) (entry : CachedContent) :
    (s.insert entry).2.packets = s.packets ++ [entry.packet] := by
  have hentries : (s.insert entry).2.entries.toList = s.entries.toList ++ [entry] :=
    s.entries.toList_insert entry
  unfold packets
  rw [hentries, List.map_append, List.map_singleton]

lemma Cache.Credited.packets {κ : Type} {c c' : Cache κ} (h : c.Credited c') :
    c'.store.packets = c.store.packets := by
  cases h with
  | same => rfl
  | entry h hcredits => exact c.store.entries.map_toList_modify h hcredits.packet

namespace Relay

variable {σ κ : Type} [CacheStrategy κ]

/-- A packet that is not cached is cached when adding it succeeds, whatever its kind. -/
lemma mem_packets_addToCache_iff (hκ : CacheStrategy.OnlyRemoves κ) {r : Relay σ κ}
    {packet : Packet} (hnew : packet ∉ r.store.packets) :
    packet ∈ (r.addToCache packet).2.store.packets ↔ ∃ h, (r.addToCache packet).1 = .ok h := by
  let entry : CachedContent := { packet, lastUsed := r.clock }
  have hadds := r.store.adds entry r.strategy
  have hcleared := (r.store.toList_cleared_sublist hκ r.strategy packet).map CachedContent.packet
  change packet ∈ (r.store.add entry r.strategy).store.packets ↔
    ∃ h, (r.store.add entry r.strategy).result = .ok h
  generalize r.store.add entry r.strategy = added at hadds ⊢
  cases hadds with
  | present _ => simp [hnew]
  | roomy _ _ => simp [ContentStore.packets_insert, entry]
  | crowded _ _ _ =>
    have hstill : packet ∉ (r.store.cleared r.strategy packet).packets :=
      fun hmem => hnew (hcleared.subset hmem)
    simp [hstill, entry]
  | cleared _ _ _ => simp [ContentStore.packets_insert, entry]

lemma packets_addContent [Scheduler σ] (r : Relay σ κ) (content : Packet) :
    (r.addContent content).2.store.packets = (r.addToCache content).2.store.packets := by
  unfold addContent
  rcases r.addToCache content with ⟨e | h, m⟩
  · rfl
  · exact (m.servePending_credits h).packets

end Relay

/-! ## Along a run -/

namespace Operation

variable {σ κ : Type}

/-- Only content is added to the store. -/
def AddsContent (_ : Relay σ κ) (op : Operation σ κ) : Prop :=
  ∀ packet ∈ op.adds?, packet.isInterest = false

lemma AddsContent.of_none {op : Operation σ κ} {r : Relay σ κ} (h : op.adds? = none) :
    op.AddsContent r := by
  intro packet hadds
  rw [h] at hadds
  cases hadds

/-- The packet is an interest that is pending or comes in. -/
def MayAsk (op : Operation σ κ) (r : Relay σ κ) (packet : Packet) : Prop :=
  packet.isInterest = true ∧ (packet ∈ r.pending.packets ∨ op.asks? = some packet)

/-- The packet is content, or it is cached already, or it is added. -/
def MayAnswer (op : Operation σ κ) (r : Relay σ κ) (packet : Packet) : Prop :=
  packet.isInterest = false ∨ packet ∈ r.store.packets ∨ op.adds? = some packet

variable [Scheduler σ] [CacheStrategy κ]

/-- What an operation leaves pending are interests, and what it sends along the routes is one of
them. What it leaves in the store and what it answers with is content, apart from packets that were
cached before or that it adds. -/
structure KeepsKinds (op : Operation σ κ) (r : Relay σ κ) : Prop where
  pending : ∀ packet ∈ (op.run r).pending.packets, op.MayAsk r packet
  cached : ∀ packet ∈ (op.run r).store.packets, op.MayAnswer r packet
  asks : ∀ x ∈ op.handings r, x.Asks (op.MayAsk r)
  answers : ∀ x ∈ op.handings r, x.Answers (op.answer? r)
  answer : ∀ packet, op.answer? r = some packet → op.MayAnswer r packet

variable {r : Relay σ κ}

lemma keepsKinds (hκ : CacheStrategy.OnlyRemoves κ) (hl : r.Linked)
    (hr : ∀ e ∈ r.pending.toList, e.packet.isInterest = true) (op : Operation σ κ) :
    op.KeepsKinds r := by
  have hsorted : r.Sorted (op.MayAsk r) (op.MayAnswer r) :=
    ⟨fun e he => ⟨hr e he, .inl (List.mem_map_of_mem he)⟩,
      fun c hc => .inr (.inl (List.mem_map_of_mem hc))⟩
  have hop : op.Supplies (op.MayAsk r) (op.MayAnswer r) :=
    ⟨fun _ hasks hkind => ⟨hkind, .inr hasks⟩, fun _ => .inl, fun _ hadds => .inr (.inr hadds)⟩
  have hrun := hsorted.run hκ hop
  obtain ⟨handed, hh, hyields⟩ := Relay.run_yields hl hsorted.pending hop.interests
  have hhandings : op.handings r = handed := hh.handings_eq
  rw [← hhandings] at hyields
  exact {
    pending := List.forall_mem_map.mpr hrun.pending
    cached := List.forall_mem_map.mpr hrun.cached
    asks := fun x hx => (hyields x hx).1
    answers := fun x hx => (hyields x hx).2
    answer := fun _ hanswer => hop.known_of_answer? hκ hsorted hanswer }

lemma mem_packets_run_iff (hκ : CacheStrategy.OnlyRemoves κ) {op : Operation σ κ} {packet : Packet}
    (hadds : op.adds? = some packet) (hnew : packet ∉ r.store.packets) :
    packet ∈ (op.run r).store.packets ↔ ∃ h, (r.addToCache packet).1 = .ok h := by
  cases op with
  | addToCache content =>
    cases hadds
    exact Relay.mem_packets_addToCache_iff hκ hnew
  | addContent content =>
    cases hadds
    change packet ∈ (r.addContent packet).2.store.packets ↔ _
    rw [Relay.packets_addContent]
    exact Relay.mem_packets_addToCache_iff hκ hnew
  | _ => cases hadds

end Operation

variable {σ κ : Type} [Scheduler σ] [CacheStrategy κ] {r : Relay σ κ}

lemma ReachableBy.sorted {Permits : Relay σ κ → Operation σ κ → Prop} {asked known : Packet → Prop}
    (hκ : CacheStrategy.OnlyRemoves κ)
    (hpermits : ∀ {m : Relay σ κ} {op : Operation σ κ}, Permits m op → op.Supplies asked known)
    (h : ReachableBy Permits r) : r.Sorted asked known := by
  induction h with
  | create config clock digest hnew =>
    unfold Relay.create at hnew
    split at hnew
    · cases hnew
    · cases hnew
      exact ⟨by rintro _ ⟨⟩, by rintro _ ⟨⟩⟩
  | run op _ hop ih => exact ih.run hκ (hpermits hop)

omit [Scheduler σ] [CacheStrategy κ] in
lemma Operation.AddsContent.supplies {op : Operation σ κ} (hop : op.AddsContent r) :
    op.Supplies (fun packet => packet.isInterest = true)
      (fun packet => packet.isInterest = false) :=
  ⟨fun _ _ hkind => hkind, fun _ hkind => hkind, hop⟩

/-- How kinds may mix. Whatever is done to a relay, interests alone become pending, and what it
sends along the routes is one that is pending or comes in. But a packet that is added to the store
is not asked for its kind: an interest gets into the store exactly if it is added and adding it
succeeds, and then it may answer like content. As long as only content is added, there is only
content in the store, and all answers are content. -/
theorem interests_are_cached_only_if_added (hκ : CacheStrategy.OnlyRemoves κ) (h : Reachable r) :
    (∀ packet ∈ r.pending.packets, packet.isInterest = true) ∧
    (∀ op : Operation σ κ, op.KeepsKinds r) ∧
    (∀ (op : Operation σ κ) (interest : Packet), interest.isInterest = true →
      interest ∉ r.store.packets →
      (interest ∈ (op.run r).store.packets ↔
        op.adds? = some interest ∧ ∃ hd, (r.addToCache interest).1 = .ok hd)) ∧
    (ReachableBy Operation.AddsContent r →
      (∀ packet ∈ r.store.packets, packet.isInterest = false) ∧
      ∀ op : Operation σ κ, op.AddsContent r →
        ∀ answer, op.answer? r = some answer → answer.isInterest = false) := by
  have hsorted : r.Sorted (fun packet => packet.isInterest = true) (fun _ => True) :=
    h.reachableBy.sorted hκ fun _ =>
      ⟨fun _ _ hkind => hkind, fun _ _ => trivial, fun _ _ => trivial⟩
  have hpending : ∀ e ∈ r.pending.toList, e.packet.isInterest = true := hsorted.pending
  have hkinds := Operation.keepsKinds hκ h.linked hpending
  refine ⟨List.forall_mem_map.mpr hpending, hkinds, ?_, ?_⟩
  · intro op interest hkind hnew
    constructor
    · intro hmem
      rcases (hkinds op).cached interest hmem with hcontent | hold | hadds
      · rw [hkind] at hcontent
        cases hcontent
      · exact absurd hold hnew
      · exact ⟨hadds, (Operation.mem_packets_run_iff hκ hadds hnew).mp hmem⟩
    · rintro ⟨hadds, hok⟩
      exact (Operation.mem_packets_run_iff hκ hadds hnew).mpr hok
  · intro hby
    have hsorted := hby.sorted hκ Operation.AddsContent.supplies
    exact ⟨List.forall_mem_map.mpr hsorted.cached, fun op hop _ hanswer =>
      hop.supplies.known_of_answer? hκ hsorted hanswer⟩

namespace Sample

lemma reachableBy_stocked : ReachableBy Operation.AddsContent stocked := by
  have hpeered : ReachableBy Operation.AddsContent peered :=
    ((((ReachableBy.create config ⟨0⟩ digest rfl).run .setDelivers (.of_none rfl)).run (meets 2)
      (.of_none rfl)).run (meets 3) (.of_none rfl)).run (.getFace none none) (.of_none rfl)
  have hasked : ReachableBy Operation.AddsContent asked :=
    (hpeered.run (.handleInterest ⟨1⟩ (interest none)) (.of_none rfl)).run
      (.handleInterest ⟨2⟩ (interest none)) (.of_none rfl)
  refine hasked.run (.addToCache (content 5)) ?_
  rintro _ ⟨⟩
  rfl

/-- An interest for `x` was added to the store. -/
def mistaken : Relay Allowance CachePolicy :=
  (Operation.addToCache (interest none)).run peered

lemma reachable_mistaken : Reachable mistaken :=
  reachable_peered.run _

end Sample

/-- Peers wait for content that is cached, and get content. An interest of another family is cached
beside it only by being added. -/
theorem stocked_content_is_no_interest :
    (∀ packet ∈ Sample.stocked.pending.packets, packet.isInterest = true) ∧
    (Operation.servePending ⟨0, 0⟩).answer? Sample.stocked = some (Sample.content 5) ∧
    (Sample.content 5).isInterest = false ∧
    Sample.freshInterest ∈
      ((Operation.addContent Sample.freshInterest).run Sample.stocked).store.packets ∧
    Sample.freshInterest ∉
      ((Operation.handleContent ⟨1⟩ Sample.freshInterest).run Sample.stocked).store.packets := by
  have hanswer :
      (Operation.servePending ⟨0, 0⟩).answer? Sample.stocked = some (Sample.content 5) := by
    decide
  have hnew : Sample.freshInterest ∉ Sample.stocked.store.packets := by decide
  have hok : (Sample.stocked.addToCache Sample.freshInterest).1 = .ok ⟨1, 0⟩ := by decide
  obtain ⟨hpending, -, hadded, hsorted⟩ :=
    interests_are_cached_only_if_added CachePolicy.onlyRemoves Sample.reachable_stocked
  obtain ⟨-, hcontent⟩ := hsorted Sample.reachableBy_stocked
  have hserves : (Operation.servePending ⟨0, 0⟩).AddsContent Sample.stocked :=
    .of_none rfl
  refine ⟨hpending, hanswer, hcontent _ hserves _ hanswer, ?_, ?_⟩
  · exact (hadded (.addContent Sample.freshInterest) _ rfl hnew).mpr ⟨rfl, ⟨1, 0⟩, hok⟩
  · intro hmem
    obtain ⟨hadds, -⟩ := (hadded _ _ rfl hnew).mp hmem
    cases hadds

/-- An interest may be cached, and be delivered as the answer to itself. -/
theorem interest_may_be_delivered_as_content :
    Reachable Sample.mistaken ∧ (Sample.interest none).isInterest = true ∧
      Sample.mistaken.store.packets = [Sample.interest none] ∧
      (Operation.handleInterest ⟨3⟩ (Sample.interest none)).handings Sample.mistaken =
        [.application (some ⟨3⟩) (Sample.interest none)] :=
  ⟨Sample.reachable_mistaken, rfl, by decide, by decide⟩

end NamedRelay
