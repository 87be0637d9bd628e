import NamedRelay.Proofs.Serving
import NamedRelay.Proofs.SlotVisits

/-!
# A serving pass, slot by slot

A serving pass may be done on the table of pending interests itself. A cursor moves over the slots,
and each entry that the content satisfies is taken out before the cursor moves on. The faces found
on the way are marked, so that none is served twice, the replies are counted as they are found, and
the digest of the content is taken at most once. As long as every slot has a handle, this comes to
what a serving pass does.
-/

namespace NamedRelay

namespace Recipients

lemma count_append_network (s : Recipients) (id : FaceId) :
    count { s with network := s.network ++ [id] } = s.count + 1 := by
  unfold count
  rw [List.length_append, List.length_singleton, Nat.add_right_comm, UInt32.ofNat_add]
  rfl

lemma count_append_delivery (s : Recipients) (face : Option FaceId) :
    count { s with deliveries := s.deliveries ++ [face] } = s.count + 1 := by
  unfold count
  rw [List.length_append, List.length_singleton, ← Nat.add_assoc, UInt32.ofNat_add]
  rfl

end Recipients

/-- The replies of a serving pass, as they are found on the way. -/
structure Replies where
  /-- The faces that are marked as served. -/
  marked : List FaceId := []
  recipients : Recipients := {}
  count : UInt32 := 0
  ownRequest : Bool := false

namespace Replies

/-- A peer's face gets the content. -/
def addNetwork (s : Replies) (id : FaceId) : Replies :=
  { s with
    marked := id :: s.marked
    recipients := { s.recipients with network := s.recipients.network ++ [id] }
    count := s.count + 1 }

/-- The application's face gets the content. -/
def addLocal (s : Replies) (id : FaceId) : Replies :=
  { s with
    marked := id :: s.marked
    recipients := { s.recipients with deliveries := s.recipients.deliveries ++ [some id] }
    count := s.count + 1 }

/-- The application gets the content for a request of its own. -/
def addOwn (s : Replies) : Replies :=
  { s with
    recipients := { s.recipients with deliveries := s.recipients.deliveries ++ [none] }
    count := s.count + 1
    ownRequest := true }

/-- The marks, the count and the note of an own request say what the list of recipients says. -/
structure Counts (s : Replies) : Prop where
  marked : ∀ id, s.marked.contains id = s.recipients.includes id
  count : s.count = s.recipients.count
  ownRequest : s.ownRequest = s.recipients.ownRequest

namespace Counts

lemma empty : ({} : Replies).Counts :=
  ⟨fun _ => rfl, rfl, rfl⟩

variable {s : Replies}

lemma addNetwork (h : s.Counts) (id : FaceId) : (s.addNetwork id).Counts where
  marked other := by
    change (id :: s.marked).contains other = ((s.recipients.network ++ [id]).contains other ||
      s.recipients.deliveries.contains (some other))
    rw [List.contains_cons, h.marked, List.contains_append, List.contains_cons, List.contains_nil,
      Bool.or_false]
    unfold Recipients.includes
    ac_rfl
  count := (congrArg (· + 1) h.count).trans (s.recipients.count_append_network id).symm
  ownRequest := h.ownRequest

lemma addLocal (h : s.Counts) (id : FaceId) : (s.addLocal id).Counts where
  marked other := by
    change (id :: s.marked).contains other = (s.recipients.network.contains other ||
      (s.recipients.deliveries ++ [some id]).contains (some other))
    rw [List.contains_cons, h.marked, List.contains_append, List.contains_cons, List.contains_nil,
      Bool.or_false, Option.some_beq_some]
    unfold Recipients.includes
    ac_rfl
  count := (congrArg (· + 1) h.count).trans (s.recipients.count_append_delivery (some id)).symm
  ownRequest := by
    change s.ownRequest = (s.recipients.deliveries ++ [some id]).contains none
    rw [h.ownRequest, List.contains_append]
    exact (Bool.or_false _).symm

lemma addOwn (h : s.Counts) : s.addOwn.Counts where
  marked other := by
    change s.marked.contains other = (s.recipients.network.contains other ||
      (s.recipients.deliveries ++ [none]).contains (some other))
    rw [h.marked, List.contains_append]
    unfold Recipients.includes
    exact congrArg (s.recipients.network.contains other || ·) (Bool.or_false _).symm
  count := (congrArg (· + 1) h.count).trans (s.recipients.count_append_delivery none).symm
  ownRequest := by
    change true = (s.recipients.deliveries ++ [none]).contains none
    rw [List.contains_append]
    exact (Bool.or_true _).symm

end Counts

end Replies

/-- A serving pass on its way through the table of pending interests. -/
structure ServingWalk where
  pending : PendingTable
  /-- The digest of the content, once it was taken. -/
  digest? : Option Digest := none
  replies : Replies := {}

namespace Relay

variable {σ κ : Type}

/-! ## The walk -/

/-- Marks a waiting face and lists it, unless it is gone or marked already. -/
def markRecipient (r : Relay σ κ) (s : Replies) (w : Waiter) : Replies :=
  match r.faces.get? w.face with
  | none => s
  | some f =>
    if s.marked.contains f.id then s
    else if f.isLocal then s.addLocal f.id
    else s.addNetwork f.id

/-- Lists those who wait on an entry. -/
def markRecipients (r : Relay σ κ) (s : Replies) (e : PendingInterest) : Replies :=
  e.waiters.foldl r.markRecipient (if e.isLocal then s.addOwn else s)

/-- Whether the content satisfies the entry, and the digest of the content as far as it is known
then. -/
def checkEntry (r : Relay σ κ) (content : Packet) (known : Option Digest) (e : PendingInterest) :
    Bool × Option Digest :=
  match e.packet.verdict content with
  | .settled answer => (answer, known)
  | .byDigest answer =>
    let digest := known.getD (r.digest content.wire)
    (answer digest, some digest)

/-- The walk comes to an entry. -/
def visitWaiting (r : Relay σ κ) (content : Packet) (walk : ServingWalk) (h : Handle) :
    ServingWalk :=
  match walk.pending.get? h with
  | none => walk
  | some e =>
    let (satisfied, digest?) := r.checkEntry content walk.digest? e
    if satisfied then
      { digest?
        replies := r.markRecipients walk.replies e
        pending := (walk.pending.remove h).2 }
    else { walk with digest? }

/-- Goes over the pending interests, with no face marked at first. -/
def servingWalk (r : Relay σ κ) (content : Packet) : ServingWalk :=
  let walked := SlotTable.visitAll ServingWalk.pending (r.visitWaiting content)
    r.pending.slots.length r.pending.cursor { pending := r.pending }
  { walked with pending := walked.pending.compact }

section

variable [Scheduler σ]

/-- A serving pass that goes through the slots. -/
def servePacketBySlots (r : Relay σ κ) (content : Packet) : Replies × Relay σ κ :=
  let walked := r.servingWalk content
  let served := walked.replies.recipients
  let forwarded := served.network.foldl (fun r face => r.forwardContent content.wire face)
    { r with pending := walked.pending }
  (walked.replies, served.deliveries.foldl (fun r face => r.deliver face content) forwarded)

/-- Answers all pending interests that a cached entry satisfies, by going through the slots. -/
def servePendingBySlots (r : Relay σ κ) (h : Handle) : Nat × Relay σ κ :=
  match r.store.get? h with
  | none => (0, r)
  | some entry =>
    let (served, r) := r.servePacketBySlots entry.packet
    (served.count.toNat, { r with
      store := r.store.modify h fun e => (e.recordServed served.count).pinIf served.ownRequest })

end

/-! ## Marks and counts -/

lemma markRecipient_counts (r : Relay σ κ) {s : Replies} (h : s.Counts) (w : Waiter) :
    (r.markRecipient s w).Counts ∧
      (r.markRecipient s w).recipients = r.addRecipient s.recipients w := by
  unfold markRecipient addRecipient
  cases r.faces.get? w.face with
  | none => exact ⟨h, rfl⟩
  | some f =>
    dsimp only
    rw [h.marked]
    cases s.recipients.includes f.id with
    | true => exact ⟨h, rfl⟩
    | false =>
      cases f.isLocal with
      | true => exact ⟨h.addLocal f.id, rfl⟩
      | false => exact ⟨h.addNetwork f.id, rfl⟩

lemma foldl_markRecipient_counts (r : Relay σ κ) (waiters : List Waiter) {s : Replies}
    (h : s.Counts) : (waiters.foldl r.markRecipient s).Counts ∧
      (waiters.foldl r.markRecipient s).recipients =
        waiters.foldl r.addRecipient s.recipients := by
  induction waiters generalizing s with
  | nil => exact ⟨h, rfl⟩
  | cons w waiters ih =>
    obtain ⟨hfirst, hlisted⟩ := r.markRecipient_counts h w
    obtain ⟨hcounts, hothers⟩ := ih hfirst
    refine ⟨hcounts, ?_⟩
    rw [List.foldl_cons, hothers, hlisted, List.foldl_cons]

lemma markRecipients_counts (r : Relay σ κ) {s : Replies} (h : s.Counts) (e : PendingInterest) :
    (r.markRecipients s e).Counts ∧
      (r.markRecipients s e).recipients = r.addRecipients s.recipients e := by
  unfold markRecipients addRecipients
  cases e.isLocal with
  | true => exact r.foldl_markRecipient_counts e.waiters h.addOwn
  | false => exact r.foldl_markRecipient_counts e.waiters h

/-! ## The walk and the list -/

/-- A digest that is known is that of the content. -/
def KnowsDigest (r : Relay σ κ) (content : Packet) (known : Option Digest) : Prop :=
  ∀ digest ∈ known, digest = r.digest content.wire

lemma checkEntry_spec (r : Relay σ κ) {content : Packet} {known : Option Digest}
    (h : r.KnowsDigest content known) (e : PendingInterest) :
    (r.checkEntry content known e).1 = r.satisfies content e ∧
      r.KnowsDigest content (r.checkEntry content known e).2 := by
  unfold checkEntry satisfies Packet.isSatisfiedBy
  cases e.packet.verdict content with
  | settled answer => exact ⟨rfl, h⟩
  | byDigest answer =>
    have hdigest : known.getD (r.digest content.wire) = r.digest content.wire := by
      cases hknown : known with
      | none => rfl
      | some digest => exact h digest hknown
    dsimp only
    rw [hdigest]
    refine ⟨rfl, ?_⟩
    rintro _ ⟨⟩
    rfl

/-- What an entry adds to a walk, apart from the table. -/
def serveEntry (r : Relay σ κ) (content : Packet) (walk : ServingWalk) (e : PendingInterest) :
    ServingWalk :=
  { walk with
    digest? := (r.checkEntry content walk.digest? e).2
    replies := if r.satisfies content e then r.markRecipients walk.replies e else walk.replies }

lemma visitWaiting_visits (r : Relay σ κ) (content : Packet) :
    SlotTable.Visits (fun walk => r.KnowsDigest content walk.digest?) ServingWalk.pending
      (fun walk pending => { walk with pending }) (r.visitWaiting content) (r.serveEntry content)
      (fun e => if r.satisfies content e then none else some e) where
  visit {walk position e} hgood hposition hslot := by
    have hget : walk.pending.get? (walk.pending.handleAt position) = some e :=
      SlotTable.get?_handleAt hposition hslot
    unfold visitWaiting serveEntry
    rw [hget]
    dsimp only
    rw [(r.checkEntry_spec hgood e).1]
    cases r.satisfies content e with
    | true =>
      rw [if_pos rfl, if_pos rfl, if_pos rfl, SlotTable.remove_handleAt hposition hslot]
    | false =>
      rw [if_neg Bool.false_ne_true, if_neg Bool.false_ne_true, if_neg Bool.false_ne_true,
        SlotTable.set_slot hslot]
  good {_ e _} hgood := (r.checkEntry_spec hgood e).2
  table_withTable _ _ := rfl
  withTable_withTable _ _ _ := rfl
  withTable_table _ := rfl
  act_withTable _ _ _ := rfl

/-- What is listed on the way is what the satisfied entries list one after the other. -/
lemma foldl_serveEntry (r : Relay σ κ) (content : Packet) (entries : List PendingInterest)
    {walk : ServingWalk} (h : walk.replies.Counts) :
    (entries.foldl (r.serveEntry content) walk).replies.Counts ∧
      (entries.foldl (r.serveEntry content) walk).replies.recipients =
        (entries.filter (r.satisfies content)).foldl r.addRecipients walk.replies.recipients := by
  induction entries generalizing walk with
  | nil => exact ⟨h, rfl⟩
  | cons e entries ih =>
    rw [List.foldl_cons]
    cases hsatisfied : r.satisfies content e with
    | true =>
      obtain ⟨hfirst, hlisted⟩ := r.markRecipients_counts h e
      have hreplies : (r.serveEntry content walk e).replies = r.markRecipients walk.replies e :=
        if_pos hsatisfied
      obtain ⟨hcounts, hothers⟩ := ih (hreplies ▸ hfirst)
      refine ⟨hcounts, ?_⟩
      rw [hothers, hreplies, hlisted, List.filter_cons_of_pos hsatisfied, List.foldl_cons]
    | false =>
      have hnot : ¬r.satisfies content e = true := by rw [hsatisfied]; exact Bool.false_ne_true
      have hreplies : (r.serveEntry content walk e).replies = walk.replies := if_neg hnot
      obtain ⟨hcounts, hothers⟩ := ih (hreplies ▸ h)
      refine ⟨hcounts, ?_⟩
      rw [hothers, hreplies, List.filter_cons_of_neg hnot]

/-- The walk takes out the entries that are satisfied, and lists and counts those who waited. -/
lemma servingWalk_eq {r : Relay σ κ} (hsize : r.pending.slots.length ≤ UInt32.size)
    (content : Packet) :
    (r.servingWalk content).pending = (r.withoutSatisfied content).pending ∧
      (r.servingWalk content).replies.Counts ∧
      (r.servingWalk content).replies.recipients = r.recipients content := by
  have hvisited := (r.visitWaiting_visits content).visitAll_cursor
    (s := { pending := r.pending }) nofun hsize
  have hnobody : ({ pending := r.pending } : ServingWalk).replies.Counts := .empty
  obtain ⟨hcounts, hlisted⟩ := r.foldl_serveEntry content r.pending.toList hnobody
  unfold servingWalk
  dsimp only at hvisited ⊢
  rw [hvisited]
  exact ⟨rfl, hcounts, hlisted⟩

variable [Scheduler σ]

/-- Going through the slots with marks comes to what a serving pass does. -/
lemma servePacketBySlots_eq {r : Relay σ κ} (hsize : r.pending.slots.length ≤ UInt32.size)
    (content : Packet) :
    (r.servePacketBySlots content).2 = (r.servePacket content).2 ∧
      (r.servePacketBySlots content).1.count = (r.servePacket content).1.count ∧
      (r.servePacketBySlots content).1.ownRequest = (r.servePacket content).1.ownRequest := by
  obtain ⟨hpending, hcounts, hlisted⟩ := servingWalk_eq hsize content
  refine ⟨?_, ?_, ?_⟩
  · unfold servePacketBySlots servePacket
    dsimp only
    rw [hpending, hlisted]
    rfl
  · exact hcounts.count.trans (congrArg Recipients.count hlisted)
  · exact hcounts.ownRequest.trans (congrArg Recipients.ownRequest hlisted)

lemma servePendingBySlots_eq {r : Relay σ κ} (hsize : r.pending.slots.length ≤ UInt32.size)
    (h : Handle) : r.servePendingBySlots h = r.servePending h := by
  unfold servePendingBySlots servePending
  cases r.store.get? h with
  | none => rfl
  | some entry =>
    obtain ⟨hserved, hcount, hown⟩ := servePacketBySlots_eq hsize entry.packet
    dsimp only
    rw [hserved, hcount, hown]

end Relay

end NamedRelay
