import NamedRelay.Proofs.Collapse
import NamedRelay.Proofs.Waiting

/-!
# Interests that share an entry

The pending table keeps one packet for all interests that ask for the same. To be the same is an
equivalence, and no content tells two such interests apart, so the packet that is kept answers for
everyone who asked.
-/

namespace NamedRelay

namespace Packet

lemma isSameInterest_equivalence :
    Equivalence fun interest other : Packet => interest.isSameInterest other = true where
  refl interest := (isSameInterest_iff interest interest).mpr rfl
  symm {interest other} h :=
    (isSameInterest_iff other interest).mpr ((isSameInterest_iff interest other).mp h).symm
  trans {interest other third} h h' := by
    rw [isSameInterest_iff] at h h' ⊢
    exact h.trans h'

end Packet

/-- A search for either of two interests for one request stops at the same entry. -/
lemma PendingTable.findSame?_congr {interest other : Packet}
    (h : interest.request = other.request) (t : PendingTable) :
    t.findSame? interest = t.findSame? other := by
  have hsame : (fun e : PendingInterest => e.packet.isSameInterest interest) =
      fun e => e.packet.isSameInterest other := by
    funext e
    rw [Bool.eq_iff_iff, Packet.isSameInterest_iff, Packet.isSameInterest_iff, h]
  unfold findSame?
  rw [hsame]

namespace Relay

variable {σ κ : Type}

/-- The interest is taken, it is no duplicate, and the store has no answer to it. Without a face it
is the relay's own application that asks. -/
def stillAsks (r : Relay σ κ) (who : Option FaceId) (interest : Packet) : Bool :=
  interest.isInterest && who.all r.isLive && !(r.checkNonce interest).1
    && (r.lookupCached interest).isNone

variable [Scheduler σ]

/-- A face asks, or without a face the relay's own application. -/
def ask (r : Relay σ κ) (who : Option FaceId) (interest : Packet) : Relay σ κ :=
  match who with
  | some id => (r.handleInterest id interest).2
  | none => (r.expressInterest interest).2

lemma exists_entry_of_face {r : Relay σ κ} {id : FaceId} {interest : Packet}
    (hsize : r.pending.slots.length < UInt32.size) (hreaches : r.reachesPending id interest = true) :
    ∃ e ∈ (r.handleInterest id interest).2.pending.toList,
      e.packet.request = interest.request ∧ e.Wants (some id) := by
  have hroomy : r.Roomy interest.request := ⟨Nat.le_of_lt hsize, fun hfull => by omega⟩
  have hwaits := ((handleInterest_lists hroomy id).2 id).mpr (.inr ⟨hreaches, rfl⟩)
  exact PendingTable.mem_waitingFor.mp hwaits

lemma exists_entry_of_own {r : Relay σ κ} {interest : Packet}
    (hsize : r.pending.slots.length < UInt32.size) (hasks : r.stillAsks none interest = true) :
    ∃ e ∈ (r.expressInterest interest).2.pending.toList,
      e.packet.request = interest.request ∧ e.Wants none := by
  simp only [stillAsks, Option.all_none, Bool.and_true, Bool.and_eq_true, Bool.not_eq_true',
    Option.isNone_iff_eq_none] at hasks
  obtain ⟨⟨hkind, hnew⟩, hmiss⟩ := hasks
  have hkeeps := (r.checkNonce_acts interest).toKeepsFaces
  rw [expressInterest_eq r hkind]
  dsimp only
  rw [if_neg (Bool.not_eq_true _ ▸ hnew), hmiss]
  dsimp only
  rw [pending_recordOwn, hkeeps.pending]
  cases hfound : r.pending.findSame? interest with
  | some h =>
    obtain ⟨before, e, after, -, hsame, -, -, hmodify⟩ :=
      SlotTable.split_of_find? (Nat.le_of_lt hsize) hfound
    dsimp only
    rw [hmodify]
    exact ⟨_, List.mem_append_right _ List.mem_cons_self,
      (Packet.isSameInterest_iff _ _).mp hsame, rfl⟩
  | none => exact ⟨_, SlotTable.mem_insert.mpr (.inr rfl), rfl, rfl⟩

/-- Whoever is not answered wants an entry for the request afterwards, whatever packet is kept
there. -/
lemma exists_entry_of_stillAsks {r : Relay σ κ} {who : Option FaceId} {interest : Packet}
    (hsize : r.pending.slots.length < UInt32.size) (hasks : r.stillAsks who interest = true) :
    ∃ e ∈ (r.ask who interest).pending.toList,
      e.packet.request = interest.request ∧ e.Wants who := by
  cases who with
  | some id => exact exists_entry_of_face hsize hasks
  | none => exact exists_entry_of_own hsize hasks

variable [CacheStrategy κ]

/-- The entry stands for the interest. No other entry does, and a serving pass takes it out exactly
if the content satisfies the interest, and hands the content to everyone who wants the entry then. -/
structure StandsFor (r : Relay σ κ) (e : PendingInterest) (interest : Packet) : Prop where
  only : ∀ other ∈ r.pending.toList, other.packet.isSameInterest interest = true → other = e
  stays : ∀ (op : Operation σ κ) (content : Packet), op.served? r = some content →
    (e ∈ (op.run r).pending.toList ↔ interest.isSatisfiedBy content r.digest = false)
  answers : ∀ (op : Operation σ κ) (content : Packet), op.served? r = some content →
    interest.isSatisfiedBy content r.digest = true → ∀ who, e.Wants who → op.Hands r content who

lemma standsFor_of_request {r : Relay σ κ} (hl : r.Linked) (hs : r.PendingSound)
    {e : PendingInterest} (he : e ∈ r.pending.toList) {interest : Packet}
    (hrequest : e.packet.request = interest.request) : r.StandsFor e interest := by
  have halike : ∀ content, r.satisfies content e = interest.isSatisfiedBy content r.digest :=
    fun content => Packet.isSatisfiedBy_congr hrequest content r.digest
  refine ⟨?_, ?_, ?_⟩
  · intro other hother hsame
    have hrequest' := (Packet.isSameInterest_iff other.packet interest).mp hsame
    exact hs.eq_of_request hother he (hrequest'.trans hrequest.symm)
  · intro op content hserved
    rw [((effect_run hl op).serves hserved).mem_pending_iff, halike]
    exact and_iff_right he
  · intro op content hserved hsatisfied who hwants
    obtain ⟨answer, ⟨hserved', -⟩, hhands⟩ :=
      Operation.answers_of_satisfies hl he hwants ⟨hserved, (halike content).trans hsatisfied⟩
    obtain rfl : content = answer := Option.some.inj (hserved.symm.trans hserved')
    exact hhands

end Relay

/-- Interests that are the same may be answered as one. To be the same is an equivalence; a content
answers all such interests or none of them, and a search of the pending table finds the same entry
for all of them. So in every reachable relay an entry stands for all of them, whatever packet it
keeps; and as long as there is a handle left, whoever asks and is not answered at once wants that
entry. -/
theorem same_interests_are_answered_alike (σ κ : Type) [Scheduler σ] [CacheStrategy κ] :
    (Equivalence fun interest other : Packet => interest.isSameInterest other = true) ∧
    (∀ interest other : Packet, interest.isSameInterest other = true →
      (∀ content digest,
        interest.isSatisfiedBy content digest = other.isSatisfiedBy content digest) ∧
      ∀ t : PendingTable, t.findSame? interest = t.findSame? other) ∧
    ∀ r : Relay σ κ, Reachable r → ∀ interest : Packet,
      (∀ e ∈ r.pending.toList, e.packet.isSameInterest interest = true → r.StandsFor e interest) ∧
      ∀ who, r.pending.slots.length < UInt32.size → r.stillAsks who interest = true →
        ∃ e ∈ (r.ask who interest).pending.toList,
          e.packet.isSameInterest interest = true ∧ e.Wants who := by
  refine ⟨Packet.isSameInterest_equivalence, ?_, ?_⟩
  · intro interest other hsame
    have hrequest := (Packet.isSameInterest_iff interest other).mp hsame
    exact ⟨Packet.isSatisfiedBy_congr hrequest, PendingTable.findSame?_congr hrequest⟩
  · intro r hr interest
    refine ⟨?_, ?_⟩
    · intro e he hsame
      exact Relay.standsFor_of_request hr.linked hr.pendingSound he
        ((Packet.isSameInterest_iff e.packet interest).mp hsame)
    · intro who hsize hasks
      obtain ⟨e, he, hrequest, hwants⟩ := Relay.exists_entry_of_stillAsks hsize hasks
      exact ⟨e, he, (Packet.isSameInterest_iff _ _).mpr hrequest, hwants⟩

namespace Sample

/-- The first peer waits for `x`. -/
def begun : Relay Allowance CachePolicy :=
  (Operation.handleInterest ⟨1⟩ (interest none)).run peered

lemma reachable_begun : Reachable begun :=
  reachable_peered.run _

/-- The second peer asks for `x` as well, with a nonce. -/
def joined : Relay Allowance CachePolicy :=
  begun.ask (some ⟨2⟩) (interest (some [9]))

lemma reachable_joined : Reachable joined :=
  reachable_begun.run (.handleInterest ⟨2⟩ (interest (some [9])))

end Sample

/-- The interest of the second peer is not kept, and that peer is answered all the same. -/
theorem second_interest_is_answered_alike :
    ∃ e ∈ Sample.joined.pending.toList, e.packet = Sample.interest none ∧
      Sample.joined.StandsFor e (Sample.interest (some [9])) ∧
      (Operation.handleContent ⟨3⟩ (Sample.content 5)).Hands Sample.joined (Sample.content 5)
        (some ⟨2⟩) := by
  obtain ⟨-, -, halike⟩ := same_interests_are_answered_alike Allowance CachePolicy
  obtain ⟨-, hasks⟩ := halike Sample.begun Sample.reachable_begun (Sample.interest (some [9]))
  obtain ⟨hstands, -⟩ := halike Sample.joined Sample.reachable_joined (Sample.interest (some [9]))
  obtain ⟨e, he, hsame, hwants⟩ := hasks (some ⟨2⟩) (by decide) (by decide)
  have hkept : Sample.joined.pending.toList.map PendingInterest.packet = [Sample.interest none] := by
    decide
  have hpacket : e.packet ∈ [Sample.interest none] := hkept ▸ List.mem_map_of_mem he
  refine ⟨e, he, List.mem_singleton.mp hpacket, hstands e he hsame, ?_⟩
  exact (hstands e he hsame).answers (.handleContent ⟨3⟩ (Sample.content 5)) (Sample.content 5)
    (by decide) (by decide) (some ⟨2⟩) hwants

end NamedRelay
