import NamedRelay.Proofs.Waiting

/-!
# Content that comes in

Arriving content answers the pending interests it satisfies, unless the store has a copy of its name
that is not stale. Then that copy answers in its place, and what only the content itself would have
answered stays pending: the interests that name its digest, if the copy has another one.
-/

namespace NamedRelay.Relay

variable {σ κ : Type}

/-- The cached copy of a content's name, if it is not stale. -/
def freshCopy? (r : Relay σ κ) (content : Packet) : Option Packet :=
  ((r.store.findExact? content.name).bind r.store.get?).bind fun copy =>
    if copy.flags.stale then none else some copy.packet

/-- In a store whose entries all have handles, a name that is found leads to a copy of the name. -/
lemma exists_copy_of_findExact? {r : Relay σ κ} (hsize : r.store.entries.slots.length ≤ UInt32.size)
    {name : Name} {h : Handle} (hf : r.store.findExact? name = some h) :
    ∃ copy, r.store.get? h = some copy ∧ copy.name.isSame name = true :=
  SlotTable.get?_of_find? hsize hf

/-- The content itself answers, or a copy that is not stale and has its name. -/
lemma answering_eq {r : Relay σ κ} (hsize : r.store.entries.slots.length ≤ UInt32.size)
    (content : Packet) :
    r.freshCopy? content = none ∧ r.answering content = some content ∨
      ∃ copy, r.freshCopy? content = some copy ∧ r.answering content = some copy ∧
        copy.name.isSame content.name = true := by
  unfold freshCopy? answering
  cases hf : r.store.findExact? content.name with
  | none => exact .inl ⟨rfl, rfl⟩
  | some h =>
    obtain ⟨copy, hcopy, hname⟩ := exists_copy_of_findExact? hsize hf
    rw [Option.bind_some]
    dsimp only
    rw [hcopy]
    cases hstale : copy.flags.stale with
    | true => exact .inl ⟨by simp [hstale], by simp [hstale]⟩
    | false => exact .inr ⟨copy.packet, by simp [hstale], by simp [hstale], hname⟩

/-- What the content would answer and the copy in its place does not: the interests that name the
content's digest, if the copy has another one. -/
lemma satisfied_unanswered_iff {r : Relay σ κ}
    (hsize : r.store.entries.slots.length ≤ UInt32.size) (content : Packet) (e : PendingInterest) :
    (r.satisfies content e = true ∧
        ∀ answer, r.answering content = some answer → r.satisfies answer e = false) ↔
      r.satisfies content e = true ∧ e.packet.NamesDigest content r.digest ∧
        ∃ copy, r.freshCopy? content = some copy ∧
          r.digest copy.wire ≠ r.digest content.wire := by
  rcases answering_eq hsize content with ⟨hnone, hanswer⟩ | ⟨copy, hfresh, hanswer, hname⟩
  · -- The content answers itself, so what it satisfies does not stay.
    constructor
    · rintro ⟨hsat, hunanswered⟩
      rw [hunanswered content hanswer] at hsat
      cases hsat
    · rintro ⟨-, -, copy, hfresh, -⟩
      rw [hnone] at hfresh
      cases hfresh
  · have hone : r.satisfies content e = true ∧ r.satisfies copy e = false ↔ _ :=
      Packet.satisfied_by_one_iff hname
    rw [hfresh, hanswer]
    constructor
    · rintro ⟨hsat, hunanswered⟩
      obtain ⟨-, hnamed, hdigest⟩ := hone.mp ⟨hsat, hunanswered copy rfl⟩
      exact ⟨hsat, hnamed, copy, rfl, hdigest⟩
    · rintro ⟨hsat, hnamed, _, ⟨⟩, hdigest⟩
      obtain ⟨-, hunsat⟩ := hone.mpr ⟨hsat, hnamed, hdigest⟩
      refine ⟨hsat, ?_⟩
      rintro _ ⟨⟩
      exact hunsat

variable [Scheduler σ] [CacheStrategy κ]

/-- What answers takes the entries it satisfies out of the table, and no others. -/
lemma mem_pending_answerContent (r : Relay σ κ) (content : Packet) (e : PendingInterest) :
    e ∈ (r.answerContent content).pending.toList ↔ e ∈ r.pending.toList ∧
      ∀ answer, r.answering content = some answer → r.satisfies answer e = false := by
  unfold answering answerContent
  cases r.store.findExact? content.name with
  | none => simpa using (r.acceptContent_serves none content).mem_pending_iff e
  | some h =>
    dsimp only
    split
    · simpa using (r.acceptContent_serves (some h) content).mem_pending_iff e
    · cases hget : r.store.get? h with
      | none =>
        rw [r.servePending_of_none hget]
        simp
      | some copy => simpa using (r.servePending_serves hget).mem_pending_iff e

lemma mem_pending_handleContent {r : Relay σ κ} {id : FaceId} {content : Packet}
    (hkind : content.isInterest = false) (hlive : r.isLive id = true) (e : PendingInterest) :
    e ∈ (r.handleContent id content).2.pending.toList ↔ e ∈ r.pending.toList ∧
      ∀ answer, r.answering content = some answer → r.satisfies answer e = false := by
  rw [handleContent_of_live hkind hlive]
  exact mem_pending_answerContent (r.contentReceived id) content e

end NamedRelay.Relay

namespace NamedRelay

/-- Content that comes in on a face is accepted, and takes the pending interests out that the
answering copy satisfies. An interest that the content satisfies stays exactly if the store has a
copy of its name that is not stale and has another digest, and the interest names the digest of the
content. -/
theorem arriving_content_leaves_digest_interests {σ κ : Type} [Scheduler σ] [CacheStrategy κ]
    (r : Relay σ κ) {id : FaceId} (hlive : r.isLive id = true) {content : Packet}
    (hkind : content.isInterest = false) :
    (r.handleContent id content).1 = .ok () ∧
    (∀ e, e ∈ (r.handleContent id content).2.pending.toList ↔ e ∈ r.pending.toList ∧
      ∀ answer, r.answering content = some answer → r.satisfies answer e = false) ∧
    (r.store.entries.slots.length ≤ UInt32.size → ∀ e,
      (e ∈ (r.handleContent id content).2.pending.toList ∧ r.satisfies content e = true) ↔
        e ∈ r.pending.toList ∧ r.satisfies content e = true ∧
          e.packet.NamesDigest content r.digest ∧
          ∃ copy, r.freshCopy? content = some copy ∧
            r.digest copy.wire ≠ r.digest content.wire) := by
  have hmem := Relay.mem_pending_handleContent hkind hlive
  refine ⟨?_, hmem, ?_⟩
  · rw [Relay.handleContent_of_live hkind hlive]
  · intro hsize e
    have hiff := Relay.satisfied_unanswered_iff hsize content e
    rw [hmem]
    constructor
    · rintro ⟨⟨hold, hunanswered⟩, hsat⟩
      exact ⟨hold, hiff.mp ⟨hsat, hunanswered⟩⟩
    · rintro ⟨hold, hstays⟩
      obtain ⟨hsat, hunanswered⟩ := hiff.mpr hstays
      exact ⟨⟨hold, hunanswered⟩, hsat⟩

/-- A peer that waits for content by its digest still waits when the content has come in, because
the store has another copy of the name. -/
theorem cached_copy_keeps_digest_interest :
    Sample.copied.isLive ⟨2⟩ = true ∧ (Sample.content 5).isInterest = false ∧
    ∀ e ∈ Sample.copied.pending.toList,
      e ∈ (Sample.copied.handleContent ⟨2⟩ (Sample.content 5)).2.pending.toList ∧
        Sample.copied.satisfies (Sample.content 5) e = true := by
  have hlive : Sample.copied.isLive ⟨2⟩ = true := by decide
  have hkind : (Sample.content 5).isInterest = false := rfl
  obtain ⟨-, -, hstays⟩ := arriving_content_leaves_digest_interests Sample.copied hlive hkind
  have hnamed : ∀ e ∈ Sample.copied.pending.toList,
      Sample.copied.satisfies (Sample.content 5) e = true ∧
        e.packet.NamesDigest (Sample.content 5) Sample.copied.digest := by decide
  have hcopy : Sample.copied.freshCopy? (Sample.content 5) = some (Sample.content 1) := by decide
  refine ⟨hlive, hkind, ?_⟩
  intro e he
  obtain ⟨hsat, hdigest⟩ := hnamed e he
  exact (hstays (by decide) e).mpr ⟨he, hsat, hdigest, Sample.content 1, hcopy, by decide⟩

/-- After content has come in on a face, an interest that it satisfies may still be pending. -/
theorem arriving_content_may_stay_wanted :
    Reachable Sample.copied ∧ Sample.copied.isLive ⟨2⟩ = true ∧
      (Sample.content 5).isInterest = false ∧
      (Sample.copied.handleContent ⟨2⟩ (Sample.content 5)).1 = .ok () ∧
      ∃ e ∈ (Sample.copied.handleContent ⟨2⟩ (Sample.content 5)).2.pending.toList,
        Sample.copied.satisfies (Sample.content 5) e = true :=
  ⟨Sample.reachable_copied, by decide, rfl, rfl, by decide⟩

end NamedRelay
